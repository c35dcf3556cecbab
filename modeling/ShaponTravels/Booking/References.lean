import ShaponTravels.Booking.Responses

/-!
# References — how private references are replaced

`bind_references` and `bind_booking_identities` rewrite a value field by field: the keys and the shape
stay, and what becomes of a field depends on its key and its value alone.
-/

namespace ShaponTravels.Booking

open Library

variable {fresh : String → Uuid} {map : Value} {q : Quote} {id : Uuid}

/-! ## Fields -/

/-- What a field becomes. -/
def boundReference (fresh : String → Uuid) (map : Value) (key : String) : Value → Value
  | .str text =>
    if isReference key && text ≠ "" then (map.get? text).getD (.str (fresh text).text) else .str text
  | v => bindReferences fresh map v

theorem bindReferenceFields_eq_map (fields : List (String × Value)) :
    bindReferenceFields fresh map fields =
      fields.map fun f => (f.1, boundReference fresh map f.1 f.2) := by
  induction fields with
  | nil => rfl
  | cons f fields ih =>
    obtain ⟨key, v⟩ := f
    rw [List.map_cons, ← ih]
    cases v <;> simp only [bindReferenceFields, boundReference]

/-- A string stands for itself under a key that holds no reference. -/
theorem boundReference_of_not {key : String} (h : isReference key = false) (v : Value) :
    boundReference fresh map key v = bindReferences fresh map v := by
  cases v with
  | str text =>
    rw [boundReference, h]
    rfl
  | _ => rfl

theorem find?_map_value (f : String → Value → Value) (fields : List (String × Value)) (key : String) :
    ((fields.map fun e => (e.1, f e.1 e.2)).find? fun e => e.1 = key).map Prod.snd =
      ((fields.find? fun e => e.1 = key).map Prod.snd).map (f key) := by
  induction fields with
  | nil => rfl
  | cons e fields ih =>
    rw [List.map_cons, List.find?_cons, List.find?_cons]
    by_cases hkey : e.1 = key
    · simp [hkey]
    · simp only [hkey, decide_false]
      exact ih

/-- A field of the rewritten value is the rewritten field. -/
theorem get?_bindReferences (v : Value) (key : String) :
    (bindReferences fresh map v).get? key = (v.get? key).map (boundReference fresh map key) := by
  cases v with
  | obj fields =>
    rw [bindReferences, bindReferenceFields_eq_map]
    exact find?_map_value _ fields key
  | _ => rfl

theorem field_bindReferences {key : String} (h : isReference key = false) (v : Value) :
    (bindReferences fresh map v).field key = bindReferences fresh map (v.field key) := by
  rw [Value.field, Value.field, get?_bindReferences]
  cases v.get? key with
  | none => rfl
  | some x => exact boundReference_of_not h x

theorem isObject_bindReferences (v : Value) :
    (bindReferences fresh map v).isObject = v.isObject := by
  cases v <;> rfl

/-! ## Identities -/

/-- What a field becomes. -/
def boundIdentityField (q : Quote) (id : Uuid) (key : String) (v : Value) : Value :=
  match v, boundIdentity q id key with
  | .str _, some identity => .str identity.text
  | v, _ => bindIdentities q id v

theorem bindIdentityFields_eq_map (fields : List (String × Value)) :
    bindIdentityFields q id fields = fields.map fun f => (f.1, boundIdentityField q id f.1 f.2) := by
  induction fields with
  | nil => rfl
  | cons f fields ih =>
    obtain ⟨key, v⟩ := f
    rw [List.map_cons, ← ih]
    conv_lhs => unfold bindIdentityFields
    unfold boundIdentityField
    generalize boundIdentity q id key = identity
    cases v <;> cases identity <;> rfl

theorem get?_bindIdentities (v : Value) (key : String) :
    (bindIdentities q id v).get? key = (v.get? key).map (boundIdentityField q id key) := by
  cases v with
  | obj fields =>
    rw [bindIdentities, bindIdentityFields_eq_map]
    exact find?_map_value _ fields key
  | _ => rfl

/-- A string stands for itself under a key that holds no identity. -/
theorem boundIdentityField_of_none {key : String} (h : boundIdentity q id key = none) (v : Value) :
    boundIdentityField q id key v = bindIdentities q id v := by
  unfold boundIdentityField
  rw [h]
  cases v <;> rfl

theorem field_bindIdentities {key : String} (h : boundIdentity q id key = none) (v : Value) :
    (bindIdentities q id v).field key = bindIdentities q id (v.field key) := by
  rw [Value.field, Value.field, get?_bindIdentities]
  cases v.get? key with
  | none => rfl
  | some x => exact boundIdentityField_of_none h x

theorem isObject_bindIdentities (v : Value) : (bindIdentities q id v).isObject = v.isObject := by
  cases v <;> rfl

/-! ## Objects that agree off one key -/

/-- Two objects with the same fields, one key apart. -/
structure AgreeOff (key : String) (v v' : Value) : Prop where
  left : v.isObject = true
  right : v'.isObject = true
  get? : ∀ k, k ≠ key → v.get? k = v'.get? k

namespace AgreeOff

variable {key k : String} {v v' : Value}

theorem symm (h : AgreeOff key v v') : AgreeOff key v' v :=
  ⟨h.right, h.left, fun k hk => (h.get? k hk).symm⟩

theorem field (h : AgreeOff key v v') (hk : k ≠ key) : v.field k = v'.field k := by
  rw [Value.field, Value.field, h.get? k hk]

theorem setField (h : AgreeOff key v v') (k : String) (x : Value) :
    AgreeOff key (v.setField k x) (v'.setField k x) := by
  refine ⟨Value.isObject_setField h.left, Value.isObject_setField h.right, ?_⟩
  intro j hj
  by_cases hjk : j = k
  · rw [hjk, Value.get?_setField_self h.left, Value.get?_setField_self h.right]
  · rw [Value.get?_setField_ne hjk, Value.get?_setField_ne hjk, h.get? j hj]

theorem bindReferences (h : AgreeOff key v v') :
    AgreeOff key (bindReferences fresh map v) (bindReferences fresh map v') := by
  refine ⟨(isObject_bindReferences v).trans h.left, (isObject_bindReferences v').trans h.right, ?_⟩
  intro k hk
  rw [get?_bindReferences, get?_bindReferences, h.get? k hk]

theorem bindIdentities (h : AgreeOff key v v') :
    AgreeOff key (bindIdentities q id v) (bindIdentities q id v') := by
  refine ⟨(isObject_bindIdentities v).trans h.left, (isObject_bindIdentities v').trans h.right, ?_⟩
  intro k hk
  rw [get?_bindIdentities, get?_bindIdentities, h.get? k hk]

theorem modifyField (h : AgreeOff key v v') {k : String} (hk : k ≠ key) (f : Value → Value) :
    AgreeOff key (modifyField v k f) (modifyField v' k f) := by
  unfold Booking.modifyField
  rw [← h.get? k hk]
  cases v.get? k with
  | none => exact h
  | some x => exact h.setField k (f x)

end AgreeOff

/-! ## Projected responses -/

/-- The response at the selling prices, where it has a flight. -/
def soldResponse (body : Value) (q : Quote) : Option Value :=
  match (body.field "item1").get? "flightInfo" with
  | some flight => (projectFlight flight (q.original.field "item1") (q.selling.field "item1")).map
      fun flight => modifyField body "item1" fun info => info.setField "flightInfo" flight
  | none => some body

/-- The references of the offer and the one the supplier gave the booking. -/
def bookingReferences (refs : List (String × Value)) (code : String) (id : Uuid) : Value :=
  .obj (Value.insertField code (.str id.text) refs)

/-- The accepted breakdown, shown beside the fare and in the flight. -/
def showBreakdown (selling result : Value) : Value :=
  match (selling.field "item1").get? "fareBreakdown" with
  | none => result
  | some breakdown => result.updateField "item1" fun info =>
      let info := info.setField "fareBreakdown" breakdown
      if (info.field "flightInfo").isObject then
        info.updateField "flightInfo" fun flight => flight.setField "fareBreakdown" breakdown
      else info

theorem projectBookingResponse_eq_some {body projected : Value} :
    projectBookingResponse fresh body q id = some projected ↔
      (["totalPrice", "passengerFares", "bookingComponents"].all fun key =>
        ((body.field "item1").get? key).isNone) = true ∧
      ∃ result refs code, soldResponse body q = some result ∧ q.referenceMap = .obj refs ∧
        (body.field "item1").field "bookingCodeRef" = .str code ∧
        projected = showBreakdown q.selling
          (bindIdentities q id (bindReferences fresh (bookingReferences refs code id) result)) := by
  unfold projectBookingResponse soldResponse
  dsimp only
  cases (body.field "item1").get? "flightInfo" with
  | none =>
    simp only [bind_eq_some, guard_eq_some, exists_const, Value.asObject?_eq_some,
      Value.asStr?_eq_some]
    constructor
    · rintro ⟨hguard, result, hresult, refs, hrefs, code, hcode, heq⟩
      exact ⟨hguard, result, refs, code, hresult, hrefs, hcode, (Option.some.inj heq).symm⟩
    · rintro ⟨hguard, result, refs, code, hresult, hrefs, hcode, rfl⟩
      exact ⟨hguard, result, hresult, refs, hrefs, code, hcode, rfl⟩
  | some flight =>
    simp only [bind_eq_some, guard_eq_some, exists_const, Value.asObject?_eq_some,
      Value.asStr?_eq_some]
    constructor
    · rintro ⟨hguard, result, hresult, refs, hrefs, code, hcode, heq⟩
      exact ⟨hguard, result, refs, code, hresult, hrefs, hcode, (Option.some.inj heq).symm⟩
    · rintro ⟨hguard, result, refs, code, hresult, hrefs, hcode, rfl⟩
      exact ⟨hguard, result, hresult, refs, hrefs, code, hcode, rfl⟩

end ShaponTravels.Booking
