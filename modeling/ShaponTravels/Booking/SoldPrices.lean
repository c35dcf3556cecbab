import ShaponTravels.Booking.References
import ShaponTravels.Pricing.Legacy
import ShaponTravels.Booking.Tickets

/-!
# Sold prices — the passenger fares a booking response shows

`project_booking_response` writes the accepted selling prices over the supplier's for the passenger kinds
that travel.  The projection of a search writes them for every kind that has a fare.
-/

namespace ShaponTravels.Booking

open Library Pricing

variable {fresh : String → Uuid} {q : Quote} {id : Uuid} {body projected : Value} {kind key : String}

/-! ## Fields that are there -/

theorem get?_modifyField (v : Value) (key : String) (f : Value → Value) (k : String) :
    (modifyField v key f).get? k = if k = key then (v.get? k).map f else v.get? k := by
  unfold modifyField
  by_cases hk : k = key
  · subst hk
    rw [if_pos rfl]
    cases hget : v.get? k with
    | none => exact hget
    | some x => exact Value.get?_setField_self (Value.isObject_of_get? hget)
  · rw [if_neg hk]
    split
    · exact Value.get?_setField_ne hk
    · rfl

theorem get?_field (v : Value) (key k : String) : (v.field key).get? k = (v.get? key).bind (·.get? k) := by
  rw [Value.field]
  cases v.get? key <;> rfl

/-- A field of the fares of one kind. -/
theorem get?_fareOf (v : Value) (kind key : String) : (fareOf v kind).get? key =
    (v.get? "passengerFares").bind fun fares => (fares.get? kind).bind (·.get? key) := by
  rw [fareOf, get?_field, get?_field, Option.bind_assoc]

/-! ## Selling the flight -/

/-- The prices of a passenger kind. -/
def priceKeys : List String := ["totalPrice", "discountPrice"]

theorem get?_sellingPrices (hkey : key ∈ priceKeys) (selling v : Value) :
    (sellingPrices priceKeys selling v).get? key = (v.get? key).map fun _ => selling.field key := by
  rw [priceKeys, sellingPrices, List.foldl_cons, List.foldl_cons, List.foldl_nil, get?_modifyField,
    get?_modifyField]
  rcases List.mem_cons.mp hkey with rfl | hkey
  · rw [if_neg (by decide), if_pos rfl]
  · cases List.mem_singleton.mp hkey
    rw [if_pos rfl, if_neg (by decide)]

/-- The body of the loop over the kinds that travel. -/
def sellKind (selling flight : Value) (kind : String) : Value :=
  modifyField flight "passengerFares" fun fares =>
    modifyField fares kind (sellingPrices priceKeys (fareOf selling kind))

theorem get?_sellKind (hkey : key ∈ priceKeys) (selling flight : Value) (kind k : String) :
    (fareOf (sellKind selling flight kind) k).get? key =
      if k = kind then ((fareOf flight k).get? key).map fun _ => (fareOf selling k).field key
      else (fareOf flight k).get? key := by
  rw [get?_fareOf, sellKind, get?_modifyField, if_pos rfl, Option.bind_map]
  rw [get?_fareOf]
  cases flight.get? "passengerFares" with
  | none => rw [Option.bind_none, Option.bind_none, Option.map_none, ite_self]
  | some fares =>
    show ((modifyField fares kind _).get? k).bind _ = _
    rw [get?_modifyField]
    by_cases hk : k = kind
    · subst hk
      rw [if_pos rfl, if_pos rfl, Option.bind_map, Option.bind_some, Option.map_bind]
      congr 1
      funext fare
      exact get?_sellingPrices hkey _ fare
    · rw [if_neg hk, if_neg hk]
      rfl

/-- After the loop the kinds of the list have the selling prices and the others what they had. -/
theorem get?_sellKinds (hkey : key ∈ priceKeys) (selling : Value) (kinds : List String) (flight : Value) :
    (fareOf (kinds.foldl (sellKind selling) flight) kind).get? key =
      if kind ∈ kinds then ((fareOf flight kind).get? key).map fun _ => (fareOf selling kind).field key
      else (fareOf flight kind).get? key := by
  induction kinds generalizing flight with
  | nil => rfl
  | cons k kinds ih =>
    rw [List.foldl_cons, ih, get?_sellKind hkey]
    by_cases hk : kind = k
    · rw [if_pos hk, if_pos (List.mem_cons.mpr (.inl hk)), Option.map_map]
      exact ite_self _
    · rw [if_neg hk]
      by_cases hrest : kind ∈ kinds
      · rw [if_pos hrest, if_pos (List.mem_cons_of_mem _ hrest)]
      · rw [if_neg hrest, if_neg fun h => (List.mem_cons.mp h).elim hk hrest]

/-! ## The flight of a response -/

/-- The kinds that travel: the counts of the accepted offer without those that are zero. -/
def travels (original : Value) (kind : String) : Bool :=
  ((original.field "passengerCounts").get? kind).any fun count => count.asU64? ≠ some 0

theorem get?_projectFlight {flight original selling sold : Value} (hkey : key ∈ priceKeys)
    (h : projectFlight flight original selling = some sold) :
    (fareOf sold kind).get? key =
      if travels original kind = true then
        ((fareOf flight kind).get? key).map fun _ => (fareOf selling kind).field key
      else (fareOf flight kind).get? key := by
  simp only [projectFlight, bind_eq_some, guard_eq_some, exists_const, Value.asObject?_eq_some] at h
  obtain ⟨_, -, -, -, -, components, -, -, _, -, -, counts, hcounts, _, -, _, -, -, heq⟩ := h
  obtain rfl := Option.some.inj heq
  have hkinds : kind ∈ ((Value.entries counts).filter fun entry => entry.2.asU64? ≠ some 0).map Prod.fst ↔
      travels original kind = true := by
    rw [travels, hcounts, Option.any_eq_true]
    constructor
    · intro hmem
      obtain ⟨entry, hentry, rfl⟩ := List.mem_map.mp hmem
      rw [List.mem_filter] at hentry
      exact ⟨entry.2, Value.get?_of_mem_entries hentry.1, hentry.2⟩
    · rintro ⟨count, hcount, hne⟩
      rw [Value.get?, ← Value.find?_entries] at hcount
      obtain ⟨entry, hentry, rfl⟩ := Option.map_eq_some_iff.mp hcount
      have hkind : entry.1 = kind := by simpa using List.find?_some hentry
      exact List.mem_map.mpr
        ⟨entry, List.mem_filter.mpr ⟨List.mem_of_find?_eq_some hentry, hne⟩, hkind⟩
  have hloop := @get?_sellKinds kind _ hkey selling
    (((Value.entries counts).filter fun entry => entry.2.asU64? ≠ some 0).map Prod.fst) flight
  rw [List.foldl_map] at hloop
  rw [get?_fareOf, get?_modifyField, if_neg (by decide), get?_modifyField, if_neg (by decide),
    ← get?_fareOf]
  refine hloop.trans ?_
  by_cases htravels : travels original kind = true
  · rw [if_pos htravels, if_pos (hkinds.mpr htravels)]
  · rw [if_neg htravels, if_neg fun hmem => htravels (hkinds.mp hmem)]

/-- The flight of a response. -/
def flightOf (body : Value) : Value := (body.field "item1").field "flightInfo"

/-- The accepted selling price of a passenger kind. -/
def acceptedPrice (q : Quote) (kind key : String) : Value := (fareOf (q.selling.field "item1") kind).field key

theorem get?_soldResponse {result : Value} (hkey : key ∈ priceKeys) (h : soldResponse body q = some result) :
    (fareOf (flightOf result) kind).get? key =
      if travels (q.original.field "item1") kind = true then
        ((fareOf (flightOf body) kind).get? key).map fun _ => acceptedPrice q kind key
      else (fareOf (flightOf body) kind).get? key := by
  unfold soldResponse at h
  cases hflight : (body.field "item1").get? "flightInfo" with
  | none =>
    rw [hflight] at h
    obtain rfl := Option.some.inj h
    have hnull : flightOf body = .null := by rw [flightOf, Value.field, hflight, Option.getD_none]
    rw [hnull]
    exact (ite_self _).symm
  | some flight =>
    rw [hflight] at h
    obtain ⟨sold, hsold, rfl⟩ := Option.map_eq_some_iff.mp h
    have hbody : flightOf body = flight := Value.field_of_get? hflight
    have hresult : flightOf (modifyField body "item1" fun info => info.setField "flightInfo" sold) = sold := by
      cases hitem : body.get? "item1" with
      | none =>
        rw [Value.field, hitem] at hflight
        cases hflight
      | some info =>
        rw [Value.field_of_get? hitem] at hflight
        have hset : (modifyField body "item1" fun info => info.setField "flightInfo" sold).get? "item1" =
            some (info.setField "flightInfo" sold) := by
          rw [get?_modifyField, if_pos rfl, hitem]
          rfl
        rw [flightOf, Value.field_of_get? hset, Value.field_setField_self (Value.isObject_of_get? hflight)]
    rw [hbody, hresult]
    exact get?_projectFlight hkey hsold

/-! ## What a client reads -/

/-- What the search and `RePrice` leave in a quote: selling prices that are numbers, where there are any,
and identifiers for the references. -/
structure AcceptedQuote (q : Quote) : Prop where
  prices : ∀ kind, ∀ key ∈ priceKeys, acceptedPrice q kind key = .null ∨
    (acceptedPrice q kind key).isNumber = true
  references : ∀ text v, q.referenceMap.get? text = some v → ∃ u : Uuid, v = .str u.text

/-- A value as a client reads it. -/
def published (fresh : String → Uuid) (map : Value) (q : Quote) (id : Uuid) (v : Value) : Value :=
  bindIdentities q id (bindReferences fresh map v)

theorem field_published {map : Value} (hkey : isReference key = false) (hidentity : boundIdentity q id key = none)
    (v : Value) : (published fresh map q id v).field key = published fresh map q id (v.field key) := by
  rw [published, field_bindIdentities hidentity, field_bindReferences hkey, published]

theorem get?_published {map : Value} (hkey : isReference key = false)
    (hidentity : boundIdentity q id key = none) (v : Value) :
    (published fresh map q id v).get? key = (v.get? key).map (published fresh map q id) := by
  rw [published, get?_bindIdentities, get?_bindReferences, Option.map_map]
  cases v.get? key with
  | none => rfl
  | some x =>
    show some (boundIdentityField q id key (boundReference fresh map key x)) = some _
    rw [boundReference_of_not hkey, boundIdentityField_of_none hidentity]
    rfl

/-- Under any key an object stays an object with the same fields, and a text becomes no object. -/
theorem get?_publishedField {map : Value} (hmap : ∀ text v, map.get? text = some v → ∃ u : Uuid, v = .str u.text)
    (kind : String) (x : Value) (k : String) :
    (boundIdentityField q id kind (boundReference fresh map kind x)).get? k =
      (published fresh map q id x).get? k := by
  cases x with
  | str text =>
    have hstr : ∃ t, boundReference fresh map kind (.str text) = .str t := by
      rw [boundReference]
      split
      · cases hget : map.get? text with
        | none => exact ⟨_, rfl⟩
        | some v =>
          obtain ⟨u, rfl⟩ := hmap text v hget
          exact ⟨_, rfl⟩
      · exact ⟨_, rfl⟩
    obtain ⟨t, ht⟩ := hstr
    rw [ht]
    unfold boundIdentityField
    generalize boundIdentity q id kind = identity
    cases identity <;> rfl
  | _ =>
    unfold boundIdentityField
    generalize boundIdentity q id kind = identity
    cases identity <;> rfl

theorem get?_fareOf_published {map : Value} (hkey : key ∈ priceKeys)
    (hmap : ∀ text v, map.get? text = some v → ∃ u : Uuid, v = .str u.text) (flight : Value) (kind : String) :
    (fareOf (published fresh map q id flight) kind).get? key =
      ((fareOf flight kind).get? key).map (published fresh map q id) := by
  have hplain : isReference key = false ∧ boundIdentity q id key = none := by
    rcases List.mem_cons.mp hkey with rfl | hkey
    · exact ⟨by decide +kernel, rfl⟩
    · cases List.mem_singleton.mp hkey
      exact ⟨by decide +kernel, rfl⟩
  rw [fareOf, field_published (by decide +kernel) rfl, fareOf]
  generalize flight.field "passengerFares" = fares
  rw [get?_field, get?_field, published, get?_bindIdentities, get?_bindReferences, Option.map_map,
    Option.bind_map]
  cases fares.get? kind with
  | none => rfl
  | some x =>
    show (boundIdentityField q id kind (boundReference fresh map kind x)).get? key = _
    rw [get?_publishedField hmap, get?_published hplain.1 hplain.2]
    rfl

/-- The breakdown stands beside the fares. -/
theorem fareOf_showBreakdown (selling result : Value) (kind : String) (hresult : result.isObject) :
    fareOf (flightOf (showBreakdown selling result)) kind = fareOf (flightOf result) kind := by
  unfold showBreakdown
  cases (selling.field "item1").get? "fareBreakdown" with
  | none => rfl
  | some breakdown =>
    dsimp only
    rw [flightOf, Value.updateField, Value.field_setField_self hresult]
    rw [Value.field_setField_ne (by decide)]
    split
    · rename_i hflight
      have hinfo : (((result.field "item1").setField "fareBreakdown" breakdown)).isObject := by
        cases hitem : result.field "item1" with
        | obj fields => rfl
        | _ =>
          rw [hitem] at hflight
          cases hflight
      rw [Value.updateField, Value.field_setField_self hinfo, fareOf, Value.field_setField_ne (by decide),
        Value.field_setField_ne (by decide)]
      rfl
    · rw [Value.field_setField_ne (by decide), flightOf]

/-- Every total and every discounted price a kind has in a flight is the accepted one. -/
def Sells (q : Quote) (flight : Value) (kind : String) : Prop :=
  ∀ key ∈ priceKeys, ∀ x, (fareOf flight kind).get? key = some x → x = acceptedPrice q kind key

/-- A price is read as it stands. -/
theorem published_eq_price {map x : Value} (hprice : x = .null ∨ x.isNumber = true) (v : Value) :
    published fresh map q id v = x ↔ v = x := by
  rcases hprice with rfl | hnumber
  · cases v <;> simp [published, bindReferences, bindIdentities]
  · cases x with
    | num lexeme => cases v <;> simp [published, bindReferences, bindIdentities]
    | _ => cases hnumber

theorem isObject_soldResponse {result : Value} (hbody : body.isObject) (h : soldResponse body q = some result) :
    result.isObject := by
  unfold soldResponse at h
  split at h
  · obtain ⟨sold, -, rfl⟩ := Option.map_eq_some_iff.mp h
    unfold modifyField
    split
    · exact Value.isObject_setField hbody
    · exact hbody
  · obtain rfl := Option.some.inj h
    exact hbody

theorem bookingReferences_identifier {refs : List (String × Value)} {code : String} (hquote : AcceptedQuote q)
    (hrefs : q.referenceMap = .obj refs) {text : String} {v : Value}
    (hget : (bookingReferences refs code id).get? text = some v) : ∃ u : Uuid, v = .str u.text := by
  rw [bookingReferences, Value.get?, Value.find?_insertField] at hget
  split at hget
  · cases hget
    exact ⟨id, rfl⟩
  · exact hquote.references text v (by rw [hrefs]; exact hget)

/-- A booking response shows the accepted prices alone exactly when the supplier's fares for the kinds
that do not travel show them. -/
theorem projectBookingResponse_sells_iff (hquote : AcceptedQuote q)
    (h : projectBookingResponse fresh body q id = some projected) :
    (∀ kind, Sells q (flightOf projected) kind) ↔
      ∀ kind, travels (q.original.field "item1") kind = false → Sells q (flightOf body) kind := by
  obtain ⟨-, result, refs, code, hsold, hrefs, hcode, hprojected⟩ := projectBookingResponse_eq_some.mp h
  have hbody : body.isObject := by
    cases hbody : body with
    | obj fields => rfl
    | _ =>
      rw [hbody] at hcode
      cases hcode
  have hobject : (published fresh (bookingReferences refs code id) q id result).isObject := by
    rw [published, isObject_bindIdentities, isObject_bindReferences]
    exact isObject_soldResponse hbody hsold
  have hread : ∀ kind, ∀ key ∈ priceKeys, (fareOf (flightOf projected) kind).get? key =
      ((fareOf (flightOf result) kind).get? key).map
        (published fresh (bookingReferences refs code id) q id) := by
    intro kind key hkey
    rw [hprojected]
    show (fareOf (flightOf (showBreakdown q.selling (published fresh _ q id result))) kind).get? key = _
    rw [fareOf_showBreakdown _ _ _ hobject, flightOf, field_published (by decide +kernel) rfl,
      field_published (by decide +kernel) rfl,
      get?_fareOf_published hkey fun _ _ => bookingReferences_identifier hquote hrefs]
    rfl
  refine forall_congr' fun kind => ?_
  have hprices := hquote.prices kind
  cases htravels : travels (q.original.field "item1") kind with
  | true =>
    -- The price of a kind that travels was written by the projection.
    refine ⟨fun _ hne => absurd hne (by decide), fun _ key hkey x hx => ?_⟩
    rw [hread kind key hkey, get?_soldResponse hkey hsold, if_pos htravels, Option.map_map] at hx
    obtain ⟨_, -, rfl⟩ := Option.map_eq_some_iff.mp hx
    exact (published_eq_price (hprices key hkey) _).mpr rfl
  | false =>
    -- The price of another kind is the supplier's.
    have hshown : ∀ key ∈ priceKeys, (fareOf (flightOf projected) kind).get? key =
        ((fareOf (flightOf body) kind).get? key).map
          (published fresh (bookingReferences refs code id) q id) := by
      intro key hkey
      rw [hread kind key hkey, get?_soldResponse hkey hsold, htravels]
      rfl
    constructor
    · intro hsells _ key hkey x hx
      have hpublic := hsells key hkey _ (by rw [hshown key hkey, hx, Option.map_some])
      exact (published_eq_price (hprices key hkey) x).mp hpublic
    · intro hsells key hkey x hx
      rw [hshown key hkey] at hx
      obtain ⟨y, hy, rfl⟩ := Option.map_eq_some_iff.mp hx
      exact (published_eq_price (hprices key hkey) y).mpr (hsells rfl key hkey y hy)

/-! ## What the search shows -/

variable {d : BigDecimal.Decimals} {original gross : Value} {tier : Option Tier} {markup : Markup}

theorem get?_setSome {v w : Value} {x : Option Value} {n : BigDecimal}
    (h : projectedNumber d v key n = .ok x) (hw : w.isObject) (hget : w.get? key = v.get? key) :
    (setSome key x w).get? key = (v.get? key).map fun _ => .num (d.display n) := by
  cases hkey : v.get? key with
  | none =>
    rw [projectedNumber, hkey] at h
    cases h
    exact hget.trans hkey
  | some y =>
    rw [projectedNumber_some hkey h]
    exact Value.get?_setField_self hw

theorem isObject_setSome {x : Option Value} {v : Value} (h : v.isObject) : (setSome key x v).isObject := by
  cases x with
  | none => exact h
  | some x => exact Value.isObject_setField h

theorem projectKind_prices {fares : Value} {projection : Option Markup} {entry : String × Value} {k : KindFare}
    (h : projectKind d fares projection entry = .ok (some k)) :
    k.kind = entry.1 ∧
      projectedNumber d (fares.field entry.1) "totalPrice" k.selling.total = .ok k.total ∧
      projectedNumber d (fares.field entry.1) "discountPrice" k.selling.discount = .ok k.discount := by
  simp only [projectKind, bind_eq_ok] at h
  obtain ⟨count, -, h⟩ := h
  split at h
  · cases h
  · simp only [bind_eq_ok, pure_eq_ok] at h
    obtain ⟨_, -, _, -, _, -, _, -, _, -, selling, -, total, htotal, discount, hdiscount, hsome⟩ := h
    cases hsome
    exact ⟨rfl, htotal, hdiscount⟩

/-- The search writes its own number over every price of a fare, whether the kind travels or not. -/
theorem projected_prices (h : Pricing.projected d original tier markup = .ok gross) (kind : String)
    (hkey : key ∈ priceKeys) : ∃ n, (fareOf gross kind).get? key =
      ((fareOf original kind).get? key).map fun _ => .num (d.display n) := by
  obtain ⟨c, changes, hcoverage, hproject, rfl⟩ := projected_ok h
  obtain ⟨⟨found, hfound, hpassengers⟩, hobject, htotal⟩ := project_ok hproject
  obtain ⟨hcounts, hfares⟩ := coverage_ok hcoverage
  obtain ⟨hnodup, hkinds⟩ := project_kinds hproject
  rw [(changes_apply_read hobject htotal).2 kind]
  have hfareOf : fareOf original kind = (Value.obj c.fares).field kind := by rw [fareOf, hfares]
  by_cases hmem : kind ∈ changes.passengers.map KindFare.kind
  · obtain ⟨k, hk, rfl⟩ := List.mem_map.mp hmem
    rw [fareOf_foldl_apply hobject (by rw [hfares]; rfl) hnodup hk]
    obtain ⟨_, hprojected⟩ := hkinds k hk
    have hfare : (fareOf original k.kind).isObject := by
      rw [hfareOf, hprojected.kind]
      exact hprojected.fare
    rw [hpassengers, List.reduceOption_mem_iff] at hk
    obtain ⟨entry, -, hentry⟩ := exists_input hfound hk
    obtain ⟨hkind, htotalPrice, hdiscount⟩ := projectKind_prices hentry
    rw [← hkind, ← hfareOf] at htotalPrice hdiscount
    rcases List.mem_cons.mp hkey with rfl | hkey
    · exact ⟨_, (get?_setSome_ne (by decide)).trans (get?_setSome htotalPrice hfare rfl)⟩
    · cases List.mem_singleton.mp hkey
      exact ⟨_, get?_setSome hdiscount (isObject_setSome hfare) (get?_setSome_ne (by decide))⟩
  · rw [fareOf_foldl_apply_ne hobject hmem]
    rw [project_passed hcoverage hproject hmem]
    exact ⟨BigDecimal.ofInt 0, rfl⟩

/-- So the prices of a projected offer are numbers, where there are any. -/
theorem projected_price (h : Pricing.projected d original tier markup = .ok gross) (kind : String)
    (hkey : key ∈ priceKeys) :
    (fareOf gross kind).field key = .null ∨ ((fareOf gross kind).field key).isNumber = true := by
  obtain ⟨n, hread⟩ := projected_prices h kind hkey
  rw [Value.field, hread]
  cases (fareOf original kind).get? key with
  | none => exact .inl rfl
  | some x => exact .inr rfl

/-! ## A fare for infants who do not travel -/

/-- A passenger fare of one price. -/
def sampleKindFare (price : Nat) : Value :=
  .object [("totalPrice", .ofInt price), ("basePrice", .ofInt price), ("taxes", .ofInt 0), ("ait", .ofInt 0)]

/-- The prices of an offer for two adults, with a fare for infants. -/
def samplePriced (adult infant : Nat) : Value :=
  (sampleFlight.setField "bookingComponents" (.arr [sampleKindFare (2 * adult)])).setField "passengerFares"
    (.object [("adt", sampleKindFare adult), ("inf", sampleKindFare infant)])

/-- An accepted offer with these prices of the supplier and of the sale for the infants. -/
def samplePricedQuote (infant sold : Nat) : Quote :=
  { sampleAccepted with
    original := .object [("item1", samplePriced 100 infant)]
    selling := .object [("item1", samplePriced 110 sold)] }

def samplePricedResponse (infant : Nat) : Value :=
  .object [("item1", .object [("bookingCodeRef", .str "b"), ("flightInfo", samplePriced 100 infant)])]

theorem sampleKindFare_price (price : Nat) (hkey : key ∈ priceKeys) :
    (sampleKindFare price).field key = .null ∨ ((sampleKindFare price).field key).isNumber = true := by
  rw [Value.field, sampleKindFare, Value.get?_object]
  rcases List.mem_cons.mp hkey with rfl | hkey
  · exact .inr rfl
  · cases List.mem_singleton.mp hkey
    exact .inl rfl

theorem fareOf_samplePriced (adult infant : Nat) (kind : String) :
    fareOf (samplePriced adult infant) kind =
      if kind = "adt" then sampleKindFare adult else if kind = "inf" then sampleKindFare infant else .null := by
  have hfares : (samplePriced adult infant).field "passengerFares" =
      .object [("adt", sampleKindFare adult), ("inf", sampleKindFare infant)] :=
    Value.field_setField_self rfl
  rw [fareOf, hfares]
  show ((Value.object _).get? kind).getD .null = _
  rw [Value.get?_object]
  by_cases hadult : kind = "adt"
  · subst hadult
    rfl
  by_cases hinfant : kind = "inf"
  · subst hinfant
    rfl
  rw [if_neg hadult, if_neg hinfant]
  simp [Ne.symm hadult, Ne.symm hinfant]

theorem samplePricedQuote_accepted (infant sold : Nat) : AcceptedQuote (samplePricedQuote infant sold) where
  prices kind key hkey := by
    show (fareOf (samplePriced 110 sold) kind).field key = .null ∨
      ((fareOf (samplePriced 110 sold) kind).field key).isNumber = true
    rw [fareOf_samplePriced]
    split
    · exact sampleKindFare_price 110 hkey
    · split
      · exact sampleKindFare_price sold hkey
      · exact .inl rfl
  references text v h := by cases h

/-- Where the supplier asks nothing else for the infants, the response shows accepted prices only. -/
theorem projectBookingResponse_sells : ∃ projected,
    projectBookingResponse sampleFresh (samplePricedResponse 11) (samplePricedQuote 11 11) 4 =
      some projected ∧ ∀ kind, Sells (samplePricedQuote 11 11) (flightOf projected) kind := by
  have hsome : (projectBookingResponse sampleFresh (samplePricedResponse 11) (samplePricedQuote 11 11)
      4).isSome := by decide +kernel
  obtain ⟨projected, hprojected⟩ := Option.isSome_iff_exists.mp hsome
  refine ⟨projected, hprojected,
    (projectBookingResponse_sells_iff (samplePricedQuote_accepted 11 11) hprojected).mpr ?_⟩
  intro kind htravels key hkey x hx
  have hadult : kind ≠ "adt" := by
    rintro rfl
    exact absurd htravels (by decide +kernel)
  have hbody : flightOf (samplePricedResponse 11) = samplePriced 100 11 := rfl
  have haccepted : acceptedPrice (samplePricedQuote 11 11) kind key = (fareOf (samplePriced 110 11) kind).field key :=
    rfl
  rw [hbody, fareOf_samplePriced, if_neg hadult] at hx
  rw [haccepted, fareOf_samplePriced, if_neg hadult, Value.field, hx, Option.getD_some]

/-- The net fare of the infants goes out with the accepted fare of the adults. -/
theorem projectBookingResponse_leaks : ∃ projected,
    projectBookingResponse sampleFresh (samplePricedResponse 10) (samplePricedQuote 10 11) 4 =
      some projected ∧
    (fareOf (flightOf projected) "inf").get? "totalPrice" = some (.ofInt 10) ∧
    acceptedPrice (samplePricedQuote 10 11) "inf" "totalPrice" = .ofInt 11 ∧
    ¬ Sells (samplePricedQuote 10 11) (flightOf projected) "inf" := by
  have hread : (projectBookingResponse sampleFresh (samplePricedResponse 10) (samplePricedQuote 10 11) 4).map
      (fun projected => (fareOf (flightOf projected) "inf").get? "totalPrice") = some (some (.ofInt 10)) := by
    decide +kernel
  obtain ⟨projected, hprojected, hprice⟩ := Option.map_eq_some_iff.mp hread
  have haccepted : acceptedPrice (samplePricedQuote 10 11) "inf" "totalPrice" = .ofInt 11 := by
    decide +kernel
  refine ⟨projected, hprojected, hprice, haccepted, fun hsells => ?_⟩
  have hsame := hsells "totalPrice" (by decide) _ hprice
  rw [haccepted] at hsame
  exact absurd hsame (by decide)

end ShaponTravels.Booking
