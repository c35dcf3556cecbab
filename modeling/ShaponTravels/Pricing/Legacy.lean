import ShaponTravels.Pricing.RoundTrip

/-!
# Legacy — the projection before its changes were collected

The frozen projection of `projection_legacy_test.rs` writes each selling fare into its copy of the offer
as it goes.  The projection of `projection.rs` computes all changes first and writes them afterwards.
-/

namespace ShaponTravels.Pricing

open Library BigDecimal

variable {d : Decimals} {original output : Value} {markup : Markup}

/-! ## The frozen projection -/

/-- `set_existing`. -/
def setExisting (d : Decimals) (v : Value) (key : String) (amount : BigDecimal) :
    Except ProjectionError Value :=
  match v.get? key with
  | none => .ok v
  | some field => do
    ensure field.isNumber .missingOrInvalidPrice
    return v.setField key (.num (d.display amount))

/-- The variables of the frozen loop. -/
structure LegacyState where
  output : Value
  supplierTotal : BigDecimal
  sellingTotal : BigDecimal
  base : BigDecimal
  taxes : BigDecimal
  ait : BigDecimal

/-- The body of the frozen loop. -/
def legacyKind (d : Decimals) (fares : Value) (markup : Markup) (s : LegacyState)
    (entry : String × Value) : Except ProjectionError LegacyState := do
  let count ← fetch (entry.2.asU64?.filter fun n => n < 2 ^ 32) .missingOrInvalidPrice
  let fare := fares.field entry.1
  if count = 0 ∧ fare.isNull then return s
  else
    let supplierTotal ← number fare "totalPrice"
    let base ← number fare "basePrice"
    let taxes ← number fare "taxes"
    let ait ← number fare "ait"
    absentOrZero fare "serviceCharge"
    let selling := price ⟨supplierTotal, base, taxes, ait, count⟩ markup
    let destination ← setExisting d (fareOf s.output entry.1) "totalPrice" selling.total
    let destination ← setExisting d destination "discountPrice" selling.discount
    return { output := s.output.updateField "passengerFares" fun fares => fares.setField entry.1 destination
             supplierTotal := s.supplierTotal.addAssign (supplierTotal.mulRef (ofInt count))
             sellingTotal := s.sellingTotal.addAssign (selling.total.mulRef (ofInt count))
             base := s.base.addAssign (base.mulRef (ofInt count))
             taxes := s.taxes.addAssign (taxes.mulRef (ofInt count))
             ait := s.ait.addAssign (ait.mulRef (ofInt count)) }

/-- Writing into the first booking component. -/
def setComponent (d : Decimals) (output : Value) (key : String) (amount : BigDecimal) :
    Except ProjectionError Value := do
  let component ← setExisting d ((output.field "bookingComponents").item 0) key amount
  return output.updateField "bookingComponents" fun components => components.updateItem 0 fun _ => component

/-- The frozen `single_component`. -/
def legacySingleComponent (d : Decimals) (original : Value) (markup : Markup) :
    Except ProjectionError Value := do
  let components ← fetch (((original.get? "bookingComponents").bind Value.asArray?).filter fun a =>
    a.length = 1) .unverifiedCoverage
  let counts ← fetch ((original.get? "passengerCounts").bind Value.asObject?) .missingOrInvalidPrice
  let fares ← fetch ((original.get? "passengerFares").bind Value.asObject?) .missingOrInvalidPrice
  ensure (fares.all fun f => ((Value.obj counts).get? f.1).isSome) .missingOrInvalidPrice
  let s ← (Value.entries counts).foldlM (legacyKind d (.obj fares) markup)
    ⟨original, ofInt 0, ofInt 0, ofInt 0, ofInt 0, ofInt 0⟩
  let component := components.getD 0 .null
  covers original "totalPrice" s.supplierTotal
  covers component "totalPrice" s.supplierTotal
  covers component "basePrice" s.base
  covers component "taxes" s.taxes
  covers component "ait" s.ait
  absentOrZero original "totalExtraServicePrice"
  absentOrZero component "totalExtraServicePrice"
  absentOrZero component "agentAdditionalPrice"
  let discount := (s.base.add s.taxes).sub (s.sellingTotal.sub s.ait)
  let output ← setExisting d s.output "totalPrice" s.sellingTotal
  let output ← setComponent d output "totalPrice" s.sellingTotal
  setComponent d output "discountPrice" discount

/-- `single_component_owned`: the changes are written into the offer itself. -/
def singleComponentOwned (d : Decimals) (original : Value) (markup : Markup) :
    Except ProjectionError Value := do
  let changes ← project d original (← coverage original) (some markup)
  return changes.apply original

/-- `validate_single_component`. -/
def validateSingleComponent (d : Decimals) (original : Value) : Except ProjectionError Unit := do
  let _ ← project d original (← coverage original) (some (.fixed (ofInt 0)))
  return ()

/-! ## One passenger kind -/

/-- A number is written where the projection would have one written. -/
theorem setExisting_eq (d : Decimals) (v : Value) (key : String) (amount : BigDecimal) :
    setExisting d v key amount = (projectedNumber d v key amount).map fun x => setSome key x v := by
  unfold setExisting projectedNumber
  cases v.get? key with
  | none => rfl
  | some field =>
    cases hn : field.isNumber with
    | true => simp [ensure, hn, Except.map, setSome, bind, Except.bind, pure, Except.pure]
    | false => simp [ensure, hn, Except.map, bind, Except.bind]

/-- What is written of a number depends on the field alone. -/
theorem projectedNumber_congr {v v' : Value} {key : String} (h : v.get? key = v'.get? key)
    (amount : BigDecimal) : projectedNumber d v key amount = projectedNumber d v' key amount := by
  rw [projectedNumber, h, projectedNumber]

theorem get?_setSome_ne {key other : String} {x : Option Value} {v : Value} (h : other ≠ key) :
    (setSome key x v).get? other = v.get? other := by
  cases x with
  | none => rfl
  | some x => exact Value.get?_setField_ne h

/-- The state after a kind. -/
def LegacyState.add (s : LegacyState) (k : KindFare) : LegacyState where
  output := k.apply s.output
  supplierTotal := s.supplierTotal.addAssign (k.original.supplierTotal.mulRef (ofInt k.original.count))
  sellingTotal := s.sellingTotal.addAssign (k.selling.total.mulRef (ofInt k.original.count))
  base := s.base.addAssign (k.original.base.mulRef (ofInt k.original.count))
  taxes := s.taxes.addAssign (k.original.taxes.mulRef (ofInt k.original.count))
  ait := s.ait.addAssign (k.original.ait.mulRef (ofInt k.original.count))

/-- As long as its fares are the original ones, a kind is written as its changes are applied. -/
theorem legacyKind_eq {fares : Value} {s : LegacyState} {entry : String × Value}
    (h : fareOf s.output entry.1 = fares.field entry.1) :
    legacyKind d fares markup s entry = (projectKind d fares (some markup) entry).map fun k =>
      match k with
      | none => s
      | some k => s.add k := by
  have htotal : ∀ n, projectedNumber d (fareOf s.output entry.1) "totalPrice" n =
      projectedNumber d (fares.field entry.1) "totalPrice" n := fun n => by rw [h]
  have hdiscount : ∀ x n, projectedNumber d (setSome "totalPrice" x (fareOf s.output entry.1)) "discountPrice" n =
      projectedNumber d (fares.field entry.1) "discountPrice" n := by
    intro x n
    apply projectedNumber_congr
    rw [get?_setSome_ne (by decide), h]
  unfold legacyKind projectKind
  rw [map_bind]
  refine bind_congr fun count => ?_
  by_cases hskip : count = 0 ∧ (fares.field entry.1).isNull
  · simp only [if_pos hskip]
    rfl
  · simp only [if_neg hskip, map_bind]
    refine bind_congr fun supplierTotal => bind_congr fun base => bind_congr fun taxes =>
      bind_congr fun ait => bind_congr fun _ => ?_
    simp only [sellingFare, setExisting_eq, bind_map, ok_bind, htotal, hdiscount]
    exact bind_congr fun total => bind_congr fun discount => rfl

/-! ## All kinds -/

theorem foldl_add (kinds : List KindFare) (s : LegacyState) : kinds.foldl LegacyState.add s =
    { output := kinds.foldl KindFare.apply s.output
      supplierTotal := kinds.foldl (fun (total : BigDecimal) k =>
        total.addAssign (k.original.supplierTotal.mulRef (ofInt k.original.count))) s.supplierTotal
      sellingTotal := kinds.foldl (fun (total : BigDecimal) k =>
        total.addAssign (k.selling.total.mulRef (ofInt k.original.count))) s.sellingTotal
      base := kinds.foldl (fun (total : BigDecimal) k =>
        total.addAssign (k.original.base.mulRef (ofInt k.original.count))) s.base
      taxes := kinds.foldl (fun (total : BigDecimal) k =>
        total.addAssign (k.original.taxes.mulRef (ofInt k.original.count))) s.taxes
      ait := kinds.foldl (fun (total : BigDecimal) k =>
        total.addAssign (k.original.ait.mulRef (ofInt k.original.count))) s.ait } := by
  induction kinds generalizing s with
  | nil => rfl
  | cons k kinds ih =>
    rw [List.foldl_cons, ih]
    rfl

/-- The frozen loop computes the kinds of the projection and applies each to its copy. -/
theorem legacyLoop_eq {fares : Value} {entries : List (String × Value)} {s : LegacyState}
    (hobject : s.output.isObject) (hnodup : (entries.map Prod.fst).Nodup)
    (h : ∀ entry ∈ entries, fareOf s.output entry.1 = fares.field entry.1) :
    entries.foldlM (legacyKind d fares markup) s =
      (entries.mapM (projectKind d fares (some markup))).map fun found =>
        found.reduceOption.foldl LegacyState.add s := by
  induction entries generalizing s with
  | nil => rfl
  | cons entry entries ih =>
    rw [List.map_cons, List.nodup_cons] at hnodup
    rw [List.foldlM_cons, List.mapM_cons, legacyKind_eq (h entry List.mem_cons_self), bind_map, map_bind]
    cases hkind : projectKind d fares (some markup) entry with
    | error e => rfl
    | ok found =>
      rw [ok_bind, ok_bind, map_bind]
      have hrest : ∀ entry ∈ entries, fareOf s.output entry.1 = fares.field entry.1 :=
        fun e he => h e (List.mem_cons_of_mem _ he)
      cases found with
      | none =>
        rw [ih hobject hnodup.2 hrest]
        cases entries.mapM (projectKind d fares (some markup)) with
        | error e => rfl
        | ok found => rfl
      | some k =>
        have hname : k.kind = entry.1 := by
          rcases projectKind_ok hkind with ⟨hnone, -⟩ | ⟨k', hk', hprojected⟩
          · cases hnone
          · cases hk'
            exact hprojected.kind
        have hkept : ∀ e ∈ entries, fareOf (s.add k).output e.1 = fares.field e.1 := by
          intro e he
          have hne : e.1 ≠ k.kind := fun heq => hnodup.1 (hname ▸ heq ▸ List.mem_map_of_mem he)
          rw [LegacyState.add, fareOf_apply_ne hobject hne, hrest e he]
        rw [ih (isObject_apply hobject) hnodup.2 hkept]
        cases entries.mapM (projectKind d fares (some markup)) with
        | error e => rfl
        | ok found => rfl

/-! ## The whole offer -/

theorem get?_apply {v : Value} {k : KindFare} {key : String} (h : key ≠ "passengerFares") :
    (k.apply v).get? key = v.get? key :=
  Value.get?_setField_ne h

theorem get?_foldl_apply {kinds : List KindFare} {v : Value} {key : String} (h : key ≠ "passengerFares") :
    (kinds.foldl KindFare.apply v).get? key = v.get? key := by
  induction kinds generalizing v with
  | nil => rfl
  | cons k kinds ih => rw [List.foldl_cons, ih, get?_apply h]

theorem setComponent_eq {v component : Value} (h : v.get? "bookingComponents" = some (.arr [component]))
    (key : String) (amount : BigDecimal) :
    setComponent d v key amount = (projectedNumber d component key amount).map fun x =>
      v.setField "bookingComponents" (.arr [setSome key x component]) := by
  have hfield : v.field "bookingComponents" = .arr [component] := Value.field_of_get? h
  rw [setComponent, hfield]
  show (setExisting d component key amount >>= fun c => pure (v.updateField "bookingComponents" _)) = _
  rw [setExisting_eq, bind_map]
  cases projectedNumber d component key amount with
  | error e => rfl
  | ok x =>
    show Except.ok _ = Except.ok _
    rw [Value.updateField, hfield]
    rfl

/-- The numbers of the offer and of its component are written as their changes are applied. -/
theorem setTotals_eq {component : Value} {kinds : List KindFare}
    (h : original.get? "bookingComponents" = some (.arr [component])) (total discount : BigDecimal) :
    (do
      let output ← setExisting d (kinds.foldl KindFare.apply original) "totalPrice" total
      let output ← setComponent d output "totalPrice" total
      setComponent d output "discountPrice" discount) = (do
      let x ← projectedNumber d original "totalPrice" total
      let y ← projectedNumber d component "totalPrice" total
      let z ← projectedNumber d component "discountPrice" discount
      return Changes.apply ⟨kinds, x, y, z⟩ original) := by
  have htotal : projectedNumber d (kinds.foldl KindFare.apply original) "totalPrice" total =
      projectedNumber d original "totalPrice" total :=
    projectedNumber_congr (get?_foldl_apply (by decide)) total
  rw [setExisting_eq, htotal, bind_map]
  refine bind_congr fun x => ?_
  have hwritten : (setSome "totalPrice" x (kinds.foldl KindFare.apply original)).get? "bookingComponents" =
      some (.arr [component]) := by
    rw [get?_setSome_ne (by decide), get?_foldl_apply (by decide), h]
  rw [setComponent_eq hwritten, bind_map]
  refine bind_congr fun y => ?_
  have hwrittenObject : (setSome "totalPrice" x (kinds.foldl KindFare.apply original)).isObject :=
    Value.isObject_of_get? hwritten
  have hagain := setComponent_eq (d := d) (@Value.get?_setField_self _ (.arr [setSome "totalPrice" y component])
    "bookingComponents" hwrittenObject)
    "discountPrice" discount
  have hdiscount : projectedNumber d (setSome "totalPrice" y component) "discountPrice" discount =
      projectedNumber d component "discountPrice" discount :=
    projectedNumber_congr (get?_setSome_ne (by decide)) discount
  rw [hagain, hdiscount]
  cases projectedNumber d component "discountPrice" discount with
  | error e => rfl
  | ok z =>
    show Except.ok _ = Except.ok _
    rw [Changes.apply, Value.updateField, Value.field_of_get? hwritten]
    exact congrArg Except.ok (Value.setField_setField _ _ _ _)

/-- The frozen projection gives the value, or the first error, that the current one gives. -/
theorem legacySingleComponent_eq (d : Decimals) (original : Value) (markup : Markup) :
    legacySingleComponent d original markup = singleComponent d original markup := by
  unfold legacySingleComponent singleComponent coverage
  cases hcomponents : (original.get? "bookingComponents").bind Value.asArray? with
  | none => rfl
  | some components =>
    match components with
    | [] => rfl
    | _ :: _ :: _ => rfl
    | [component] =>
      cases hcounts : (original.get? "passengerCounts").bind Value.asObject? with
      | none => rfl
      | some counts =>
        cases hfares : (original.get? "passengerFares").bind Value.asObject? with
        | none => rfl
        | some fares =>
          simp only [Option.filter, List.length_singleton, decide_true, if_true, fetch_some, ok_bind,
            bind_assoc, pure_bind]
          refine bind_congr fun _ => ?_
          rw [Option.bind_eq_some_iff] at hcomponents hcounts hfares
          obtain ⟨_, hcomponent, harray⟩ := hcomponents
          obtain rfl := Value.asArray?_eq_some.mp harray
          obtain ⟨_, hfaresField, hfaresObject⟩ := hfares
          obtain rfl := Value.asObject?_eq_some.mp hfaresObject
          have hread : ∀ entry ∈ Value.entries counts,
              fareOf original entry.1 = (Value.obj fares).field entry.1 :=
            fun entry _ => by rw [fareOf, Value.field_of_get? hfaresField]
          rw [legacyLoop_eq (s := ⟨original, ofInt 0, ofInt 0, ofInt 0, ofInt 0, ofInt 0⟩)
            (Value.isObject_of_get? hcomponent) (Value.entries_nodup counts) hread, bind_map]
          unfold project
          simp only [bind_assoc, pure_bind]
          refine bind_congr fun found => ?_
          rw [foldl_add]
          refine bind_congr fun _ => bind_congr fun _ => bind_congr fun _ => bind_congr fun _ =>
            bind_congr fun _ => bind_congr fun _ => bind_congr fun _ => bind_congr fun _ => ?_
          exact setTotals_eq hcomponent _ _

/-! ## Validation -/

/-- Whether a number can be written does not depend on the number. -/
theorem projectedNumber_check {α : Type} (v : Value) (key : String) (n n' : BigDecimal)
    (f : Except ProjectionError α) :
    (projectedNumber d v key n >>= fun _ => f) = projectedNumber d v key n' >>= fun _ => f := by
  unfold projectedNumber
  cases v.get? key with
  | none => rfl
  | some field =>
    simp only [bind_assoc, pure_bind]

/-- The checks of a kind read its original fare alone. -/
theorem projectKind_original {fares : Value} (entry : String × Value) (markup markup' : Markup) :
    (projectKind d fares (some markup) entry).map (Option.map (·.original)) =
      (projectKind d fares (some markup') entry).map (Option.map (·.original)) := by
  unfold projectKind
  rw [map_bind, map_bind]
  refine bind_congr fun count => ?_
  by_cases hskip : count = 0 ∧ (fares.field entry.1).isNull
  · simp only [if_pos hskip]
  · simp only [if_neg hskip, map_bind]
    refine bind_congr fun supplierTotal => bind_congr fun base => bind_congr fun taxes =>
      bind_congr fun ait => bind_congr fun _ => ?_
    simp only [sellingFare, ok_bind]
    have hcheck : ∀ markup : Markup, (projectedNumber d (fares.field entry.1) "totalPrice"
        (price ⟨supplierTotal, base, taxes, ait, count⟩ markup).total >>= fun _ =>
        projectedNumber d (fares.field entry.1) "discountPrice"
          (price ⟨supplierTotal, base, taxes, ait, count⟩ markup).discount >>= fun _ =>
        Except.ok (some (⟨supplierTotal, base, taxes, ait, count⟩ : OriginalPassengerFare))) =
      (projectedNumber d (fares.field entry.1) "totalPrice" (ofInt 0) >>= fun _ =>
        projectedNumber d (fares.field entry.1) "discountPrice" (ofInt 0) >>= fun _ =>
        Except.ok (some ⟨supplierTotal, base, taxes, ait, count⟩)) := by
      intro markup
      rw [projectedNumber_check _ _ _ (ofInt 0)]
      refine bind_congr fun _ => ?_
      rw [projectedNumber_check _ _ _ (ofInt 0)]
    exact (hcheck markup).trans (hcheck markup').symm

theorem weightedRef_original (amount : OriginalPassengerFare → BigDecimal) (kinds : List KindFare) :
    weightedRef (fun k => amount k.original) (fun k => k.original.count) kinds =
      weightedRef amount OriginalPassengerFare.count (kinds.map (·.original)) := by
  rw [weightedRef, weightedRef, summed, summed, List.foldl_map]

theorem totals_check (v component : Value) (total total' discount discount' : BigDecimal) :
    (do
      let _ ← projectedNumber d v "totalPrice" total
      let _ ← projectedNumber d component "totalPrice" total
      let _ ← projectedNumber d component "discountPrice" discount
      Except.ok ()) = (do
      let _ ← projectedNumber d v "totalPrice" total'
      let _ ← projectedNumber d component "totalPrice" total'
      let _ ← projectedNumber d component "discountPrice" discount'
      Except.ok ()) := by
  rw [projectedNumber_check v "totalPrice" total total']
  refine bind_congr fun _ => ?_
  rw [projectedNumber_check component "totalPrice" total total']
  refine bind_congr fun _ => ?_
  exact projectedNumber_check component "discountPrice" discount discount' _

/-- So do those of the offer. -/
theorem project_checks (c : Coverage) (markup markup' : Markup) :
    (project d original c (some markup)).map (fun _ => ()) =
      (project d original c (some markup')).map fun _ => () := by
  unfold project
  rw [map_bind, map_bind]
  refine bind_agree (mapM_agree _ fun entry => projectKind_original entry markup markup') fun found found' h => ?_
  have hkinds : found.reduceOption.map (·.original) = found'.reduceOption.map (·.original) := by
    rw [← List.reduceOption_map, ← List.reduceOption_map]
    exact congrArg List.reduceOption h
  have hsum : ∀ amount : OriginalPassengerFare → BigDecimal,
      weightedRef (fun k : KindFare => amount k.original) (fun k => k.original.count) found.reduceOption =
        weightedRef (fun k => amount k.original) (fun k => k.original.count) found'.reduceOption :=
    fun amount => by rw [weightedRef_original, weightedRef_original, hkinds]
  have hsupplier := hsum (·.supplierTotal)
  have hbase := hsum (·.base)
  have htaxes := hsum (·.taxes)
  have hait := hsum (·.ait)
  simp only [hsupplier, hbase, htaxes, hait, map_bind]
  refine bind_congr fun _ => bind_congr fun _ => bind_congr fun _ => bind_congr fun _ =>
    bind_congr fun _ => bind_congr fun _ => bind_congr fun _ => bind_congr fun _ => ?_
  exact totals_check original c.component _ _ _ _

/-- Validation fails where a projection would, and as it would. -/
theorem validateSingleComponent_eq (d : Decimals) (original : Value) (markup : Markup) :
    validateSingleComponent d original = (singleComponent d original markup).map fun _ => () := by
  unfold validateSingleComponent singleComponent
  rw [map_bind]
  refine bind_congr fun c => ?_
  rw [map_bind]
  refine bind_agree (project_checks c _ markup) fun _ _ _ => rfl

/-! ## What is rewritten -/

/-- The values differ at most in fields of those names, and have the same fields. -/
structure SameExcept (keys : List String) (v v' : Value) : Prop where
  other : ∀ key, key ∉ keys → v'.get? key = v.get? key
  present : ∀ key, (v'.get? key).isSome = (v.get? key).isSome
  value : ¬ v.isObject → v' = v

namespace SameExcept

variable {keys keys' : List String} {v v' v'' : Value}

theorem refl (keys : List String) (v : Value) : SameExcept keys v v where
  other _ _ := rfl
  present _ := rfl
  value _ := rfl

theorem trans (h : SameExcept keys v v') (h' : SameExcept keys v' v'') : SameExcept keys v v'' where
  other key hkey := (h'.other key hkey).trans (h.other key hkey)
  present key := (h'.present key).trans (h.present key)
  value hv := by
    have hsame := h.value hv
    rw [← hsame] at hv
    exact (h'.value hv).trans hsame

theorem mono (h : SameExcept keys v v') (hkeys : ∀ key ∈ keys, key ∈ keys') : SameExcept keys' v v' where
  other key hkey := h.other key fun hmem => hkey (hkeys key hmem)
  present := h.present
  value := h.value

/-- A field that is there is rewritten. -/
theorem setField {key : String} (x : Value) (h : (v.get? key).isSome) :
    SameExcept [key] v (v.setField key x) := by
  obtain ⟨y, hy⟩ := Option.isSome_iff_exists.mp h
  have hobject := Value.isObject_of_get? hy
  constructor
  · intro other hother
    exact Value.get?_setField_ne (by simpa using hother)
  · intro other
    by_cases heq : other = key
    · rw [heq, Value.get?_setField_self hobject, hy]
      rfl
    · rw [Value.get?_setField_ne heq]
  · intro hv
    exact absurd hobject hv

theorem setSome {key : String} {x : Option Value} (h : x.isSome → (v.get? key).isSome) :
    SameExcept [key] v (setSome key x v) := by
  cases x with
  | none => exact refl _ _
  | some x => exact setField x (h rfl)

end SameExcept

theorem projectedNumber_present {v : Value} {key : String} {n : BigDecimal} {x : Option Value}
    (h : projectedNumber d v key n = .ok x) (hx : x.isSome) : (v.get? key).isSome := by
  unfold projectedNumber at h
  cases hfield : v.get? key with
  | none =>
    rw [hfield] at h
    cases h
    cases hx
  | some field => rfl

/-- A kind's changes take the place of fields of its fare. -/
theorem projectKind_written {fares : Value} {plan : Option Markup} {entry : String × Value} {k : KindFare}
    (h : projectKind d fares plan entry = .ok (some k)) :
    (k.total.isSome → ((fares.field k.kind).get? "totalPrice").isSome) ∧
      (k.discount.isSome → ((fares.field k.kind).get? "discountPrice").isSome) := by
  simp only [projectKind, bind_eq_ok] at h
  obtain ⟨count, -, h⟩ := h
  split at h
  · cases h
  · simp only [bind_eq_ok, pure_eq_ok, Option.some.injEq] at h
    obtain ⟨_, -, _, -, _, -, _, -, _, -, _, -, total, htotal, discount, hdiscount, rfl⟩ := h
    exact ⟨projectedNumber_present htotal, projectedNumber_present hdiscount⟩

theorem coverage_component {c : Coverage} (h : coverage original = .ok c) :
    original.get? "bookingComponents" = some (.arr [c.component]) ∧
      original.get? "passengerFares" = some (.obj c.fares) := by
  simp only [coverage, bind_eq_ok, fetch_eq_ok, Option.bind_eq_some_iff, Value.asArray?_eq_some] at h
  obtain ⟨_, ⟨_, hcomponents, rfl⟩, h⟩ := h
  split at h
  · simp only [bind_eq_ok, fetch_eq_ok, Option.bind_eq_some_iff, Value.asObject?_eq_some,
      ensure_eq_ok, pure_eq_ok] at h
    obtain ⟨_, -, _, ⟨_, hfares, rfl⟩, _, -, rfl⟩ := h
    exact ⟨hcomponents, hfares⟩
  · cases h

/-- An item with its totals and discounts rewritten. -/
structure Rewritten (original output : Value) : Prop where
  root : SameExcept ["totalPrice", "passengerFares", "bookingComponents"] original output
  kinds : ∀ kind, ((output.field "passengerFares").get? kind).isSome =
    ((original.field "passengerFares").get? kind).isSome
  fare : ∀ kind, SameExcept ["totalPrice", "discountPrice"] (fareOf original kind) (fareOf output kind)
  component : ∃ component component', original.get? "bookingComponents" = some (.arr [component]) ∧
    output.get? "bookingComponents" = some (.arr [component']) ∧
    SameExcept ["totalPrice", "discountPrice"] component component'

/-- The changes of an offer take the place of fields that it has. -/
structure Changes.Fits (original component : Value) (c : Changes) : Prop where
  nodup : (c.passengers.map KindFare.kind).Nodup
  fare : ∀ k ∈ c.passengers, (fareOf original k.kind).isObject
  kindTotal : ∀ k ∈ c.passengers, k.total.isSome → ((fareOf original k.kind).get? "totalPrice").isSome
  kindDiscount : ∀ k ∈ c.passengers, k.discount.isSome →
    ((fareOf original k.kind).get? "discountPrice").isSome
  total : c.total.isSome → (original.get? "totalPrice").isSome
  componentTotal : c.componentTotal.isSome → (component.get? "totalPrice").isSome
  discount : c.discount.isSome → (component.get? "discountPrice").isSome

theorem project_fits {c : Coverage} {plan : Option Markup} {changes : Changes}
    (hcoverage : coverage original = .ok c) (h : project d original c plan = .ok changes) :
    changes.Fits original c.component := by
  obtain ⟨hnodup, hkinds⟩ := project_kinds h
  obtain ⟨-, hfares⟩ := coverage_ok hcoverage
  obtain ⟨⟨found, hfound, hpassengers⟩, -, -⟩ := project_ok h
  have hwritten : ∀ k ∈ changes.passengers,
      (k.total.isSome → ((fareOf original k.kind).get? "totalPrice").isSome) ∧
        (k.discount.isSome → ((fareOf original k.kind).get? "discountPrice").isSome) := by
    intro k hk
    rw [hpassengers, List.reduceOption_mem_iff] at hk
    obtain ⟨entry, -, hkind⟩ := exists_input hfound hk
    rw [fareOf, hfares]
    exact projectKind_written hkind
  simp only [project, bind_eq_ok, pure_eq_ok] at h
  obtain ⟨_, -, _, -, _, -, _, -, _, -, _, -, _, -, _, -, _, -, total, htotal, componentTotal, hcomponent,
    discount, hdiscount, rfl⟩ := h
  exact {
    nodup := hnodup
    fare := fun k hk => by
      obtain ⟨entry, hprojected⟩ := hkinds k hk
      rw [fareOf, hfares, hprojected.kind]
      exact hprojected.fare
    kindTotal := fun k hk => (hwritten k hk).1
    kindDiscount := fun k hk => (hwritten k hk).2
    total := projectedNumber_present htotal
    componentTotal := projectedNumber_present hcomponent
    discount := projectedNumber_present hdiscount }

/-- Applying kinds rewrites the fares, and the same kinds are there afterwards. -/
theorem foldl_apply_same {kinds : List KindFare} {v : Value}
    (hfares : (v.get? "passengerFares").isSome)
    (h : ∀ k ∈ kinds, ((v.field "passengerFares").get? k.kind).isSome) :
    SameExcept ["passengerFares"] v (kinds.foldl KindFare.apply v) ∧ ∀ kind,
      (((kinds.foldl KindFare.apply v).field "passengerFares").get? kind).isSome =
        ((v.field "passengerFares").get? kind).isSome := by
  induction kinds generalizing v with
  | nil => exact ⟨.refl _ _, fun _ => rfl⟩
  | cons k kinds ih =>
    obtain ⟨fares, hget⟩ := Option.isSome_iff_exists.mp hfares
    have hobject := Value.isObject_of_get? hget
    have hkind := SameExcept.setField
      (setSome "discountPrice" k.discount (setSome "totalPrice" k.total (fareOf v k.kind)))
      (h k List.mem_cons_self)
    have happly : SameExcept ["passengerFares"] v (k.apply v) := .setField _ hfares
    have hwritten : (k.apply v).field "passengerFares" = (v.field "passengerFares").setField k.kind
        (setSome "discountPrice" k.discount (setSome "totalPrice" k.total (fareOf v k.kind))) := by
      rw [KindFare.apply, Value.updateField, Value.field_setField_self hobject]
      rfl
    have hpresent : ∀ kind, (((k.apply v).field "passengerFares").get? kind).isSome =
        ((v.field "passengerFares").get? kind).isSome := by
      intro kind
      rw [hwritten]
      exact hkind.present kind
    obtain ⟨hrest, hkinds⟩ := ih (v := k.apply v) (by rw [happly.present]; exact hfares)
      fun k' hk' => by rw [hpresent]; exact h k' (List.mem_cons_of_mem _ hk')
    exact ⟨happly.trans hrest, fun kind => (hkinds kind).trans (hpresent kind)⟩

/-- Changes that fit rewrite the totals and discounts and nothing else. -/
theorem rewritten_apply {c : Coverage} {changes : Changes} (hcoverage : coverage original = .ok c)
    (h : changes.Fits original c.component) : Rewritten original (changes.apply original) := by
  obtain ⟨hcomponents, hfares⟩ := coverage_component hcoverage
  have hobject := Value.isObject_of_get? hfares
  have hfaresObject : (original.field "passengerFares").isObject := by
    rw [Value.field_of_get? hfares]
    rfl
  have hkinds : ∀ k ∈ changes.passengers, ((original.field "passengerFares").get? k.kind).isSome := by
    intro k hk
    have hfare := h.fare k hk
    rw [fareOf, Value.field] at hfare
    cases hget : (original.field "passengerFares").get? k.kind with
    | some fare => rfl
    | none =>
      rw [hget] at hfare
      cases hfare
  obtain ⟨happly, hpresent⟩ := foldl_apply_same (by rw [hfares]; rfl) hkinds
  have htotal : SameExcept ["totalPrice"] (changes.passengers.foldl KindFare.apply original)
      (setSome "totalPrice" changes.total (changes.passengers.foldl KindFare.apply original)) :=
    .setSome fun hsome => by rw [happly.present]; exact h.total hsome
  -- the fares and the total leave the component alone, which is written last
  have hcomponent : (setSome "totalPrice" changes.total
      (changes.passengers.foldl KindFare.apply original)).get? "bookingComponents" =
      some (.arr [c.component]) := by
    rw [htotal.other _ (by decide), happly.other _ (by decide), hcomponents]
  have hfield : (changes.apply original).field "passengerFares" =
      (changes.passengers.foldl KindFare.apply original).field "passengerFares" := by
    rw [Changes.apply, Value.updateField, Value.field_setField_ne (by decide), field_setSome_ne (by decide)]
  constructor
  case root =>
    refine (happly.mono (by simp)).trans ((htotal.mono (by simp)).trans ?_)
    refine @SameExcept.mono ["bookingComponents"] _ _ _ (.setField _ ?_) (by simp)
    rw [hcomponent]
    rfl
  case kinds =>
    intro kind
    rw [hfield, hpresent]
  case fare =>
    intro kind
    rw [fareOf, fareOf, hfield]
    by_cases hkind : kind ∈ changes.passengers.map KindFare.kind
    · obtain ⟨k, hk, rfl⟩ := List.mem_map.mp hkind
      have hread := fareOf_foldl_apply hobject hfaresObject h.nodup hk
      rw [fareOf] at hread
      rw [hread]
      have hfirst : SameExcept ["totalPrice"] (fareOf original k.kind)
          (setSome "totalPrice" k.total (fareOf original k.kind)) := .setSome (h.kindTotal k hk)
      refine (hfirst.mono (by simp)).trans (SameExcept.mono (.setSome fun hsome => ?_) (by simp))
      rw [hfirst.present]
      exact h.kindDiscount k hk hsome
    · have hread := @fareOf_foldl_apply_ne changes.passengers _ _ hobject hkind
      rw [fareOf, fareOf] at hread
      rw [hread]
      exact .refl _ _
  case component =>
    have hfirst : SameExcept ["totalPrice"] c.component
        (setSome "totalPrice" changes.componentTotal c.component) := .setSome h.componentTotal
    refine ⟨c.component, setSome "discountPrice" changes.discount
      (setSome "totalPrice" changes.componentTotal c.component), hcomponents, ?_, ?_⟩
    · rw [Changes.apply, Value.updateField, Value.field_of_get? hcomponent,
        Value.get?_setField_self (Value.isObject_of_get? hcomponent)]
      rfl
    · refine (hfirst.mono (by simp)).trans (SameExcept.mono (.setSome fun hsome => ?_) (by simp))
      rw [hfirst.present]
      exact h.discount hsome

/-- Three walks over one offer: the frozen one, the one that collects its changes, and the one that keeps
nothing of them.  They agree on the value and on the first error, and rewrite nothing but prices. -/
theorem projections_agree (d : Decimals) (original : Value) (markup : Markup) :
    legacySingleComponent d original markup = singleComponent d original markup ∧
    singleComponentOwned d original markup = singleComponent d original markup ∧
    validateSingleComponent d original = (singleComponent d original markup).map (fun _ => ()) ∧
    ∀ output, singleComponent d original markup = .ok output → Rewritten original output := by
  refine ⟨legacySingleComponent_eq d original markup, rfl, validateSingleComponent_eq d original markup,
    fun output h => ?_⟩
  simp only [singleComponent, bind_eq_ok, pure_eq_ok] at h
  obtain ⟨c, hcoverage, changes, hproject, rfl⟩ := h
  exact rewritten_apply hcoverage (project_fits hcoverage hproject)

end ShaponTravels.Pricing
