import ShaponTravels.Pricing.Tier
import ShaponTravels.Wallet.Amounts
import ShaponTravels.Wallet.Ticket

/-!
# RoundTrip — from a projected fare through its quote to what the wallet charges

Four modules compute the same total.  Every amount they hand over has two decimal places, so each of
them is followed here by its minor units.
-/

namespace ShaponTravels.Pricing

open Library BigDecimal

variable {d : Decimals} {original gross : Value} {tier : Option Tier} {share : Int}
  {currency : String} {markup : Markup}

/-! ## Sums -/

theorem toRat_summed {α : Type} (product : α → BigDecimal) (kinds : List α) :
    (summed product kinds).toRat = (kinds.map fun k => (product k).toRat).sum := by
  suffices hfold : ∀ total : BigDecimal, (kinds.foldl (fun total k => total.addAssign (product k)) total).toRat =
      total.toRat + (kinds.map fun k => (product k).toRat).sum by
    have hsum := hfold (ofInt 0)
    rwa [toRat_ofInt, Int.cast_zero, zero_add] at hsum
  induction kinds with
  | nil => simp
  | cons k kinds ih =>
    intro total
    rw [List.foldl_cons, ih, toRat_addAssign, List.map_cons, List.sum_cons, add_assoc]

/-- A sum has no more places than its products, and no more zeros behind them. -/
theorem scale_summed {α : Type} {product : α → BigDecimal} {kinds : List α} {low high : Int} (hlow : low ≤ 0)
    (hhigh : 0 ≤ high) :
    ((∀ k ∈ kinds, low ≤ (product k).scale) → low ≤ (summed product kinds).scale) ∧
      ((∀ k ∈ kinds, (product k).scale ≤ high) → (summed product kinds).scale ≤ high) := by
  suffices hfold : ∀ total : BigDecimal,
      (low ≤ total.scale → (∀ k ∈ kinds, low ≤ (product k).scale) →
        low ≤ (kinds.foldl (fun total k => total.addAssign (product k)) total).scale) ∧
      (total.scale ≤ high → (∀ k ∈ kinds, (product k).scale ≤ high) →
        (kinds.foldl (fun total k => total.addAssign (product k)) total).scale ≤ high) from
    ⟨(hfold (ofInt 0)).1 hlow, (hfold (ofInt 0)).2 hhigh⟩
  induction kinds with
  | nil => exact fun total => ⟨fun h _ => h, fun h _ => h⟩
  | cons k kinds ih =>
    intro total
    have hscale := scale_addAssign total (product k)
    constructor
    · intro htotal h
      exact (ih _).1 (le_trans (le_min htotal (h k List.mem_cons_self)) hscale.1)
        fun k' hk' => h k' (List.mem_cons_of_mem _ hk')
    · intro htotal h
      exact (ih _).2 (le_trans hscale.2 (max_le htotal (h k List.mem_cons_self)))
        fun k' hk' => h k' (List.mem_cons_of_mem _ hk')

/-- A sum over the kinds is the sum of their minor units, each times its count. -/
theorem weighted_isMinor {α β : Type} {amount : α → BigDecimal} {count : α → Nat} {units : β → Int}
    {number : β → Nat} {xs : List α} {ys : List β}
    (h : List.Forall₂ (fun x y => count x = number y ∧ IsMinor (amount x) (units y)) xs ys) :
    IsMinor (weighted amount count xs) (ys.map fun y => units y * (number y : Int)).sum := by
  suffices hfold : ∀ (total : BigDecimal) (n : Int), IsMinor total n →
      IsMinor (xs.foldl (fun total x => total.addAssign ((amount x).mul (ofInt (count x)))) total)
        (n + (ys.map fun y => units y * (number y : Int)).sum) by
    have hsum := hfold (ofInt 0) 0 .zero
    rwa [Int.zero_add] at hsum
  induction h with
  | nil =>
    intro total n htotal
    simpa using htotal
  | @cons x y xs ys hxy _ ih =>
    intro total n htotal
    have hx := hxy.2.mul (count x)
    rw [hxy.1] at hx
    have hrest := ih _ _ (htotal.addAssign hx)
    rw [List.foldl_cons, List.map_cons, List.sum_cons, ← Int.add_assoc, hxy.1]
    exact hrest

/-- So is one with products of references, however many of the places it keeps. -/
theorem weightedRef_minor {α : Type} {amount : α → BigDecimal} (count : α → Nat) {units : α → Int}
    {kinds : List α} (h : ∀ k ∈ kinds, amount k = ⟨units k, 2⟩) :
    (weightedRef amount count kinds).scale ≤ 2 ∧
      (weightedRef amount count kinds).toRat = (kinds.map fun k => units k * (count k : Int)).sum / 100 := by
  constructor
  · refine (scale_summed (le_refl 0) (by decide)).2 fun k hk => le_trans (scale_mulRef_ofInt _ _) ?_
    rw [h k hk]
    exact le_refl _
  · have hterms : kinds.map (fun k => ((amount k).mulRef (ofInt (count k))).toRat) =
        (kinds.map fun k => units k * (count k : Int)).map fun n : Int => (n : ℚ) / 100 := by
      rw [List.map_map]
      refine List.map_congr_left fun k hk => ?_
      rw [toRat_mulRef, h k hk, toRat_minor, toRat_ofInt, Function.comp_apply]
      push_cast
      ring
    rw [weightedRef, toRat_summed, hterms]
    generalize kinds.map (fun k => units k * (count k : Int)) = terms
    induction terms with
    | nil => simp
    | cons n terms ih =>
      rw [List.map_cons, List.sum_cons, List.sum_cons, ih]
      push_cast
      ring

/-! ## What the projection writes -/

theorem price_minor (fare : OriginalPassengerFare) (markup : Markup) :
    (price fare markup).total = ⟨(price fare markup).total.digits, 2⟩ :=
  withScaleRound_scale _ 2

theorem sellingFare_minor {fare : OriginalPassengerFare} {markup : Option Markup}
    {selling : SellingPassengerFare} (h : sellingFare fare markup = .ok selling) :
    selling.total = ⟨selling.total.digits, 2⟩ := by
  cases markup with
  | some markup =>
    cases h
    exact price_minor fare markup
  | none =>
    simp only [sellingFare, bind_eq_ok, ensure_eq_ok, exists_const, pure_eq_ok] at h
    obtain ⟨-, rfl⟩ := h
    show withScale _ 2 = _
    rw [withScaleRound_scale fare.base, withScaleRound_scale fare.taxes, add_minor, withScale_self]

theorem number_ok {v : Value} {key : String} {n : BigDecimal} (h : number v key = .ok n) :
    ∃ x, v.get? key = some x ∧ x.isNumber := by
  rw [number, fetch_eq_ok, Option.bind_eq_some_iff] at h
  obtain ⟨x, hx, -⟩ := h
  rw [Option.filter_eq_some_iff] at hx
  exact ⟨x, hx.1, hx.2⟩

theorem projectedNumber_some {v x : Value} {key : String} {n : BigDecimal} {projected : Option Value}
    (hx : v.get? key = some x) (h : projectedNumber d v key n = .ok projected) :
    projected = some (.num (d.display n)) := by
  simp only [projectedNumber, hx, bind_eq_ok, ensure_eq_ok, exists_const, pure_eq_ok] at h
  exact h.2.symm

/-- What the loop of `project` makes of a passenger kind. -/
structure Projected (d : Decimals) (fares : Value) (entry : String × Value) (k : KindFare) :
    Prop where
  kind : k.kind = entry.1
  count : entry.2.asU64? = some k.original.count
  fare : (fares.field entry.1).isObject
  minor : k.selling.total = ⟨k.selling.total.digits, 2⟩
  total : k.total = some (.num (d.display k.selling.total))

theorem projectKind_ok {fares : Value} {markup : Option Markup} {entry : String × Value}
    {found : Option KindFare} (h : projectKind d fares markup entry = .ok found) :
    (found = none ∧ entry.2.asU64? = some 0) ∨ ∃ k, found = some k ∧ Projected d fares entry k := by
  simp only [projectKind, bind_eq_ok, fetch_eq_ok, Option.filter_eq_some_iff] at h
  obtain ⟨count, ⟨hcount, -⟩, h⟩ := h
  split at h
  · rename_i hnone
    cases h
    rw [hnone.1] at hcount
    exact .inl ⟨rfl, hcount⟩
  · simp only [bind_eq_ok, pure_eq_ok] at h
    obtain ⟨supplierTotal, hsupplier, base, -, taxes, -, ait, -, _, -, selling, hselling, total,
      htotal, discount, -, rfl⟩ := h
    obtain ⟨x, hx, -⟩ := number_ok hsupplier
    exact .inr ⟨_, rfl, rfl, hcount, Value.isObject_of_get? hx, sellingFare_minor hselling,
      projectedNumber_some hx htotal⟩

theorem projectKind_none {fares : Value} {markup : Option Markup} {entry : String × Value}
    (h : projectKind d fares markup entry = .ok none) : fares.field entry.1 = .null := by
  simp only [projectKind, bind_eq_ok] at h
  obtain ⟨count, -, h⟩ := h
  split at h
  · rename_i hnone
    cases hvalue : fares.field entry.1 with
    | null => rfl
    | _ =>
      rw [hvalue] at hnone
      cases hnone.2
  · simp only [bind_eq_ok, pure_eq_ok] at h
    obtain ⟨_, -, _, -, _, -, _, -, _, -, _, -, _, -, _, -, hsome⟩ := h
    cases hsome

theorem coverage_ok {c : Coverage} (h : coverage original = .ok c) :
    original.field "passengerCounts" = .obj c.counts ∧
      original.field "passengerFares" = .obj c.fares := by
  simp only [coverage, bind_eq_ok, fetch_eq_ok, Option.bind_eq_some_iff] at h
  obtain ⟨components, -, h⟩ := h
  split at h
  · simp only [bind_eq_ok, fetch_eq_ok, Option.bind_eq_some_iff, Value.asObject?_eq_some,
      ensure_eq_ok, pure_eq_ok] at h
    obtain ⟨_, ⟨_, hcounts, rfl⟩, _, ⟨_, hfares, rfl⟩, _, -, rfl⟩ := h
    exact ⟨Value.field_of_get? hcounts, Value.field_of_get? hfares⟩
  · cases h

theorem coverage_counts {c : Coverage} (h : coverage original = .ok c) :
    ∀ f ∈ c.fares, ((Value.obj c.counts).get? f.1).isSome = true := by
  simp only [coverage, bind_eq_ok, fetch_eq_ok, Option.bind_eq_some_iff] at h
  obtain ⟨components, -, h⟩ := h
  split at h
  · simp only [bind_eq_ok, ensure_eq_ok, pure_eq_ok, List.all_eq_true] at h
    obtain ⟨_, -, _, -, _, hall, rfl⟩ := h
    exact hall
  · cases h

/-- The kinds of a projection are the entries it did not pass over, and its total is their sum. -/
theorem project_ok {c : Coverage} {markup : Option Markup} {changes : Changes}
    (h : project d original c markup = .ok changes) :
    (∃ found, (Value.entries c.counts).mapM (projectKind d (.obj c.fares) markup) = .ok found ∧
        changes.passengers = found.reduceOption) ∧
      original.isObject ∧
      changes.total = some (.num (d.display
        (weightedRef (·.selling.total) (·.original.count) changes.passengers))) := by
  simp only [project, bind_eq_ok, pure_eq_ok] at h
  obtain ⟨found, hfound, _, hcovers, _, -, _, -, _, -, _, -, _, -, _, -, _, -, total, htotal,
    _, -, _, -, rfl⟩ := h
  simp only [covers, bind_eq_ok] at hcovers
  obtain ⟨n, hn, -⟩ := hcovers
  obtain ⟨x, hx, -⟩ := number_ok hn
  exact ⟨⟨found, hfound, rfl⟩, Value.isObject_of_get? hx, projectedNumber_some hx htotal⟩

/-! ## Reading the changes back -/

theorem isObject_apply {v : Value} {k : KindFare} (h : v.isObject) : (k.apply v).isObject :=
  Value.isObject_setField h

theorem isObject_foldl_apply {kinds : List KindFare} {v : Value} (h : v.isObject) :
    (kinds.foldl KindFare.apply v).isObject := by
  induction kinds generalizing v with
  | nil => exact h
  | cons k kinds ih => exact ih (isObject_apply h)

theorem field_setSome_ne {key other : String} {x : Option Value} {v : Value} (h : other ≠ key) :
    (setSome key x v).field other = v.field other := by
  cases x with
  | none => rfl
  | some x => exact Value.field_setField_ne h

/-- The fares of one kind in a value. -/
def fareOf (v : Value) (kind : String) : Value := (v.field "passengerFares").field kind

/-- A kind's change leaves the fares of the others alone. -/
theorem fareOf_apply_ne {v : Value} {k : KindFare} {kind : String} (hv : v.isObject)
    (hne : kind ≠ k.kind) : fareOf (k.apply v) kind = fareOf v kind := by
  rw [fareOf, KindFare.apply, Value.updateField, Value.field_setField_self hv, Value.updateField,
    Value.field_setField_ne hne, fareOf]

/-- The fares of the kind get its total and its discount. -/
theorem fareOf_apply_self {v : Value} {k : KindFare} (hv : v.isObject)
    (hfares : (v.field "passengerFares").isObject) : fareOf (k.apply v) k.kind =
      setSome "discountPrice" k.discount (setSome "totalPrice" k.total (fareOf v k.kind)) := by
  rw [fareOf, KindFare.apply, Value.updateField, Value.field_setField_self hv, Value.updateField,
    Value.field_setField_self hfares, fareOf]

theorem isObject_passengerFares {v : Value} {k : KindFare} (hv : v.isObject)
    (hfares : (v.field "passengerFares").isObject) :
    ((k.apply v).field "passengerFares").isObject := by
  rw [KindFare.apply, Value.updateField, Value.field_setField_self hv]
  exact Value.isObject_setField hfares

theorem fareOf_foldl_apply_ne {kinds : List KindFare} {v : Value} {kind : String}
    (hv : v.isObject) (hne : kind ∉ kinds.map KindFare.kind) :
    fareOf (kinds.foldl KindFare.apply v) kind = fareOf v kind := by
  induction kinds generalizing v with
  | nil => rfl
  | cons k kinds ih =>
    rw [List.map_cons, List.mem_cons, not_or] at hne
    rw [List.foldl_cons, ih (isObject_apply hv) hne.2, fareOf_apply_ne hv hne.1]

/-- Every kind is written once. -/
theorem fareOf_foldl_apply {kinds : List KindFare} {v : Value} {k : KindFare} (hv : v.isObject)
    (hfares : (v.field "passengerFares").isObject) (hnodup : (kinds.map KindFare.kind).Nodup)
    (hk : k ∈ kinds) : fareOf (kinds.foldl KindFare.apply v) k.kind =
      setSome "discountPrice" k.discount (setSome "totalPrice" k.total (fareOf v k.kind)) := by
  induction kinds generalizing v with
  | nil => cases hk
  | cons k' kinds ih =>
    rw [List.map_cons, List.nodup_cons] at hnodup
    rw [List.foldl_cons]
    rcases List.mem_cons.mp hk with rfl | hk
    · rw [fareOf_foldl_apply_ne (isObject_apply hv) hnodup.1, fareOf_apply_self hv hfares]
    · have hne : k.kind ≠ k'.kind := fun heq => hnodup.1 (heq ▸ List.mem_map_of_mem hk)
      rw [ih (isObject_apply hv) (isObject_passengerFares hv hfares) hnodup.2 hk, fareOf_apply_ne hv hne]

/-- So its total reads back from the projected value. -/
theorem totalPrice_foldl_apply {kinds : List KindFare} {v x : Value} {k : KindFare}
    (hv : v.isObject) (hnodup : (kinds.map KindFare.kind).Nodup) (hk : k ∈ kinds)
    (hfare : (fareOf v k.kind).isObject) (hx : k.total = some x) :
    (fareOf (kinds.foldl KindFare.apply v) k.kind).field "totalPrice" = x := by
  have hfares : (v.field "passengerFares").isObject := by
    cases hf : v.field "passengerFares" with
    | obj fields => rfl
    | _ =>
      rw [fareOf, hf] at hfare
      cases hfare
  rw [fareOf_foldl_apply hv hfares hnodup hk, field_setSome_ne (by decide), hx]
  exact Value.field_setField_self hfare

/-- The totals written by the changes are the ones a reader of the projected value finds. -/
theorem changes_apply_read {c : Changes} {x : Value} (hv : original.isObject)
    (hx : c.total = some x) :
    (c.apply original).field "totalPrice" = x ∧ ∀ kind,
      fareOf (c.apply original) kind = fareOf (c.passengers.foldl KindFare.apply original) kind := by
  constructor
  · rw [Changes.apply, Value.updateField, Value.field_setField_ne (by decide), hx]
    exact Value.field_setField_self (isObject_foldl_apply hv)
  · intro kind
    rw [Changes.apply, Value.updateField, fareOf, Value.field_setField_ne (by decide),
      field_setSome_ne (by decide), fareOf]

/-! ## The projected item -/

/-- The selling fare a request gets: a tier is quoted the published fare, the others the marked-up
one. -/
def projected (d : Decimals) (original : Value) (tier : Option Tier) (markup : Markup) :
    Except ProjectionError Value :=
  if tier.isSome then publishedGross d original else singleComponent d original markup

/-- The markup `projected` projects with. -/
def projectedMarkup (tier : Option Tier) (markup : Markup) : Option Markup :=
  if tier.isSome then none else some markup

theorem projected_ok (h : projected d original tier markup = .ok gross) :
    ∃ c changes, coverage original = .ok c ∧
      project d original c (projectedMarkup tier markup) = .ok changes ∧
      changes.apply original = gross := by
  unfold projected at h
  split at h
  · rename_i ht
    simp only [publishedGross, bind_eq_ok, pure_eq_ok] at h
    obtain ⟨c, hc, changes, hchanges, rfl⟩ := h
    exact ⟨c, changes, hc, by rwa [projectedMarkup, if_pos ht], rfl⟩
  · rename_i ht
    simp only [singleComponent, bind_eq_ok, pure_eq_ok] at h
    obtain ⟨c, hc, changes, hchanges, rfl⟩ := h
    exact ⟨c, changes, hc, by rwa [projectedMarkup, if_neg ht], rfl⟩

/-- What a quote reads from the projected item. -/
structure Readable (d : Decimals) (original gross : Value) : Prop where
  /-- A kind with passengers has a selling fare of two places. -/
  kind : ∀ counts, original.field "passengerCounts" = .obj counts →
    ∀ entry ∈ Value.entries counts, ∀ n, entry.2.asU64? = some n → n ≠ 0 →
      ∃ units, (fareOf gross entry.1).field "totalPrice" = .num (d.display ⟨units, 2⟩)
  /-- The total is one of minor units. -/
  total : ∃ (a : BigDecimal) (units : Int), a.scale ≤ 2 ∧ a.toRat = units / 100 ∧
    gross.field "totalPrice" = .num (d.display a)

/-- Every kind of a projection comes from an entry of the counts, each from one of its own. -/
theorem project_kinds {c : Coverage} {markup : Option Markup} {changes : Changes}
    (h : project d original c markup = .ok changes) :
    (changes.passengers.map KindFare.kind).Nodup ∧
      ∀ k ∈ changes.passengers, ∃ entry, Projected d (.obj c.fares) entry k := by
  obtain ⟨⟨found, hfound, hpassengers⟩, -, -⟩ := project_ok h
  rw [hpassengers]
  constructor
  · refine (Value.entries_nodup c.counts).sublist (reduceOption_sublist hfound ?_)
    intro entry k hentry
    rcases projectKind_ok hentry with ⟨hnone, -⟩ | ⟨k', hk', hprojected⟩
    · cases hnone
    · cases hk'
      exact hprojected.kind
  · intro k hk
    rw [List.reduceOption_mem_iff] at hk
    obtain ⟨entry, -, hentry⟩ := exists_input hfound hk
    rcases projectKind_ok hentry with ⟨hnone, -⟩ | ⟨k', hk', hprojected⟩
    · cases hnone
    · cases hk'
      exact ⟨entry, hprojected⟩

/-- A kind that a projection passes over has no fare. -/
theorem project_passed {c : Coverage} {markup : Option Markup} {changes : Changes} {kind : String}
    (hcoverage : coverage original = .ok c) (h : project d original c markup = .ok changes)
    (hkind : kind ∉ changes.passengers.map KindFare.kind) : fareOf original kind = .null := by
  obtain ⟨⟨found, hfound, hpassengers⟩, -, -⟩ := project_ok h
  rw [fareOf, (coverage_ok hcoverage).2]
  cases hfare : (Value.obj c.fares).get? kind with
  | none => rw [Value.field, hfare]; rfl
  | some fare =>
    -- coverage counts every fare, so an entry of the counts was projected for it
    obtain ⟨f, hf, rfl⟩ := Value.exists_entry (by rw [hfare]; rfl)
    obtain ⟨entry, hentry, hcounted⟩ := Value.exists_entry (coverage_counts hcoverage f (Value.mem_entries hf))
    obtain ⟨made, hmade, hstep⟩ := exists_output hfound hentry
    rw [← hcounted] at hkind ⊢
    cases made with
    | none => exact projectKind_none hstep
    | some k =>
      rcases projectKind_ok hstep with ⟨hnone, -⟩ | ⟨_, hsome, hprojected⟩
      · cases hnone
      · cases hsome
        refine absurd (List.mem_map.mpr ⟨k, ?_, hprojected.kind⟩) hkind
        rwa [hpassengers, List.reduceOption_mem_iff]

/-- The totals of a projection read back from the item it is written into. -/
theorem project_reads {c : Coverage} {markup : Option Markup} {changes : Changes}
    (hcoverage : coverage original = .ok c) (h : project d original c markup = .ok changes) :
    (∀ k ∈ changes.passengers,
      (fareOf (changes.apply original) k.kind).field "totalPrice" = .num (d.display k.selling.total)) ∧
    (changes.apply original).field "totalPrice" = .num (d.display
      (weightedRef (·.selling.total) (·.original.count) changes.passengers)) := by
  obtain ⟨-, hobject, htotal⟩ := project_ok h
  obtain ⟨-, hfares⟩ := coverage_ok hcoverage
  obtain ⟨htext, hread⟩ := changes_apply_read hobject htotal
  obtain ⟨hnodup, hkinds⟩ := project_kinds h
  refine ⟨fun k hk => ?_, htext⟩
  obtain ⟨entry, hprojected⟩ := hkinds k hk
  have hfare : (fareOf original k.kind).isObject := by
    rw [fareOf, hfares, hprojected.kind]
    exact hprojected.fare
  rw [hread, totalPrice_foldl_apply hobject hnodup hk hfare hprojected.total]

theorem projected_readable (h : projected d original tier markup = .ok gross) :
    Readable d original gross := by
  obtain ⟨c, changes, hcoverage, hproject, rfl⟩ := projected_ok h
  obtain ⟨⟨found, hfound, hpassengers⟩, -, -⟩ := project_ok hproject
  obtain ⟨hcounts, -⟩ := coverage_ok hcoverage
  obtain ⟨hread, htext⟩ := project_reads hcoverage hproject
  obtain ⟨-, hkinds⟩ := project_kinds hproject
  have hquoted : ∀ entry ∈ Value.entries c.counts, ∀ n, entry.2.asU64? = some n → n ≠ 0 →
      ∃ k ∈ changes.passengers, Projected d (.obj c.fares) entry k := by
    intro entry hentry n hn hne
    obtain ⟨k, hk, hproj⟩ := exists_output hfound hentry
    rcases projectKind_ok hproj with ⟨-, hzero⟩ | ⟨k', rfl, hprojected⟩
    · rw [hn] at hzero
      exact absurd (Option.some.inj hzero) hne
    · exact ⟨k', by rwa [hpassengers, List.reduceOption_mem_iff], hprojected⟩
  constructor
  · intro counts hcounts' entry hentry n hn hne
    rw [hcounts] at hcounts'
    cases hcounts'
    obtain ⟨k, hk, hprojected⟩ := hquoted entry hentry n hn hne
    exact ⟨k.selling.total.digits, by rw [← hprojected.kind, hread k hk, ← hprojected.minor]⟩
  · have hminor : ∀ k ∈ changes.passengers,
        k.selling.total = (⟨k.selling.total.digits, 2⟩ : BigDecimal) := by
      intro k hk
      obtain ⟨entry, hprojected⟩ := hkinds k hk
      exact hprojected.minor
    obtain ⟨hplaces, hvalue⟩ := weightedRef_minor (fun k : KindFare => k.original.count) hminor
    exact ⟨_, _, hplaces, hvalue, htext⟩

/-! ## Quotes -/

theorem tierMoney_ok {v : Value} {n : BigDecimal} (h : tierMoney v = .ok n) :
    ∃ lexeme, v = .num lexeme ∧ BigDecimal.parse lexeme = some n := by
  rw [tierMoney, fetch_eq_ok] at h
  split at h
  · rename_i hv
    cases v with
    | num lexeme => exact ⟨lexeme, rfl, h⟩
    | _ => cases hv
  · cases h

/-- A displayed number of two places is read back. -/
theorem tierMoney_minor (hd : d.Plain) {units : Int} {n : BigDecimal}
    (h : tierMoney (.num (d.display ⟨units, 2⟩)) = .ok n) : IsMinor n units := by
  obtain ⟨lexeme, hlexeme, hn⟩ := tierMoney_ok h
  obtain ⟨x, hx, hminor⟩ := hd.display units
  rw [Value.num.injEq] at hlexeme
  rw [← hlexeme, hx, Option.some.injEq] at hn
  rwa [← hn]

/-- The quote of a kind: minor units throughout, and nothing to pay below zero. -/
structure Quoted (q : KindQuote) : Prop where
  countPos : 0 < q.count
  countLt : q.count < 2 ^ 64
  gross : IsMinor q.gross q.gross.minor
  commission : IsMinor q.commission q.commission.minor
  payable : IsMinor q.payable (q.gross.minor - q.commission.minor)
  grossNonneg : 0 ≤ q.gross.minor
  payableNonneg : 0 ≤ q.gross.minor - q.commission.minor

theorem quoteKind_kind {entry : String × Value} {q : KindQuote}
    (h : quoteKind d original gross tier share markup entry = .ok (some q)) : q.kind = entry.1 := by
  simp only [quoteKind, bind_eq_ok] at h
  obtain ⟨count, -, h⟩ := h
  split at h
  · cases h
  · simp only [bind_eq_ok, pure_eq_ok, Option.some.injEq] at h
    obtain ⟨_, -, _, -, _, -, _, -, _, -, rfl⟩ := h
    rfl

theorem quoteKind_ok (hd : d.Plain) (hread : Readable d original gross)
    {counts : List (String × Value)} (hcounts : original.field "passengerCounts" = .obj counts)
    {entry : String × Value} (hentry : entry ∈ Value.entries counts) {q : KindQuote}
    (h : quoteKind d original gross tier share markup entry = .ok (some q)) :
    Quoted q ∧ entry.2.asU64? = some q.count := by
  simp only [quoteKind, bind_eq_ok, fetch_eq_ok] at h
  obtain ⟨count, hcount, h⟩ := h
  split at h
  · cases h
  · rename_i hne
    simp only [bind_eq_ok, ensure_eq_ok, exists_const, pure_eq_ok, Option.some.injEq] at h
    obtain ⟨supplier, -, total, htotal, discount, -, hsign, hpayable, rfl⟩ := h
    obtain ⟨units, hunits⟩ := hread.kind counts hcounts entry hentry count hcount hne
    rw [fareOf] at hunits
    rw [hunits] at htotal
    have hgross := (tierMoney_minor hd htotal).self
    have hcommission := (IsMinor.rounded (d.quotient (discount.mul (ofInt share)) (ofInt 100))).self
    have hdue := hgross.sub hcommission
    rw [hdue.isNegative, Int.not_lt] at hpayable
    rw [hgross.isNegative, not_or, Int.not_lt] at hsign
    exact ⟨⟨Nat.pos_of_ne_zero hne, Value.asU64?_lt hcount, hgross, hcommission, hdue, hsign.2, hpayable⟩, hcount⟩

/-- The quotes of a snapshot, and the totals it writes. -/
structure Snapshot (d : Decimals) (quote gross : Value) (currency : String)
    (quotes : List KindQuote) : Prop where
  nodup : (quotes.map KindQuote.kind).Nodup
  quoted : ∀ q ∈ quotes, Quoted q
  /-- The total of the item is one of minor units. -/
  total : ∃ (a : BigDecimal) (units : Int), a.scale ≤ 2 ∧ a.toRat = units / 100 ∧
    gross.field "totalPrice" = .num (d.display a)
  /-- It is the sum of the quotes. -/
  claimed : ∃ claimed, tierMoney (gross.field "totalPrice") = .ok claimed ∧
    (weighted KindQuote.gross KindQuote.count quotes).cmp claimed = .eq
  currencyText : quote.field "currency" = .str currency
  grossText : quote.field "gross" =
    .str (d.fixed (weighted KindQuote.gross KindQuote.count quotes))
  commissionText : quote.field "commission" =
    .str (d.fixed (weighted KindQuote.commission KindQuote.count quotes))
  payableText : quote.field "payable" =
    .str (d.fixed ((weighted KindQuote.gross KindQuote.count quotes).sub
      (weighted KindQuote.commission KindQuote.count quotes)))
  passengers : quote.field "passengers" = .object (quotes.map (KindQuote.toField d))

/-- The display of a quote is added beside what it quotes. -/
theorem field_enrich {pricing fare : Value} {key : String} (h : key ≠ "fareBreakdown") :
    (enrich d pricing fare).field key = pricing.field key := by
  unfold enrich
  split
  · exact Value.field_setField_ne h
  · rfl

theorem snapshot_ok {quote : Value} (hd : d.Plain) (hread : Readable d original gross)
    (h : snapshot d original gross tier share currency markup = .ok quote) :
    ∃ quotes, Snapshot d quote gross currency quotes := by
  simp only [snapshot, bind_eq_ok, ensure_eq_ok, fetch_eq_ok, exists_const, pure_eq_ok,
    Value.asObject?_eq_some] at h
  obtain ⟨-, -, counts, hcounts, found, hfound, claimed, hclaimed, heq, rfl⟩ := h
  have hquotes : ∀ q ∈ found.reduceOption, ∃ entry ∈ Value.entries counts,
      Quoted q ∧ entry.2.asU64? = some q.count := by
    intro q hq
    rw [List.reduceOption_mem_iff] at hq
    obtain ⟨entry, hentry, hquote⟩ := exists_input hfound hq
    exact ⟨entry, hentry, quoteKind_ok hd hread hcounts hentry hquote⟩
  refine ⟨found.reduceOption, ?_⟩
  constructor
  case nodup =>
    exact (Value.entries_nodup counts).sublist
      (reduceOption_sublist hfound fun _ _ hquote => quoteKind_kind hquote)
  case quoted =>
    intro q hq
    obtain ⟨-, -, hquoted, -⟩ := hquotes q hq
    exact hquoted
  case total => exact hread.total
  case claimed => exact ⟨claimed, hclaimed, heq⟩
  all_goals
    rw [field_enrich (by decide), Value.field, Value.get?_object]
    simp

/-! ## What the wallet charges -/

theorem twoPlaces_neg {n : Int} (h : n < 0) :
    (twoPlaces n).toList = '-' :: (twoPlaces (-n)).toList := by
  have hneg : ¬ -n < 0 := by omega
  rw [toList_twoPlaces, toList_twoPlaces, if_pos h, if_neg hneg, Int.natAbs_neg]
  rfl

theorem twoPlaces_nonneg {n : Int} (h : 0 ≤ n) (rest : List Char) :
    (twoPlaces n).toList ≠ '-' :: rest := by
  rw [toList_twoPlaces, if_neg (Int.not_lt.mpr h), List.nil_append]
  intro heq
  cases hdigits : Nat.toDigits 10 (n.natAbs / 100) with
  | nil => exact Nat.toDigits_ne_nil hdigits
  | cons c ds =>
    rw [hdigits, List.cons_append] at heq
    have hc : isAsciiDigit c := isAsciiDigit_toDigits (hdigits ▸ List.mem_cons_self)
    exact (digit_ne hc).2.1 (List.cons.inj heq).1

/-- The wallet takes a quote whose texts have two places and add up, for an item whose total it can read. -/
theorem acceptedPayable_minor {quote selling : Value} {text : String} {p c g : Int} {paid : Wallet.Currency}
    (hprice : (selling.field "item1").field "totalPrice" = .num text)
    (hread : Wallet.majorToMinor text = .ok g)
    (hcurrency : quote.field "currency" = .str paid.text)
    (hpayable : quote.field "payable" = .str (twoPlaces p))
    (hcommission : quote.field "commission" = .str (twoPlaces c))
    (hgross : quote.field "gross" = .str (twoPlaces g))
    (hp : 0 < p) (hpmax : p ≤ bigintMax) (hg : 0 ≤ g) (hgmax : g ≤ bigintMax) (hsum : p + c = g) :
    Wallet.Ticket.acceptedPayable (some quote) selling paid.text = .ok p := by
  have hparse : Wallet.majorToMinor (twoPlaces p) = .ok p :=
    Wallet.majorToMinor_twoPlaces (Int.le_of_lt hp) hpmax
  have hparse' : Wallet.majorToMinor (twoPlaces g) = .ok g := Wallet.majorToMinor_twoPlaces hg hgmax
  have htotal : i64? g = some g := by
    rw [i64?_eq_some]
    unfold bigintMax at hgmax ⊢
    omega
  have hsame : ∀ s : String, (Value.str s).asStr? = some s := fun _ => rfl
  have htext : ((Value.num text).asStr?.getD (Value.num text).text) = text := rfl
  have hcurrency' : Wallet.currency paid.text = .ok paid := Wallet.currency_eq_ok.mpr rfl
  simp only [Wallet.Ticket.acceptedPayable, ok_bind, fetch_some, hprice, hcurrency, hpayable,
    hcommission, hgross, hsame, htext, hparse, hparse', hread, hcurrency']
  -- A negative commission is read without its sign, one that is not as it stands.
  rcases Int.lt_or_le c 0 with hc | hc
  · have hminor : Wallet.majorToMinor (twoPlaces (-c)) = .ok (-c) :=
      Wallet.majorToMinor_twoPlaces (by omega) (by omega)
    have hrange : i64? (- -c) = some c := by
      rw [Int.neg_neg, i64?_eq_some]
      unfold bigintMax at hpmax ⊢
      omega
    simp only [twoPlaces_neg hc, String.ofList_toList, hminor, ok_bind, hrange, fetch_some, hsum,
      htotal, ensure, hp, and_self, if_true]
    rfl
  · have hminor : Wallet.majorToMinor (twoPlaces c) = .ok c :=
      Wallet.majorToMinor_twoPlaces hc (by omega)
    split
    · rename_i rest hrest
      exact absurd hrest (twoPlaces_nonneg hc rest)
    · simp only [hminor, ok_bind, hsum, htotal, ensure, hp, and_self, if_true]
      rfl

/-! ## The sum over the kinds -/

/-- Count times payable of a passenger kind of a quote, in minor units. -/
def kindPayable (entry : String × Value) : Except ApiError Int := do
  let count ← fetch (entry.2.field "count").asU64? invalidTier
  let payable ← fetch (entry.2.field "payable").asStr? invalidTier
  let minor ← Wallet.majorToMinor payable
  return minor * count

/-- The sum of them over the passenger kinds. -/
def kindsPayable (quote : Value) : Except ApiError Int := do
  let passengers ← fetch (quote.field "passengers").asObject? invalidTier
  let payables ← passengers.mapM kindPayable
  return payables.sum

/-- What a kind pays, in minor units. -/
def KindQuote.units (q : KindQuote) : Int := (q.gross.minor - q.commission.minor) * q.count

theorem sum_units (quotes : List KindQuote) :
    (quotes.map fun q => q.gross.minor * (q.count : Int)).sum -
      (quotes.map fun q => q.commission.minor * (q.count : Int)).sum = (quotes.map KindQuote.units).sum := by
  induction quotes with
  | nil => rfl
  | cons q quotes ih =>
    simp only [List.map_cons, List.sum_cons]
    rw [← ih, KindQuote.units, Int.sub_mul]
    omega

theorem units_nonneg {q : KindQuote} (h : Quoted q) : 0 ≤ q.units :=
  Int.mul_nonneg h.payableNonneg (Int.natCast_nonneg _)

theorem kindPayable_toField (hd : d.Plain) {q : KindQuote} (h : Quoted q)
    (hmax : q.units ≤ bigintMax) : kindPayable (q.toField d) = .ok q.units := by
  have hcount : ((q.toField d).2.field "count").asU64? = some q.count := by
    rw [KindQuote.toField, Value.field, Value.get?_object]
    simpa using Value.asU64?_ofInt h.countLt
  have hpayable : ((q.toField d).2.field "payable").asStr? =
      some (twoPlaces (q.gross.minor - q.commission.minor)) := by
    rw [KindQuote.toField, Value.field, Value.get?_object, hd.fixed _ _ h.payable]
    simp
  have hone : (1 : Int) ≤ q.count := Int.natCast_pos.mpr h.countPos
  have hle : q.gross.minor - q.commission.minor ≤ q.units := by
    rw [KindQuote.units]
    exact le_mul_of_one_le_right h.payableNonneg hone
  have hminor : Wallet.majorToMinor (twoPlaces (q.gross.minor - q.commission.minor)) =
      .ok (q.gross.minor - q.commission.minor) :=
    Wallet.majorToMinor_twoPlaces h.payableNonneg (Int.le_trans hle hmax)
  simp only [kindPayable, hcount, hpayable, fetch_some, ok_bind, hminor]
  rfl

/-- The kinds of a quote that can be paid add up to what its kinds pay. -/
theorem kindsPayable_quotes {quote : Value} {quotes : List KindQuote} (hd : d.Plain)
    (hs : Snapshot d quote gross currency quotes)
    (hmax : (quotes.map KindQuote.units).sum ≤ bigintMax) :
    kindsPayable quote = .ok (quotes.map KindQuote.units).sum := by
  have hkeys : ((quotes.map (KindQuote.toField d)).map Prod.fst).Nodup := by
    rw [List.map_map]
    exact hs.nodup
  obtain ⟨sorted, hsorted, hperm⟩ := Value.object_perm hkeys
  have heach : ∀ q ∈ quotes, kindPayable (q.toField d) = .ok q.units := by
    intro q hq
    apply kindPayable_toField hd (hs.quoted q hq)
    refine Int.le_trans (List.single_le_sum ?_ _ (List.mem_map_of_mem hq)) hmax
    intro n hn
    obtain ⟨q', hq', rfl⟩ := List.mem_map.mp hn
    exact units_nonneg (hs.quoted q' hq')
  have hforall : List.Forall₂ (fun entry n => kindPayable entry = .ok n)
      (quotes.map (KindQuote.toField d)) (quotes.map KindQuote.units) := by
    rw [List.forall₂_map_left_iff, List.forall₂_map_right_iff, List.forall₂_same]
    exact heach
  obtain ⟨payables, hpayables, hsum⟩ := List.perm_comp_forall₂ hperm hforall
  rw [← mapM_eq_ok] at hpayables
  simp only [kindsPayable, hs.passengers, hsorted, Value.asObject?, fetch_some, ok_bind, hpayables]
  show Except.ok _ = _
  rw [hsum.sum_eq]

/-! ## The round trip -/

theorem displayAmount_str (n : Int) : displayAmount (.str (twoPlaces n)) = some ⟨n, 2⟩ :=
  parse_twoPlaces n

/-- The totals of a snapshot, and the sums over its kinds. -/
theorem snapshot_texts {quote : Value} {quotes : List KindQuote} (hd : d.Plain)
    (hs : Snapshot d quote gross currency quotes) :
    ∃ (g c : Int) (a : BigDecimal), quote.field "gross" = .str (twoPlaces g) ∧
      quote.field "commission" = .str (twoPlaces c) ∧
      quote.field "payable" = .str (twoPlaces (g - c)) ∧
      gross.field "totalPrice" = .num (d.display a) ∧ a.scale ≤ 2 ∧ a.toRat = g / 100 ∧ 0 ≤ g ∧
      g - c = (quotes.map KindQuote.units).sum := by
  have hgross : IsMinor (weighted KindQuote.gross KindQuote.count quotes)
      (quotes.map fun q => q.gross.minor * (q.count : Int)).sum :=
    weighted_isMinor (List.forall₂_same.mpr fun q hq => ⟨rfl, (hs.quoted q hq).gross⟩)
  have hcommission : IsMinor (weighted KindQuote.commission KindQuote.count quotes)
      (quotes.map fun q => q.commission.minor * (q.count : Int)).sum :=
    weighted_isMinor (List.forall₂_same.mpr fun q hq => ⟨rfl, (hs.quoted q hq).commission⟩)
  obtain ⟨a, units, hplaces, hvalue, htotal⟩ := hs.total
  obtain ⟨claimed, hclaimed, heq⟩ := hs.claimed
  have hunits : a.toRat = ((quotes.map fun q => q.gross.minor * (q.count : Int)).sum : Int) / 100 := by
    obtain ⟨x, hx, hread⟩ := hd.reads a units hplaces hvalue
    rw [htotal] at hclaimed
    obtain ⟨lexeme, hlexeme, hparse⟩ := tierMoney_ok hclaimed
    rw [Value.num.injEq] at hlexeme
    rw [← hlexeme, hx, Option.some.injEq] at hparse
    rw [cmp_eq_eq, ← hparse, hread, hgross.value] at heq
    rw [hvalue, heq]
  refine ⟨_, _, a, ?_, ?_, ?_, htotal, hplaces, hunits, ?_, sum_units quotes⟩
  · rw [hs.grossText, hd.fixed _ _ hgross]
  · rw [hs.commissionText, hd.fixed _ _ hcommission]
  · rw [hs.payableText, hd.fixed _ _ (hgross.sub hcommission)]
  · apply List.sum_nonneg
    intro n hn
    obtain ⟨q, hq, rfl⟩ := List.mem_map.mp hn
    exact Int.mul_nonneg (hs.quoted q hq).grossNonneg (Int.natCast_nonneg _)

/-- One adult with a supplier's fare and a published base. -/
def sampleFare (supplier base : Nat) : Value :=
  let fare := [("totalPrice", Value.ofInt supplier), ("basePrice", .ofInt base),
    ("taxes", .ofInt 0), ("ait", .ofInt 0)]
  .object [("totalPrice", .ofInt supplier), ("bookingComponents", .arr [.object fare]),
    ("passengerCounts", .object [("adt", .ofInt 1)]),
    ("passengerFares", .object [("adt", .object fare)])]

/-- The fare's item and quote at a tier's share of the discount, without a markup. -/
def sampleQuote (supplier base : Nat) (share : Int) : Except ApiError (Value × Value) := do
  let fare := sampleFare supplier base
  let gross ← (projected sampleDecimals fare (some .basic) (.fixed (ofInt 0))).mapError
    fun _ => invalidTier
  let quote ← snapshot sampleDecimals fare gross (some .basic) share "BDT" (.fixed (ofInt 0))
  return (gross, quote)

theorem sampleQuote_ok {supplier base : Nat} {quote : Value}
    (h : sampleQuote supplier base share = .ok (gross, quote)) :
    projected sampleDecimals (sampleFare supplier base) (some .basic) (.fixed (ofInt 0)) =
        .ok gross ∧
      snapshot sampleDecimals (sampleFare supplier base) gross (some .basic) share "BDT"
        (.fixed (ofInt 0)) = .ok quote := by
  simp only [sampleQuote, bind_eq_ok, mapError_eq_ok, pure_eq_ok, Prod.mk.injEq] at h
  obtain ⟨_, hgross, _, hquote, rfl, rfl⟩ := h
  exact ⟨hgross, hquote⟩

/-- What a snapshot quotes is what the wallet charges, whatever the sign of its commission, for an item whose
total is written without an exponent. -/
theorem snapshot_charged {quote : Value} {payable published : BigDecimal} (hd : d.Plain) (hwrites : d.WritesOut)
    (hgross : projected d original tier markup = .ok gross)
    (hquote : snapshot d original gross tier share currency markup = .ok quote)
    (hcurrency : currency = "BDT" ∨ currency = "USD")
    (hpayable : displayAmount (quote.field "payable") = some payable)
    (hpos : 0 < payable.toRat) (hfits : 100 * payable.toRat ≤ bigintMax)
    (hpublished : displayAmount (quote.field "gross") = some published)
    (hpublishedFits : 100 * published.toRat ≤ bigintMax)
    (hplain : 'e' ∉ (gross.field "totalPrice").text.toList) :
    ∃ minor : Int,
      Wallet.Ticket.acceptedPayable (some quote) (.object [("item1", gross)]) currency = .ok minor ∧
      (minor : ℚ) = 100 * payable.toRat ∧ kindsPayable quote = .ok minor := by
  obtain ⟨quotes, hs⟩ := snapshot_ok hd (projected_readable hgross) hquote
  obtain ⟨g, c, a, hgrossText, hcommission, hpayableText, hprice, hplaces, hvalue, hg, hsum⟩ := snapshot_texts hd hs
  rw [hpayableText, displayAmount_str, Option.some.injEq] at hpayable
  rw [hgrossText, displayAmount_str, Option.some.injEq] at hpublished
  have hminor : 100 * payable.toRat = ((g - c : Int) : ℚ) := by
    rw [← hpayable, hundred_toRat]
  have hminor' : 100 * published.toRat = ((g : Int) : ℚ) := by
    rw [← hpublished, hundred_toRat]
  have hp : 0 < g - c := by
    have hscaled : (0 : ℚ) < ((g - c : Int) : ℚ) := by
      rw [← hminor]
      positivity
    exact_mod_cast hscaled
  have hpmax : g - c ≤ bigintMax := by
    rw [hminor] at hfits
    exact_mod_cast hfits
  have hgmax : g ≤ bigintMax := by
    rw [hminor'] at hpublishedFits
    exact_mod_cast hpublishedFits
  have hpaid : ∃ paid : Wallet.Currency, currency = paid.text := by
    rcases hcurrency with rfl | rfl
    · exact ⟨.bdt, rfl⟩
    · exact ⟨.usd, rfl⟩
  obtain ⟨paid, rfl⟩ := hpaid
  -- the wallet reads the text of the item and the snapshot read its amount: they meet in what is written out
  have hread : Wallet.majorToMinor (d.display a) = .ok g := by
    obtain ⟨n, rfl⟩ := Int.eq_ofNat_of_zero_le hg
    rw [hprice] at hplain
    obtain ⟨k, m, hk, hm, htext⟩ := hwrites a n hplaces hvalue hplain
    rw [htext, Wallet.majorToMinor_amount (by rw [String.toList_ofList]; exact Wallet.amount_decimalText hk m), hm,
      fetch_eq_ok, i64?_eq_some]
    refine ⟨⟨?_, hgmax⟩, rfl⟩
    unfold bigintMax at hgmax ⊢
    omega
  have hitem : ((Value.object [("item1", gross)]).field "item1").field "totalPrice" = .num (d.display a) := by
    rw [← hprice]
    rfl
  refine ⟨g - c, ?_, hminor.symm, ?_⟩
  · exact acceptedPayable_minor hitem hread hs.currencyText hpayableText hcommission hgrossText hp hpmax
      hg hgmax (by omega)
  · rw [hsum] at hpmax ⊢
    exact kindsPayable_quotes hd hs hpmax

/-- Half of a fare's deficit against its published base is charged on top of it. -/
theorem snapshot_charged_negative : ∃ gross quote minor,
    sampleQuote 150 100 50 = .ok (gross, quote) ∧ quote.field "commission" = .str "-25.00" ∧
    Wallet.Ticket.acceptedPayable (some quote) (.object [("item1", gross)]) "BDT" = .ok minor ∧
    (minor : ℚ) = 100 * toRat ⟨12500, 2⟩ ∧ kindsPayable quote = .ok minor := by
  have hsample : (sampleQuote 150 100 50).map (fun x => (x.1.field "totalPrice", x.2.field "commission",
      displayAmount (x.2.field "payable"), displayAmount (x.2.field "gross"))) =
      .ok (.num "100", .str "-25.00", some ⟨12500, 2⟩, some ⟨10000, 2⟩) := by
    decide +kernel
  obtain ⟨⟨gross, quote⟩, hquote, htexts⟩ := map_eq_ok.mp hsample
  simp only [Prod.mk.injEq] at htexts
  obtain ⟨htotal, hcommission, hpayable, hpublished⟩ := htexts
  obtain ⟨hprojected, hsnapshot⟩ := sampleQuote_ok hquote
  obtain ⟨minor, hminor⟩ := snapshot_charged sampleDecimals_plain sampleDecimals_writesOut hprojected hsnapshot
    (.inl rfl) hpayable (by rw [toRat_minor]; norm_num) (by rw [hundred_toRat]; decide)
    hpublished (by rw [hundred_toRat]; decide) (by rw [htotal]; decide)
  exact ⟨gross, quote, minor, hquote, hcommission, hminor⟩

/-- A payable in range may be what is left of a gross that is not.  A gross in range may be written with an
exponent.  Nothing is charged then. -/
theorem snapshot_charged_unbounded :
    (∃ gross quote payable,
      projected sampleDecimals (sampleFare 100 (10 ^ 17)) (some .basic) (.fixed (ofInt 0)) = .ok gross ∧
      snapshot sampleDecimals (sampleFare 100 (10 ^ 17)) gross (some .basic) 100 "BDT" (.fixed (ofInt 0)) =
        .ok quote ∧
      displayAmount (quote.field "payable") = some payable ∧ 0 < payable.toRat ∧
      100 * payable.toRat ≤ bigintMax ∧
      Wallet.Ticket.acceptedPayable (some quote) (.object [("item1", gross)]) "BDT" =
        .error (Wallet.invalid "INVALID_WALLET_AMOUNT")) ∧
    ∃ gross quote payable,
      projected sampleDecimals (sampleFare (10 ^ 16) (10 ^ 16)) (some .basic) (.fixed (ofInt 0)) = .ok gross ∧
      snapshot sampleDecimals (sampleFare (10 ^ 16) (10 ^ 16)) gross (some .basic) 0 "BDT" (.fixed (ofInt 0)) =
        .ok quote ∧
      gross.field "totalPrice" = .num "1e+16" ∧ quote.field "gross" = .str "10000000000000000.00" ∧
      displayAmount (quote.field "payable") = some payable ∧ 0 < payable.toRat ∧
      100 * payable.toRat ≤ bigintMax ∧
      Wallet.Ticket.acceptedPayable (some quote) (.object [("item1", gross)]) "BDT" =
        .error (Wallet.invalid "INVALID_WALLET_AMOUNT") := by
  constructor
  · have hsample : (sampleQuote 100 (10 ^ 17) 100).map (fun x => (displayAmount (x.2.field "payable"),
        Wallet.Ticket.acceptedPayable (some x.2) (.object [("item1", x.1)]) "BDT")) =
        .ok (some ⟨10000, 2⟩, .error (Wallet.invalid "INVALID_WALLET_AMOUNT")) := by
      decide +kernel
    obtain ⟨⟨gross, quote⟩, hquote, htexts⟩ := map_eq_ok.mp hsample
    simp only [Prod.mk.injEq] at htexts
    obtain ⟨hpayable, haccepted⟩ := htexts
    obtain ⟨hprojected, hsnapshot⟩ := sampleQuote_ok hquote
    exact ⟨gross, quote, _, hprojected, hsnapshot, hpayable, by rw [toRat_minor]; norm_num,
      by rw [hundred_toRat]; decide, haccepted⟩
  · have hsample : (sampleQuote (10 ^ 16) (10 ^ 16) 0).map (fun x => (x.1.field "totalPrice", x.2.field "gross",
        displayAmount (x.2.field "payable"),
        Wallet.Ticket.acceptedPayable (some x.2) (.object [("item1", x.1)]) "BDT")) =
        .ok (.num "1e+16", .str "10000000000000000.00", some ⟨10 ^ 18, 2⟩,
          .error (Wallet.invalid "INVALID_WALLET_AMOUNT")) := by
      decide +kernel
    obtain ⟨⟨gross, quote⟩, hquote, htexts⟩ := map_eq_ok.mp hsample
    simp only [Prod.mk.injEq] at htexts
    obtain ⟨htotal, hgross, hpayable, haccepted⟩ := htexts
    obtain ⟨hprojected, hsnapshot⟩ := sampleQuote_ok hquote
    exact ⟨gross, quote, _, hprojected, hsnapshot, htotal, hgross, hpayable, by rw [toRat_minor]; norm_num,
      by rw [hundred_toRat]; decide, haccepted⟩

end ShaponTravels.Pricing
