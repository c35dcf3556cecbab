import ShaponTravels.Pricing.Shares
import ShaponTravels.Wallet.Entitlements

/-!
# Staff — the published fare in a staff quote

`tier::staff_pricing` rewrites the quote of a request without a tier: the published fare from the
supplier's parts, and the supplier's own.  The projection of the published fare computes the same totals.
-/

namespace ShaponTravels.Pricing

open Library BigDecimal
open Wallet.TicketManagement (asI64?)

variable {d : Decimals} {original published selling pricing : Value} {currency : String} {markup : Markup}

/-! ## The quote of the staff -/

/-- A row of the quote with its new amounts. -/
structure StaffRow where
  field : String × Value
  count : Nat
  supplier : BigDecimal
  gross : BigDecimal

/-- The amounts a row is given. -/
def staffFields (d : Decimals) (supplier gross : BigDecimal) (row : Value) : Value :=
  (((row.setField "supplier" (.str (d.fixed supplier))).setField "gross" (.str (d.fixed gross))).setField
    "commission" (.str "0.00")).setField "payable" (.str (d.fixed gross))

/-- The body of the loop of `staff_pricing`. -/
def staffRow (d : Decimals) (original : Value) (entry : String × Value) : Except ApiError StaffRow := do
  let count ← fetch (entry.2.field "count").asU64? invalidTier
  ensure (((original.field "passengerCounts").field entry.1).asU64? = some count) invalidTier
  let fare := (original.field "passengerFares").field entry.1
  let total ← tierMoney (fare.field "totalPrice")
  let supplier := total.withScaleRound 2
  let base ← tierMoney (fare.field "basePrice")
  let taxes ← tierMoney (fare.field "taxes")
  ensure (¬ (base.isNegative ∨ taxes.isNegative ∨ supplier.isNegative)) invalidTier
  let gross := (base.withScaleRound 2).add (taxes.withScaleRound 2)
  return ⟨(entry.1, staffFields d supplier gross entry.2), count, supplier, gross⟩

/-- `staff_pricing`. -/
def staffPricing (d : Decimals) (original pricing : Value) : Except ApiError Value := do
  ensure ((pricing.field "tier").isNull ∧ asI64? (pricing.field "commissionSharePercent") = some 0)
    invalidTier
  let passengers ← fetch (pricing.field "passengers").asObject? invalidTier
  let rows ← (Value.entries passengers).mapM (staffRow d original)
  return staffFields d (weighted StaffRow.supplier StaffRow.count rows)
    (weighted StaffRow.gross StaffRow.count rows)
    (pricing.setField "passengers" (.obj (rows.map StaffRow.field)))

/-! ## The published fare of a kind -/

/-- A passenger kind with the supplier's fare and the published one, in minor units. -/
structure StaffFare where
  kind : String
  count : Nat
  supplier : Int
  gross : Int

/-- The fares of a kind that the projection published. -/
structure StaffFare.Agrees (original published : Value) (f : StaffFare) : Prop where
  counted : 0 < f.count
  count : ((original.field "passengerCounts").field f.kind).asU64? = some f.count
  supplier : ∃ total, tierMoney ((fareOf original f.kind).field "totalPrice") = .ok total ∧
    total.withScaleRound 2 = ⟨f.supplier, 2⟩
  gross : ∃ total, tierMoney ((fareOf published f.kind).field "totalPrice") = .ok total ∧
    total.toRat = toRat ⟨f.gross, 2⟩

/-- What the loop of `staff_pricing` reads of a kind. -/
structure StaffFare.Parts (original : Value) (f : StaffFare) : Prop where
  count : ((original.field "passengerCounts").field f.kind).asU64? = some f.count
  supplier : ∃ total, tierMoney ((fareOf original f.kind).field "totalPrice") = .ok total ∧
    total.withScaleRound 2 = ⟨f.supplier, 2⟩ ∧ 0 ≤ f.supplier
  gross : ∃ base taxes, tierMoney ((fareOf original f.kind).field "basePrice") = .ok base ∧
    tierMoney ((fareOf original f.kind).field "taxes") = .ok taxes ∧
    ¬ base.isNegative ∧ ¬ taxes.isNegative ∧
    (base.withScaleRound 2).add (taxes.withScaleRound 2) = ⟨f.gross, 2⟩

theorem tierMoney_number {v : Value} {key : String} {n : BigDecimal} (h : number v key = .ok n) :
    tierMoney (v.field key) = .ok n := by
  rw [number, fetch_eq_ok, Option.bind_eq_some_iff] at h
  obtain ⟨x, hx, hn⟩ := h
  rw [Option.filter_eq_some_iff] at hx
  rw [Value.field_of_get? hx.1, tierMoney, if_pos hx.2, hn]
  rfl

theorem tierMoney_display {text : String} {x : BigDecimal} (h : BigDecimal.parse text = some x) :
    tierMoney (.num text) = .ok x := by
  show fetch (BigDecimal.parse text) invalidTier = _
  rw [h]
  rfl

theorem withScaleRound_nonneg {a : BigDecimal} (h : ¬ a.isNegative) : 0 ≤ (a.withScaleRound 2).digits := by
  rw [isNegative_iff, not_lt] at h
  rw [withScaleRound_digits]
  exact halfAway_nonneg (mul_nonneg h (by positivity))

/-- The staff's view of a projected kind. -/
def KindFare.staff (k : KindFare) : StaffFare where
  kind := k.kind
  count := k.original.count
  supplier := (k.original.supplierTotal.withScaleRound 2).digits
  gross := k.selling.total.digits

/-- A published kind has the parts that the staff's quote is made of. -/
theorem projectKind_parts {c : Coverage} (hcounts : original.field "passengerCounts" = .obj c.counts)
    (hfares : original.field "passengerFares" = .obj c.fares) {entry : String × Value}
    (hentry : entry ∈ Value.entries c.counts) {k : KindFare}
    (h : projectKind d (.obj c.fares) none entry = .ok (some k)) : k.staff.Parts original := by
  have hkind : (Value.obj c.counts).field entry.1 = entry.2 :=
    Value.field_of_get? (Value.get?_of_mem_entries hentry)
  simp only [projectKind, bind_eq_ok, fetch_eq_ok, Option.filter_eq_some_iff] at h
  obtain ⟨count, ⟨hcount, -⟩, h⟩ := h
  split at h
  · cases h
  · simp only [bind_eq_ok, pure_eq_ok, sellingFare, ensure_eq_ok, exists_const, not_or,
      Option.some.injEq] at h
    obtain ⟨total, htotal, base, hbase, taxes, htaxes, ait, -, _, -, sold, ⟨hsign, rfl⟩, _, -, _, -, rfl⟩ := h
    constructor
    case count => rw [KindFare.staff, hcounts, hkind, hcount]
    case supplier =>
      refine ⟨total, ?_, withScaleRound_scale _ 2, withScaleRound_nonneg hsign.2.2⟩
      rw [fareOf, hfares]
      exact tierMoney_number htotal
    case gross =>
      refine ⟨base, taxes, ?_, ?_, hsign.1, hsign.2.1, ?_⟩
      · rw [fareOf, hfares]
        exact tierMoney_number hbase
      · rw [fareOf, hfares]
        exact tierMoney_number htaxes
      · rw [KindFare.staff, withScaleRound_scale base, withScaleRound_scale taxes, add_minor, withScale_self]

/-- The row of a kind has its fares. -/
theorem staffRow_parts {f : StaffFare} (h : f.Parts original) {entry : String × Value}
    (hkind : entry.1 = f.kind) (hcount : (entry.2.field "count").asU64? = some f.count) :
    staffRow d original entry = .ok ⟨(entry.1, staffFields d ⟨f.supplier, 2⟩ ⟨f.gross, 2⟩ entry.2),
      f.count, ⟨f.supplier, 2⟩, ⟨f.gross, 2⟩⟩ := by
  obtain ⟨total, htotal, hsupplier, hnonneg⟩ := h.supplier
  obtain ⟨base, taxes, hbase, htaxes, hbaseSign, htaxesSign, hgross⟩ := h.gross
  rw [fareOf] at htotal hbase htaxes
  have hsign : ¬ isNegative ⟨f.supplier, 2⟩ := by
    rw [(IsMinor.two f.supplier).isNegative]
    omega
  simp only [staffRow, hcount, hkind, h.count, htotal, hbase, htaxes, hsupplier, hgross, fetch_some, ok_bind]
  rw [ensure_of trivial, ensure_of (by simp [hbaseSign, htaxesSign, hsign])]
  rfl

/-! ## From the quote to its kinds -/

/-- The staff's view of a kind that has passengers. -/
def KindFare.counted (k : KindFare) : Option StaffFare :=
  if 0 < k.original.count then some k.staff else none

/-- The kinds without passengers add nothing to a total. -/
theorem sum_counted (amount : StaffFare → Int) (kinds : List KindFare) :
    ((kinds.filterMap KindFare.counted).map fun f => amount f * (f.count : Int)).sum =
      (kinds.map fun k => amount k.staff * (k.original.count : Int)).sum := by
  induction kinds with
  | nil => rfl
  | cons k kinds ih =>
    rw [List.map_cons, List.sum_cons, ← ih]
    by_cases hcount : 0 < k.original.count
    · rw [List.filterMap_cons_some (by rw [KindFare.counted, if_pos hcount]), List.map_cons, List.sum_cons]
      rfl
    · have hzero : k.original.count = 0 := by omega
      rw [List.filterMap_cons_none (by rw [KindFare.counted, if_neg hcount]), hzero]
      simp

/-- A quote without a tier, as it is stored. -/
structure StaffQuote (d : Decimals) (original selling pricing : Value) (markup : Markup)
    (counts : List (String × Value)) (found : List (Option KindQuote)) : Prop where
  passengerCounts : original.field "passengerCounts" = .obj counts
  quotes : (Value.entries counts).mapM (quoteKind d original selling none 0 markup) = .ok found
  object : pricing.isObject
  tier : pricing.field "tier" = .null
  share : asI64? (pricing.field "commissionSharePercent") = some 0
  passengers : pricing.field "passengers" = .object (found.reduceOption.map (KindQuote.toField d))

theorem snapshot_staff (h : snapshot d original selling none 0 currency markup = .ok pricing) :
    ∃ counts found, StaffQuote d original selling pricing markup counts found := by
  simp only [snapshot, bind_eq_ok, ensure_eq_ok, fetch_eq_ok, exists_const, pure_eq_ok,
    Value.asObject?_eq_some] at h
  obtain ⟨-, -, counts, hcounts, found, hfound, claimed, -, -, rfl⟩ := h
  refine ⟨counts, found, ?_⟩
  constructor
  case passengerCounts => exact hcounts
  case quotes => exact hfound
  case object =>
    unfold enrich
    split
    · exact Value.isObject_setField rfl
    · rfl
  case tier =>
    rw [field_enrich (by decide), Value.field, Value.get?_object]
    simp [Value.ofOption]
  case share =>
    rw [field_enrich (by decide), Value.field, Value.get?_object]
    simp
    decide
  case passengers =>
    rw [field_enrich (by decide), Value.field, Value.get?_object]
    simp

theorem quoteKind_none {gross : Value} {tier : Option Tier} {share : Int} {entry : String × Value}
    (h : quoteKind d original gross tier share markup entry = .ok none) : entry.2.asU64? = some 0 := by
  simp only [quoteKind, bind_eq_ok, fetch_eq_ok] at h
  obtain ⟨count, hcount, h⟩ := h
  split at h
  · rename_i hzero
    rw [hcount, hzero]
  · simp only [bind_eq_ok, pure_eq_ok] at h
    obtain ⟨_, -, _, -, _, -, _, -, _, -, h⟩ := h
    cases h

/-- The kinds with passengers are the ones that are quoted. -/
theorem counted_quoted {c : Coverage} {counts : List (String × Value)} {found : List (Option KindQuote)}
    {kinds : List (Option KindFare)} (hq : StaffQuote d original selling pricing markup counts found)
    (hcounts : original.field "passengerCounts" = .obj c.counts)
    (hkinds : (Value.entries c.counts).mapM (projectKind d (.obj c.fares) none) = .ok kinds)
    (hread : Readable d original selling) (hd : d.Plain) :
    List.Forall₂ (fun (q : KindQuote) (f : StaffFare) => q.kind = f.kind ∧ q.count = f.count)
      found.reduceOption (kinds.reduceOption.filterMap KindFare.counted) := by
  have hsame := hq.passengerCounts
  rw [hcounts] at hsame
  cases hsame
  have hpairs : List.Forall₂ (Option.Rel fun (q : KindQuote) (f : StaffFare) =>
      q.kind = f.kind ∧ q.count = f.count) found (kinds.map fun k => k.bind KindFare.counted) := by
    rw [List.forall₂_map_right_iff]
    refine mapM_pairs hq.quotes hkinds fun entry hentry q k hquote hkind => ?_
    cases q with
    | none =>
      have hzero := quoteKind_none hquote
      rcases projectKind_ok hkind with ⟨rfl, -⟩ | ⟨k, rfl, hprojected⟩
      · exact .none
      · have hcount := hprojected.count
        rw [hzero, Option.some.injEq] at hcount
        rw [Option.bind_some, KindFare.counted, if_neg (by omega)]
        exact .none
    | some q =>
      obtain ⟨hquoted, hcount⟩ := quoteKind_ok hd hread hcounts hentry hquote
      have hpos := hquoted.countPos
      rcases projectKind_ok hkind with ⟨-, hzero⟩ | ⟨k, rfl, hprojected⟩
      · rw [hcount, Option.some.injEq] at hzero
        omega
      · have hsame := hprojected.count
        rw [hcount, Option.some.injEq] at hsame
        rw [Option.bind_some, KindFare.counted, if_pos (by omega)]
        exact .some ⟨(quoteKind_kind hquote).trans hprojected.kind.symm, hsame⟩
  have hoption := forall₂_reduceOption hpairs
  have hfilter : (kinds.map fun k => k.bind KindFare.counted).reduceOption =
      kinds.reduceOption.filterMap KindFare.counted := by
    simp [List.reduceOption, List.filterMap_filterMap, List.filterMap_map]
  rwa [hfilter] at hoption

/-! ## The staff's quote -/

/-- What a row of the staff's quote shows. -/
structure StaffFare.Shown (entry : String × Value) (f : StaffFare) : Prop where
  kind : entry.1 = f.kind
  count : (entry.2.field "count").asU64? = some f.count
  supplier : entry.2.field "supplier" = .str (twoPlaces f.supplier)
  gross : entry.2.field "gross" = .str (twoPlaces f.gross)
  commission : entry.2.field "commission" = .str "0.00"
  payable : entry.2.field "payable" = .str (twoPlaces f.gross)

/-- The total of an amount over all passengers. -/
def staffTotal (amount : StaffFare → Int) (fares : List StaffFare) : Int :=
  (fares.map fun f => amount f * (f.count : Int)).sum

/-- A staff quote shows a row for each fare, and their totals. -/
structure Staffed (staff : Value) (fares : List StaffFare) : Prop where
  rows : ∃ rows, staff.field "passengers" = .obj rows ∧ List.Forall₂ StaffFare.Shown rows fares
  supplier : staff.field "supplier" = .str (twoPlaces (staffTotal StaffFare.supplier fares))
  gross : staff.field "gross" = .str (twoPlaces (staffTotal StaffFare.gross fares))
  commission : staff.field "commission" = .str "0.00"
  payable : staff.field "payable" = .str (twoPlaces (staffTotal StaffFare.gross fares))

theorem staffFields_field {row : Value} (h : row.isObject) (supplier gross : BigDecimal) :
    (staffFields d supplier gross row).field "supplier" = .str (d.fixed supplier) ∧
    (staffFields d supplier gross row).field "gross" = .str (d.fixed gross) ∧
    (staffFields d supplier gross row).field "commission" = .str "0.00" ∧
    (staffFields d supplier gross row).field "payable" = .str (d.fixed gross) := by
  have h₁ := @Value.isObject_setField _ (.str (d.fixed supplier)) "supplier" h
  have h₂ := @Value.isObject_setField _ (.str (d.fixed gross)) "gross" h₁
  have h₃ := @Value.isObject_setField _ (.str "0.00") "commission" h₂
  unfold staffFields
  refine ⟨?_, ?_, ?_, ?_⟩
  · rw [Value.field_setField_ne (by decide), Value.field_setField_ne (by decide),
      Value.field_setField_ne (by decide), Value.field_setField_self h]
  · rw [Value.field_setField_ne (by decide), Value.field_setField_ne (by decide),
      Value.field_setField_self h₁]
  · rw [Value.field_setField_ne (by decide), Value.field_setField_self h₂]
  · rw [Value.field_setField_self h₃]

theorem staffFields_other {row : Value} {key : String} (supplier gross : BigDecimal)
    (h : key ∉ ["supplier", "gross", "commission", "payable"]) :
    (staffFields d supplier gross row).field key = row.field key := by
  simp only [List.mem_cons, List.not_mem_nil, or_false, not_or] at h
  unfold staffFields
  rw [Value.field_setField_ne h.2.2.2, Value.field_setField_ne h.2.2.1, Value.field_setField_ne h.2.1,
    Value.field_setField_ne h.1]

/-- Rows of the quote that are about the fares become the rows of the staff's quote. -/
theorem staffRows (hd : d.Plain) {entries : List (String × Value)} {fares : List StaffFare}
    (h : List.Forall₂ (fun (entry : String × Value) (f : StaffFare) => entry.1 = f.kind ∧
      (entry.2.field "count").asU64? = some f.count) entries fares)
    (hparts : ∀ f ∈ fares, f.Parts original) :
    ∃ rows, entries.mapM (staffRow d original) = .ok rows ∧
      List.Forall₂ (fun (r : StaffRow) (f : StaffFare) => r.count = f.count ∧
        r.supplier = ⟨f.supplier, 2⟩ ∧ r.gross = ⟨f.gross, 2⟩ ∧ f.Shown r.field) rows fares := by
  induction h with
  | nil => exact ⟨[], rfl, .nil⟩
  | @cons entry f entries fares hentry _ ih =>
    obtain ⟨rows, hrows, hshown⟩ := ih fun f' hf' => hparts f' (List.mem_cons_of_mem _ hf')
    have hrow := staffRow_parts (d := d) (hparts f List.mem_cons_self) hentry.1 hentry.2
    have hobject : entry.2.isObject := by
      cases hvalue : entry.2 with
      | obj fields => rfl
      | _ =>
        have hcount := hentry.2
        rw [hvalue] at hcount
        cases hcount
    obtain ⟨hsupplier, hgross, hcommission, hpayable⟩ :=
      staffFields_field (d := d) hobject ⟨f.supplier, 2⟩ ⟨f.gross, 2⟩
    rw [hd.fixed _ _ (.two f.supplier)] at hsupplier
    rw [hd.fixed _ _ (.two f.gross)] at hgross hpayable
    refine ⟨⟨(entry.1, staffFields d ⟨f.supplier, 2⟩ ⟨f.gross, 2⟩ entry.2), f.count, ⟨f.supplier, 2⟩,
      ⟨f.gross, 2⟩⟩ :: rows, ?_, .cons ⟨rfl, rfl, rfl, ?_⟩ hshown⟩
    · rw [mapM_eq_ok] at hrows ⊢
      exact .cons hrow hrows
    · exact {
        kind := hentry.1
        count := by
          rw [← hentry.2]
          exact congrArg Value.asU64? (staffFields_other _ _ (by decide))
        supplier := hsupplier
        gross := hgross
        commission := hcommission
        payable := hpayable }

/-- A kind that is written into the published item has the fares the staff's quote shows. -/
theorem published_agrees {c : Coverage} {changes : Changes} (hd : d.Plain) (hcoverage : coverage original = .ok c)
    (hproject : project d original c none = .ok changes) {f : StaffFare}
    (hf : f ∈ changes.passengers.filterMap KindFare.counted) :
    f.Parts original ∧ f.Agrees original (changes.apply original) := by
  obtain ⟨⟨kinds, hkinds, hpassengers⟩, -, -⟩ := project_ok hproject
  obtain ⟨hcounts, hfares⟩ := coverage_ok hcoverage
  obtain ⟨hread, -⟩ := project_reads hcoverage hproject
  obtain ⟨k, hk, hcounted⟩ := List.mem_filterMap.mp hf
  have htotal := hread k hk
  rw [hpassengers, List.reduceOption_mem_iff] at hk
  obtain ⟨entry, hentry, hkind⟩ := exists_input hkinds hk
  have hparts := projectKind_parts hcounts hfares hentry hkind
  rw [KindFare.counted] at hcounted
  split at hcounted
  · rename_i hpos
    cases hcounted
    obtain ⟨total, hsupplier, hround, -⟩ := hparts.supplier
    refine ⟨hparts, hpos, hparts.count, ⟨total, hsupplier, hround⟩, ?_⟩
    rcases projectKind_ok hkind with ⟨hnone, -⟩ | ⟨k', hk', hprojected⟩
    · cases hnone
    · cases hk'
      obtain ⟨x, hx, hminor⟩ := hd.display k.selling.total.digits
      refine ⟨x, ?_, hminor.value.trans (toRat_minor _).symm⟩
      show tierMoney ((fareOf _ k.kind).field "totalPrice") = .ok x
      rw [htotal, hprojected.minor, tierMoney_display hx]
  · cases hcounted

/-- The published total is the sum of the published fares. -/
theorem published_total {c : Coverage} {changes : Changes} (hd : d.Plain) (hcoverage : coverage original = .ok c)
    (hproject : project d original c none = .ok changes) :
    ∃ total, tierMoney ((changes.apply original).field "totalPrice") = .ok total ∧
      total.toRat = toRat ⟨staffTotal StaffFare.gross (changes.passengers.filterMap KindFare.counted), 2⟩ := by
  obtain ⟨-, htotal⟩ := project_reads hcoverage hproject
  obtain ⟨-, hprojected⟩ := project_kinds hproject
  have hminor : ∀ k ∈ changes.passengers,
      k.selling.total = (⟨k.selling.total.digits, 2⟩ : BigDecimal) := by
    intro k hk
    obtain ⟨entry, hentry⟩ := hprojected k hk
    exact hentry.minor
  obtain ⟨hplaces, hvalue⟩ := weightedRef_minor (fun k : KindFare => k.original.count) hminor
  obtain ⟨x, hx, hread⟩ := hd.reads _ _ hplaces hvalue
  refine ⟨x, by rw [htotal]; exact tierMoney_display hx, ?_⟩
  rw [staffTotal, sum_counted, toRat_minor]
  exact hread

/-- The fields of the quotes are about the kinds with passengers. -/
theorem fields_counted {counts : List (String × Value)} {found : List (Option KindQuote)}
    {fares : List StaffFare} (hq : StaffQuote d original selling pricing markup counts found)
    (hread : Readable d original selling) (hd : d.Plain)
    (h : List.Forall₂ (fun (q : KindQuote) (f : StaffFare) => q.kind = f.kind ∧ q.count = f.count)
      found.reduceOption fares) :
    List.Forall₂ (fun (entry : String × Value) (f : StaffFare) => entry.1 = f.kind ∧
      (entry.2.field "count").asU64? = some f.count) (found.reduceOption.map (KindQuote.toField d)) fares := by
  have hlt : ∀ q ∈ found.reduceOption, q.count < 2 ^ 64 := by
    intro q hq'
    rw [List.reduceOption_mem_iff] at hq'
    obtain ⟨entry, hentry, hquote⟩ := exists_input hq.quotes hq'
    exact (quoteKind_ok hd hread hq.passengerCounts hentry hquote).1.countLt
  rw [List.forall₂_map_left_iff]
  refine ((List.forall₂_and_left _ _).mpr ⟨hlt, h⟩).imp ?_
  rintro q f ⟨hcount, hkind, hsame⟩
  refine ⟨hkind, ?_⟩
  rw [KindQuote.toField, Value.field, Value.get?_object, ← hsame]
  simpa using Value.asU64?_ofInt hcount

/-- No kind with passengers is left out. -/
theorem counted_covers {c : Coverage} {plan : Option Markup} {changes : Changes} {entry : String × Value}
    {n : Nat} (hproject : project d original c plan = .ok changes) (hentry : entry ∈ Value.entries c.counts)
    (hn : entry.2.asU64? = some n) (hne : n ≠ 0) :
    ∃ f ∈ changes.passengers.filterMap KindFare.counted, f.kind = entry.1 ∧ f.count = n := by
  obtain ⟨⟨kinds, hkinds, hpassengers⟩, -, -⟩ := project_ok hproject
  obtain ⟨k, hk, hkind⟩ := exists_output hkinds hentry
  rcases projectKind_ok hkind with ⟨-, hzero⟩ | ⟨k, rfl, hprojected⟩
  · rw [hn, Option.some.injEq] at hzero
    exact absurd hzero hne
  · have hcount := hprojected.count
    rw [hn, Option.some.injEq] at hcount
    refine ⟨k.staff, List.mem_filterMap.mpr ⟨k, ?_, ?_⟩, hprojected.kind, hcount.symm⟩
    · rwa [hpassengers, List.reduceOption_mem_iff]
    · rw [KindFare.counted, if_pos (by omega)]

theorem staffTotal_perm {fares fares' : List StaffFare} (amount : StaffFare → Int) (h : fares.Perm fares') :
    staffTotal amount fares = staffTotal amount fares' :=
  (h.map _).sum_eq

/-- The quote of the staff shows the published fares, each row's and their total, and what the supplier
is owed. -/
theorem staff_published (hd : d.Plain) (hpublished : publishedGross d original = .ok published)
    (hselling : singleComponent d original markup = .ok selling)
    (hquote : snapshot d original selling none 0 currency markup = .ok pricing) :
    ∃ staff fares, staffPricing d original pricing = .ok staff ∧ Staffed staff fares ∧
      (fares.map StaffFare.kind).Nodup ∧ (∀ f ∈ fares, f.Agrees original published) ∧
      (∀ counts, original.field "passengerCounts" = .obj counts → ∀ entry ∈ Value.entries counts,
        ∀ n, entry.2.asU64? = some n → n ≠ 0 → ∃ f ∈ fares, f.kind = entry.1 ∧ f.count = n) ∧
      ∃ total, tierMoney (published.field "totalPrice") = .ok total ∧
        total.toRat = toRat ⟨staffTotal StaffFare.gross fares, 2⟩ := by
  simp only [publishedGross, bind_eq_ok, pure_eq_ok] at hpublished
  obtain ⟨c, hcoverage, changes, hproject, rfl⟩ := hpublished
  obtain ⟨⟨kinds, hkinds, hpassengers⟩, -, -⟩ := project_ok hproject
  obtain ⟨hcounts, -⟩ := coverage_ok hcoverage
  have hread : Readable d original selling := @projected_readable _ _ _ none _ hselling
  obtain ⟨counts, found, hq⟩ := snapshot_staff hquote
  have hquoted := counted_quoted hq hcounts hkinds hread hd
  rw [← hpassengers] at hquoted
  have hagrees := fun f => published_agrees (f := f) hd hcoverage hproject
  obtain ⟨total, htotal, hvalue⟩ := published_total hd hcoverage hproject
  -- The rows of the quote are the quotes in the order of their keys.
  have hkeys : ((found.reduceOption.map (KindQuote.toField d)).map Prod.fst).Nodup := by
    rw [List.map_map]
    exact (Value.entries_nodup counts).sublist
      (reduceOption_sublist hq.quotes fun _ _ hkind => quoteKind_kind hkind)
  have hfields := fields_counted hq hread hd hquoted
  obtain ⟨sorted, hsorted, hperm⟩ := Value.object_perm hkeys
  obtain ⟨fares, hfares, hsame⟩ := List.perm_comp_forall₂ hperm hfields
  have hnodup : (sorted.map Prod.fst).Nodup := (hperm.map Prod.fst).nodup_iff.mpr hkeys
  have hkindsNodup : (fares.map StaffFare.kind).Nodup := by
    have hkind : sorted.map Prod.fst = fares.map StaffFare.kind := by
      clear hsame hsorted hperm hnodup
      induction hfares with
      | nil => rfl
      | cons hentry _ ih => rw [List.map_cons, List.map_cons, ih, hentry.1]
    rwa [← hkind]
  obtain ⟨rows, hrows, hshown⟩ := staffRows hd hfares fun f hf => (hagrees f (hsame.mem_iff.mp hf)).1
  have hsupplier : IsMinor (weighted StaffRow.supplier StaffRow.count rows)
      (staffTotal StaffFare.supplier fares) :=
    weighted_isMinor (hshown.imp fun _ _ hrow => ⟨hrow.1, by rw [hrow.2.1]; exact .two _⟩)
  have hgross : IsMinor (weighted StaffRow.gross StaffRow.count rows) (staffTotal StaffFare.gross fares) :=
    weighted_isMinor (hshown.imp fun _ _ hrow => ⟨hrow.1, by rw [hrow.2.2.1]; exact .two _⟩)
  have hstaff : staffPricing d original pricing = .ok (staffFields d
      (weighted StaffRow.supplier StaffRow.count rows) (weighted StaffRow.gross StaffRow.count rows)
      (pricing.setField "passengers" (.obj (rows.map StaffRow.field)))) := by
    have hentries := Value.entries_of_nodup hnodup
    simp only [staffPricing, hq.tier, hq.share, hq.passengers, hsorted, Value.asObject?, fetch_some,
      ok_bind, hentries, hrows]
    rfl
  have hobject := @Value.isObject_setField _ (.obj (rows.map StaffRow.field)) "passengers" hq.object
  obtain ⟨hsupplierText, hgrossText, hcommission, hpayable⟩ := staffFields_field (d := d) hobject
    (weighted StaffRow.supplier StaffRow.count rows) (weighted StaffRow.gross StaffRow.count rows)
  rw [hd.fixed _ _ hsupplier] at hsupplierText
  rw [hd.fixed _ _ hgross] at hgrossText hpayable
  refine ⟨_, fares, hstaff, ⟨⟨rows.map StaffRow.field, ?_, ?_⟩, hsupplierText, hgrossText, hcommission,
    hpayable⟩, hkindsNodup, fun f hf => (hagrees f (hsame.mem_iff.mp hf)).2, ?_, total, htotal, ?_⟩
  · rw [staffFields_other _ _ (by decide)]
    exact Value.field_setField_self hq.object
  · rw [List.forall₂_map_left_iff]
    exact hshown.imp fun _ _ hrow => hrow.2.2.2
  · intro counts' hcounts' entry hentry n hn hne
    rw [hcounts] at hcounts'
    cases hcounts'
    obtain ⟨f, hf, hkind⟩ := counted_covers hproject hentry hn hne
    exact ⟨f, hsame.mem_iff.mpr hf, hkind⟩
  · rw [hvalue, staffTotal_perm StaffFare.gross hsame]

/-- The staff is shown base and taxes of a fare whose markup a customer would pay on the supplier's. -/
theorem staff_published_marked : ∃ published selling pricing staff fares,
    publishedGross sampleDecimals (sampleFare 100 150) = .ok published ∧
    singleComponent sampleDecimals (sampleFare 100 150) (.fixed (ofInt 7)) = .ok selling ∧
    snapshot sampleDecimals (sampleFare 100 150) selling none 0 "BDT" (.fixed (ofInt 7)) = .ok pricing ∧
    pricing.field "payable" = .str "107.00" ∧
    staffPricing sampleDecimals (sampleFare 100 150) pricing = .ok staff ∧ Staffed staff fares ∧
    staff.field "payable" = .str "150.00" := by
  have hsample : (publishedGross sampleDecimals (sampleFare 100 150)).isOk = true := by decide +kernel
  have hquote : ((singleComponent sampleDecimals (sampleFare 100 150) (.fixed (ofInt 7))).mapError
      (fun _ => invalidTier) >>= fun selling => (snapshot sampleDecimals (sampleFare 100 150) selling none 0
        "BDT" (.fixed (ofInt 7)) >>= fun pricing => (staffPricing sampleDecimals (sampleFare 100 150)
          pricing).map fun staff => (pricing.field "payable", staff.field "payable"))) =
      .ok (.str "107.00", .str "150.00") := by
    decide +kernel
  simp only [bind_eq_ok, mapError_eq_ok, map_eq_ok, Prod.mk.injEq] at hquote
  obtain ⟨selling, hselling, pricing, hpricing, staff, hstaff, hpayable, hshown⟩ := hquote
  cases hpublished : publishedGross sampleDecimals (sampleFare 100 150) with
  | error e =>
    rw [hpublished] at hsample
    cases hsample
  | ok published =>
    obtain ⟨staff', fares, hstaff', hstaffed, -⟩ :=
      staff_published sampleDecimals_plain hpublished hselling hpricing
    rw [hstaff] at hstaff'
    cases hstaff'
    exact ⟨published, selling, pricing, staff, fares, rfl, hselling, hpricing, hpayable, hstaff,
      hstaffed, hshown⟩

end ShaponTravels.Pricing
