import Mathlib.RingTheory.Coprime.Lemmas
import Mathlib.Tactic.IntervalCases
import Mathlib.Tactic.Linarith
import Mathlib.Tactic.Positivity
import Mathlib.Tactic.Ring
import ShaponTravels.Booking.Passengers
import ShaponTravels.Pricing.Breakdown
import ShaponTravels.Wallet.Entitlements

/-!
# Receipts — the fares of an imported booking as a client reads them

`portal_imports/api.rs`.  An import keeps one aggregate row for every passenger type; the flight shows what
one passenger of each pays, and the pricing what was captured.
-/

namespace ShaponTravels.Imports

open Library Pricing BigDecimal
open Booking (Casing)
open Wallet.TicketManagement (asI64?)

/-- `api::Imported`. -/
structure Imported where
  row : Value
  document : Value

/-! ## Reading and writing amounts -/

/-- `api::decimal`. -/
def decimal (v : Value) : Option BigDecimal := BigDecimal.parse (v.asStr?.getD v.text)

/-- `api::numeric`. -/
def numeric (d : Decimals) (a : BigDecimal) : Value := .num (d.display a)

/-- `api::formatted`. -/
def formatted (d : Decimals) (a : BigDecimal) : Value := .str (d.fixed a)

/-- An amount has no more than two places. -/
def isRound (a : BigDecimal) : Bool := (a.withScaleRound 2).cmp a = .eq

/-! ## The flight -/

/-- The variables of the loop over the saved fares. -/
structure Fares where
  fares : Value
  counts : Value
  total : BigDecimal

/-- The body of the loop. -/
def fareRow (d : Decimals) (cs : Casing) (s : Fares) (row : Value) : Option Fares := do
  let type ← (row.field "passengerType").asStr?
  let kind := cs.lower type
  guard (s.fares.get? kind).isNone
  let count ← (row.field "count").asU64?.filter fun n => 0 < n
  let base := d.quotient (← decimal (row.field "basePrice")) (ofInt count)
  let taxes := d.quotient (← decimal (row.field "taxes")) (ofInt count)
  let ait := d.quotient (← decimal (row.field "ait")) (ofInt count)
  guard ([base, taxes, ait].all isRound)
  let gross := base.add taxes
  return {
    fares := s.fares.setField kind (.object [("basePrice", numeric d base), ("taxes", numeric d taxes),
      ("ait", numeric d ait), ("totalPrice", numeric d gross), ("discountPrice", .ofInt 0),
      ("serviceCharge", .ofInt 0)])
    counts := s.counts.setField kind (.ofInt count)
    total := s.total.addAssign (gross.mul (ofInt count)) }

/-- A segment names what a client is shown of it. -/
def checkSegment (segment : Value) : Option Unit := do
  let _ ← ["from", "to", "departure", "arrival", "airlineCode", "flightNumber"].mapM fun key =>
    (segment.field key).asStr?
  return ()

def checkLeg (leg : Value) : Option Unit := do
  let segments ← (leg.field "segments").asArray?
  let _ ← segments.mapM checkSegment
  return ()

/-- What `flight` returns. -/
def flightOf (d : Decimals) (i : Imported) (s : Fares) (legs : List Value) : Value :=
  let booking := i.document.field "booking"
  let itinerary := booking.field "itinerary"
  .object [("currency", booking.field "currency"), ("totalPrice", numeric d s.total),
    ("passengerCounts", s.counts), ("passengerFares", s.fares),
    ("platingCarrier", itinerary.field "carrierCode"), ("platingCarrierName", itinerary.field "carrierName"),
    ("refundable", itinerary.field "refundable"), ("directions", .arr (legs.map fun leg => .arr [leg]))]

/-- `Imported::flight`. -/
def Imported.flight (d : Decimals) (cs : Casing) (i : Imported) : Option Value := do
  let booking := i.document.field "booking"
  let rows ← ((booking.field "ticketFare").field "fares").asArray?.filter fun rows => rows ≠ []
  let s ← rows.foldlM (fareRow d cs) ⟨.object [], .object [], ofInt 0⟩
  let legs ← ((booking.field "itinerary").field "legs").asArray?
  let _ ← legs.mapM checkLeg
  return flightOf d i s legs

/-! ## The pricing -/

/-- `invalid` of `portal_imports`. -/
def invalidImport : ApiError := ⟨.badRequest, "INVALID_IMPORT_DATA"⟩

def noSnapshot : ApiError := ⟨.conflict, "PRICING_SNAPSHOT_UNAVAILABLE"⟩

/-- The public fields of a saved pricing. -/
def pricingKeys : List String :=
  ["version", "tier", "commissionSharePercent", "currency", "gross", "commission", "payable", "passengers",
    "fareBreakdown"]

/-- The saved pricing of an import that was priced here. -/
def Imported.saved (i : Imported) : Option Value :=
  let saved := (i.row.field "data").field "rustPricing"
  if i.row.field "source" ≠ .str "MANUAL" ∧ saved.isObject then some saved else none

/-- The snapshot of a booking of one passenger type at its captured payable. -/
def legacySnapshot (d : Decimals) (currency : Value) (kind : String) (count : Value)
    (gross perGross payable per : BigDecimal) : Value :=
  .object [("version", .ofInt 1), ("currency", currency), ("tier", .str "legacy_import"),
    ("gross", formatted d gross), ("commission", formatted d (gross.sub payable)),
    ("payable", formatted d payable),
    ("passengers", .object [(kind, .object [("count", count), ("gross", formatted d perGross),
      ("commission", formatted d (perGross.sub per)), ("payable", formatted d per)])])]

/-- `Imported::pricing`. -/
def Imported.pricing (d : Decimals) (cs : Casing) (i : Imported) : Except ApiError Value :=
  match i.saved with
  | some saved =>
    .ok (.object (pricingKeys.filterMap fun key => (saved.get? key).map fun v => (key, v)))
  | none => do
    let fare ← fetch (i.flight d cs) noSnapshot
    let types ← fetch (fare.field "passengerCounts").asObject? invalidImport
    match types with
    | [(kind, count)] => do
      let n ← fetch count.asU64? invalidImport
      let minor ← fetch (asI64? (i.row.field "payable_minor")) invalidImport
      let payable := d.quotient (ofInt minor) (ofInt 100)
      let per := d.quotient payable (ofInt n)
      ensure (isRound per) noSnapshot
      let gross ← fetch (decimal (fare.field "totalPrice")) invalidImport
      let perGross := d.quotient gross (ofInt n)
      let snapshot := legacySnapshot d (i.row.field "currency") kind count gross perGross payable per
      return (enrich d snapshot fare).setField "tier" .null
    | _ => .error noSnapshot

/-! ## Exact arithmetic -/

/-- The number is at most `10 ^ limit`, with at most `limit` places or zeros behind its digits. -/
structure Within (limit : Nat) (a : BigDecimal) : Prop where
  scale : a.scale.natAbs ≤ limit
  value : |a.toRat| ≤ 10 ^ limit

/-- In the range of `limit` the crate reads back and rounds what has two places, and divides by a count of at
most nine and by a hundred exactly; what cannot be shared in two places has a quotient of more. -/
structure Exact (d : Decimals) (limit : Nat) : Prop extends d.Plain where
  shows : ∀ (a : BigDecimal) (n : Int), Within limit a → a.toRat = n / 100 →
    ∃ x, BigDecimal.parse (d.display a) = some x ∧ x.toRat = n / 100 ∧ x.scale.natAbs ≤ limit
  rounds : ∀ (a : BigDecimal) (n : Int), Within limit a → a.toRat = n / 100 → d.fixed a = twoPlaces n
  divides : ∀ (a : BigDecimal) (n : Nat) (units : Int), Within limit a → 0 < n → n ≤ 9 →
    a.toRat = n * (units / 100 : ℚ) →
      (d.quotient a (ofInt n)).toRat = units / 100 ∧ (d.quotient a (ofInt n)).scale.natAbs ≤ limit
  rest : ∀ (a : BigDecimal) (n : Nat), Within limit a → 0 < n → n ≤ 9 →
    (∀ units : Int, a.toRat ≠ n * (units / 100 : ℚ)) → isRound (d.quotient a (ofInt n)) = false
  hundredth : ∀ n : Int, |(n : ℚ) / 100| ≤ 10 ^ limit →
    (d.quotient (ofInt n) (ofInt 100)).toRat = n / 100 ∧ (d.quotient (ofInt n) (ofInt 100)).scale.natAbs ≤ limit

variable {d : Decimals} {cs : Casing} {a : BigDecimal} {limit : Nat}

theorem isRound_iff : isRound a = true ↔ ∃ n : Int, a.toRat = n / 100 := by
  rw [isRound, decide_eq_true_eq, cmp_eq_eq]
  constructor
  · intro h
    rw [withScaleRound_scale, toRat_minor] at h
    exact ⟨_, h.symm⟩
  · rintro ⟨n, hn⟩
    rw [withScaleRound_of_toRat hn, toRat_minor, hn]

/-- A share of a number is no larger. -/
theorem abs_share_le {n : Nat} (hpos : 0 < n) (q : ℚ) : |q| ≤ |n * q| := by
  have hone : (1 : ℚ) ≤ n := by exact_mod_cast hpos
  rw [abs_mul, Nat.abs_cast]
  exact le_mul_of_one_le_left (abs_nonneg q) hone

/-- A quotient that is round is exact. -/
theorem quotient_of_round (hd : Exact d limit) {n : Nat} (ha : Within limit a) (hpos : 0 < n) (hle : n ≤ 9)
    (h : isRound (d.quotient a (ofInt n)) = true) :
    ∃ units : Int, (d.quotient a (ofInt n)).toRat = units / 100 ∧ a.toRat = n * (units / 100 : ℚ) ∧
      Within limit (d.quotient a (ofInt n)) := by
  by_cases hends : ∃ units : Int, a.toRat = n * (units / 100 : ℚ)
  · obtain ⟨units, hunits⟩ := hends
    obtain ⟨hvalue, hscale⟩ := hd.divides a n units ha hpos hle hunits
    refine ⟨units, hvalue, hunits, hscale, ?_⟩
    rw [hvalue]
    refine le_trans (abs_share_le hpos _) ?_
    rw [← hunits]
    exact ha.value
  · rw [hd.rest a n ha hpos hle fun units hunits => hends ⟨units, hunits⟩] at h
    cases h

/-- A sum or a difference has the places of the number that has more. -/
theorem scale_max_le {b : BigDecimal} (ha : Within limit a) (hb : Within limit b) :
    (max a.scale b.scale).natAbs ≤ limit := by
  rcases max_choice a.scale b.scale with h | h
  · rw [h]
    exact ha.scale
  · rw [h]
    exact hb.scale

theorem Within.add {b : BigDecimal} (ha : Within limit a) (hb : Within limit b)
    (h : |a.toRat| + |b.toRat| ≤ 10 ^ limit) : Within limit (a.add b) where
  scale := scale_max_le ha hb
  value := by
    rw [toRat_add]
    exact le_trans (abs_add_le _ _) h

theorem Within.sub {b : BigDecimal} (ha : Within limit a) (hb : Within limit b)
    (h : |a.toRat| + |b.toRat| ≤ 10 ^ limit) : Within limit (a.sub b) where
  scale := scale_max_le ha hb
  value := by
    rw [toRat_sub]
    exact le_trans (abs_sub _ _) h

/-- The sum that is kept has the places of the products that were added to it. -/
theorem scale_addAssign_mul {b : BigDecimal} (ha : a.scale.natAbs ≤ limit) (hb : b.scale.natAbs ≤ limit) (n : Int) :
    (a.addAssign (b.mul (ofInt n))).scale.natAbs ≤ limit := by
  have hsum := scale_addAssign a (b.mul (ofInt n))
  have hproduct := scale_mul_ofInt b n
  omega

/-! ## Lines -/

/-- What one passenger of a kind pays, in minor units. -/
structure Line where
  kind : String
  count : Nat
  base : Int
  taxes : Int
  ait : Int

namespace Line

def gross (l : Line) : Int := l.base + l.taxes

end Line

/-- What all passengers pay. -/
def due (lines : List Line) : Int := (lines.map fun l => (l.count : Int) * l.gross).sum

/-- The value is read as the number. -/
def Reads (v : Value) (q : ℚ) : Prop := ∃ x, decimal v = some x ∧ x.toRat = q

/-- The value is a number of `n` minor units. -/
def Shows (v : Value) (n : Int) : Prop :=
  ∃ text x, v = .num text ∧ BigDecimal.parse text = some x ∧ x.toRat = n / 100

/-- A saved row is the line of one passenger times its count. -/
structure Line.Aggregates (cs : Casing) (row : Value) (l : Line) : Prop where
  kind : ∃ type, row.field "passengerType" = .str type ∧ l.kind = cs.lower type
  count : (row.field "count").asU64? = some l.count
  positive : 0 < l.count
  base : Reads (row.field "basePrice") (l.count * (l.base / 100 : ℚ))
  taxes : Reads (row.field "taxes") (l.count * (l.taxes / 100 : ℚ))
  ait : Reads (row.field "ait") (l.count * (l.ait / 100 : ℚ))

/-- The fare of a kind shows its line. -/
structure Line.Priced (l : Line) (fare : Value) : Prop where
  base : Shows (fare.field "basePrice") l.base
  taxes : Shows (fare.field "taxes") l.taxes
  ait : Shows (fare.field "ait") l.ait
  total : Shows (fare.field "totalPrice") l.gross

/-- An object has one field for each line. -/
def Keyed (v : Value) (lines : List Line) : Prop :=
  ∃ fields, v = .obj fields ∧ (fields.map Prod.fst).Perm (lines.map (·.kind))

/-- What the loop has made of the rows it has read. -/
structure Fares.Holds (s : Fares) (lines : List Line) : Prop where
  nodup : (lines.map (·.kind)).Nodup
  fares : Keyed s.fares lines
  counts : Keyed s.counts lines
  priced : ∀ l ∈ lines, l.Priced (s.fares.field l.kind)
  counted : ∀ l ∈ lines, (s.counts.field l.kind).asU64? = some l.count
  total : s.total.toRat = due lines / 100

theorem shows_numeric (hd : Exact d limit) {n : Int} (ha : Within limit a) (h : a.toRat = n / 100) :
    Shows (numeric d a) n := by
  obtain ⟨x, hx, hvalue, -⟩ := hd.shows a n ha h
  exact ⟨d.display a, x, rfl, hx, hvalue⟩

theorem due_append (lines : List Line) (l : Line) : due (lines ++ [l]) = due lines + l.count * l.gross := by
  simp [due]

/-- A kind that is not there yet is one more field. -/
theorem Keyed.setField {v x : Value} {lines : List Line} {l : Line} (h : Keyed v lines)
    (hnew : l.kind ∉ lines.map (·.kind)) : Keyed (v.setField l.kind x) (lines ++ [l]) := by
  obtain ⟨fields, rfl, hperm⟩ := h
  refine ⟨_, rfl, ?_⟩
  have hfields : ∀ f ∈ fields, f.1 ≠ l.kind := by
    intro f hf heq
    exact hnew (hperm.mem_iff.mp (heq ▸ List.mem_map_of_mem hf))
  have hinsert := (Value.insertField_perm (v := x) hfields).map Prod.fst
  rw [List.map_append]
  exact hinsert.trans ((hperm.cons l.kind).trans (List.perm_append_singleton _ _).symm)

theorem Keyed.fresh {v : Value} {lines : List Line} {kind : String} (h : Keyed v lines)
    (hnone : v.get? kind = none) : kind ∉ lines.map (·.kind) := by
  obtain ⟨fields, rfl, hperm⟩ := h
  intro hkind
  obtain ⟨f, hf, rfl⟩ := List.mem_map.mp (hperm.mem_iff.mpr hkind)
  rw [Value.get?, Option.map_eq_none_iff, List.find?_eq_none] at hnone
  exact hnone f hf (decide_eq_true rfl)

theorem Keyed.isObject {v : Value} {lines : List Line} (h : Keyed v lines) : v.isObject := by
  obtain ⟨fields, rfl, -⟩ := h
  rfl

/-- A kind that is not there yet is shown as its line. -/
theorem Fares.Holds.add {s : Fares} {lines : List Line} {l : Line} {base taxes ait : BigDecimal} (hs : s.Holds lines)
    (hshows : ∀ a ∈ [base, taxes, ait, base.add taxes], ∀ n : Int, a.toRat = n / 100 → Shows (numeric d a) n)
    (hnew : l.kind ∉ lines.map (·.kind)) (hcount : l.count < 2 ^ 64) (hbase : base.toRat = l.base / 100)
    (htaxes : taxes.toRat = l.taxes / 100) (hait : ait.toRat = l.ait / 100) :
    Fares.Holds ⟨s.fares.setField l.kind (.object [("basePrice", numeric d base), ("taxes", numeric d taxes),
        ("ait", numeric d ait), ("totalPrice", numeric d (base.add taxes)), ("discountPrice", .ofInt 0),
        ("serviceCharge", .ofInt 0)]), s.counts.setField l.kind (.ofInt l.count),
      s.total.addAssign ((base.add taxes).mul (ofInt l.count))⟩ (lines ++ [l]) := by
  have hother : ∀ l' ∈ lines, l'.kind ≠ l.kind := fun l' hl' heq => hnew (heq ▸ List.mem_map_of_mem hl')
  have hgross : (base.add taxes).toRat = (l.gross : Int) / 100 := by
    rw [toRat_add, hbase, htaxes, Line.gross, Int.cast_add, add_div]
  constructor
  · rw [List.map_append]
    refine List.nodup_append.mpr ⟨hs.nodup, List.nodup_singleton _, ?_⟩
    intro kind hkind other hlast heq
    rw [heq, List.mem_singleton.mp hlast] at hkind
    exact hnew hkind
  · exact hs.fares.setField hnew
  · exact hs.counts.setField hnew
  · intro l' hl'
    rcases List.mem_append.mp hl' with hl' | hl'
    · rw [Value.field_setField_ne (hother l' hl')]
      exact hs.priced l' hl'
    · rw [List.mem_singleton.mp hl', Value.field_setField_self hs.fares.isObject]
      constructor
      all_goals rw [Value.field, Value.get?_object]
      · exact hshows _ (by simp) _ hbase
      · exact hshows _ (by simp) _ htaxes
      · exact hshows _ (by simp) _ hait
      · exact hshows _ (by simp) _ hgross
  · intro l' hl'
    rcases List.mem_append.mp hl' with hl' | hl'
    · rw [Value.field_setField_ne (hother l' hl')]
      exact hs.counted l' hl'
    · rw [List.mem_singleton.mp hl', Value.field_setField_self hs.counts.isObject]
      exact Value.asU64?_ofInt hcount
  · rw [toRat_addAssign, toRat_mul_ofInt, hgross, hs.total, due_append]
    push_cast
    ring

/-! ## The range of an import -/

/-- What is read as a number, without its sign. -/
def amountOf (v : Value) : ℚ := (decimal v).elim 0 fun x => |x.toRat|

/-- What the amounts of a saved row come to. -/
def rowWorth (row : Value) : ℚ :=
  amountOf (row.field "basePrice") + amountOf (row.field "taxes") + amountOf (row.field "ait")

/-- The amounts of a saved row have at most `limit` places. -/
def RowPlaces (limit : Nat) (row : Value) : Prop :=
  ∀ key ∈ ["basePrice", "taxes", "ait"], ∀ x, decimal (row.field key) = some x → x.scale.natAbs ≤ limit

theorem amountOf_nonneg (v : Value) : 0 ≤ amountOf v := by
  unfold amountOf
  cases decimal v with
  | none => exact le_refl _
  | some x => exact abs_nonneg x.toRat

theorem rowWorth_nonneg (row : Value) : 0 ≤ rowWorth row :=
  add_nonneg (add_nonneg (amountOf_nonneg _) (amountOf_nonneg _)) (amountOf_nonneg _)

theorem amountOf_read {v : Value} (h : decimal v = some a) : amountOf v = |a.toRat| := by
  rw [amountOf, h]
  rfl

theorem amountOf_reads {v : Value} {q : ℚ} (h : Reads v q) : amountOf v = |q| := by
  obtain ⟨x, hx, rfl⟩ := h
  exact amountOf_read hx

/-- No line comes to more than its row. -/
theorem Line.Aggregates.worth {row : Value} {l : Line} (h : l.Aggregates cs row) :
    |((l.count * l.gross : Int) : ℚ) / 100| ≤ rowWorth row := by
  have hsum : ((l.count * l.gross : Int) : ℚ) / 100 = l.count * (l.base / 100 : ℚ) + l.count * (l.taxes / 100) := by
    rw [Line.gross]
    push_cast
    ring
  rw [hsum, rowWorth, amountOf_reads h.base, amountOf_reads h.taxes]
  exact le_trans (abs_add_le _ _) (le_add_of_nonneg_right (amountOf_nonneg _))

theorem due_worth {rows : List Value} {lines : List Line} (h : List.Forall₂ (Line.Aggregates cs) rows lines) :
    |(due lines : ℚ) / 100| ≤ (rows.map rowWorth).sum := by
  induction h with
  | nil => simp [due]
  | @cons row l rows lines hrow _ ih =>
    have hdue : (due (l :: lines) : ℚ) / 100 = ((l.count * l.gross : Int) : ℚ) / 100 + due lines / 100 := by
      rw [due, List.map_cons, List.sum_cons, ← due, Int.cast_add, add_div]
    rw [hdue, List.map_cons, List.sum_cons]
    exact le_trans (abs_add_le _ _) (add_le_add hrow.worth ih)

/-- The step: a row adds its line. -/
theorem fareRow_holds (hd : Exact d limit) {s s' : Fares} {lines : List Line} {row : Value} (hs : s.Holds lines)
    (hscale : s.total.scale.natAbs ≤ limit) (hfew : ∀ n, (row.field "count").asU64? = some n → n ≤ 9)
    (hplaces : RowPlaces limit row) (hworth : rowWorth row ≤ 10 ^ limit) (h : fareRow d cs s row = some s') :
    ∃ l : Line, l.Aggregates cs row ∧ s'.Holds (lines ++ [l]) ∧ s'.total.scale.natAbs ≤ limit := by
  simp only [fareRow, Option.bind_eq_bind, Option.bind_eq_some_iff, Option.guard_eq_some', Option.pure_def,
    Option.some.injEq, Option.filter_eq_some_iff, exists_const, Value.asStr?_eq_some,
    Option.isNone_iff_eq_none, decide_eq_true_eq] at h
  obtain ⟨type, htype, hnone, count, ⟨hcount, hpositive⟩, x, hx, y, hy, z, hz, hround, rfl⟩ := h
  have hle := hfew count hcount
  have hread : |x.toRat| + |y.toRat| + |z.toRat| ≤ 10 ^ limit := by
    rw [← amountOf_read hx, ← amountOf_read hy, ← amountOf_read hz]
    exact hworth
  have hx₀ := abs_nonneg x.toRat
  have hy₀ := abs_nonneg y.toRat
  have hz₀ := abs_nonneg z.toRat
  rw [List.all_eq_true] at hround
  obtain ⟨base, hbase, hx', hbaseWithin⟩ := quotient_of_round hd ⟨hplaces _ (by simp) x hx, by linarith⟩ hpositive hle
    (hround (d.quotient x (ofInt count)) (by simp))
  obtain ⟨taxes, htaxes, hy', htaxesWithin⟩ := quotient_of_round hd ⟨hplaces _ (by simp) y hy, by linarith⟩ hpositive
    hle (hround (d.quotient y (ofInt count)) (by simp))
  obtain ⟨ait, hait, hz', haitWithin⟩ := quotient_of_round hd ⟨hplaces _ (by simp) z hz, by linarith⟩ hpositive hle
    (hround (d.quotient z (ofInt count)) (by simp))
  have hgross : Within limit ((d.quotient x (ofInt count)).add (d.quotient y (ofInt count))) := by
    refine hbaseWithin.add htaxesWithin ?_
    have hbaseLe := abs_share_le hpositive (base / 100 : ℚ)
    have htaxesLe := abs_share_le hpositive (taxes / 100 : ℚ)
    rw [← hx', ← hbase] at hbaseLe
    rw [← hy', ← htaxes] at htaxesLe
    linarith
  let l : Line := ⟨cs.lower type, count, base, taxes, ait⟩
  refine ⟨l, ⟨⟨type, htype, rfl⟩, hcount, hpositive, ⟨x, hx, hx'⟩, ⟨y, hy, hy'⟩, ⟨z, hz, hz'⟩⟩, ?_,
    scale_addAssign_mul hscale hgross.scale _⟩
  refine hs.add (l := l) ?_ (hs.fares.fresh hnone) (Value.asU64?_lt hcount) hbase htaxes hait
  intro a ha n hn
  refine shows_numeric hd ?_ hn
  simp only [List.mem_cons, List.not_mem_nil, or_false] at ha
  rcases ha with rfl | rfl | rfl | rfl
  · exact hbaseWithin
  · exact htaxesWithin
  · exact haitWithin
  · exact hgross

/-- The run: every row has its line. -/
theorem rows_hold (hd : Exact d limit) {rows : List Value} {s s' : Fares} {lines : List Line} (hs : s.Holds lines)
    (hscale : s.total.scale.natAbs ≤ limit)
    (hfew : ∀ row ∈ rows, ∀ n, (row.field "count").asU64? = some n → n ≤ 9)
    (hwithin : ∀ row ∈ rows, RowPlaces limit row ∧ rowWorth row ≤ 10 ^ limit)
    (h : rows.foldlM (fareRow d cs) s = some s') :
    ∃ more, List.Forall₂ (Line.Aggregates cs) rows more ∧ s'.Holds (lines ++ more) ∧
      s'.total.scale.natAbs ≤ limit := by
  induction rows generalizing s lines with
  | nil =>
    rw [List.foldlM_nil, Option.pure_def, Option.some.injEq] at h
    subst h
    exact ⟨[], .nil, by rw [List.append_nil]; exact hs, hscale⟩
  | cons row rows ih =>
    rw [List.foldlM_cons, Option.bind_eq_bind, Option.bind_eq_some_iff] at h
    obtain ⟨next, hnext, hrest⟩ := h
    obtain ⟨hplaces, hworth⟩ := hwithin row List.mem_cons_self
    obtain ⟨l, hl, hholds, hnextScale⟩ :=
      fareRow_holds hd hs hscale (hfew row List.mem_cons_self) hplaces hworth hnext
    obtain ⟨more, hmore, hall, hlast⟩ := ih hholds hnextScale (fun r hr => hfew r (List.mem_cons_of_mem _ hr))
      (fun r hr => hwithin r (List.mem_cons_of_mem _ hr)) hrest
    rw [List.append_assoc, List.singleton_append] at hall
    exact ⟨l :: more, .cons hl hmore, hall, hlast⟩

/-- The flight of a saved import shows its fares: one line for each row, and the sum of the lines. -/
structure Recomposed (cs : Casing) (i : Imported) (flight : Value) (lines : List Line) : Prop where
  rows : ∃ rows, (((i.document.field "booking").field "ticketFare").field "fares") = .arr rows ∧
    List.Forall₂ (Line.Aggregates cs) rows lines
  nodup : (lines.map (·.kind)).Nodup
  fares : Keyed (flight.field "passengerFares") lines
  counts : Keyed (flight.field "passengerCounts") lines
  priced : ∀ l ∈ lines, l.Priced ((flight.field "passengerFares").field l.kind)
  counted : ∀ l ∈ lines, ((flight.field "passengerCounts").field l.kind).asU64? = some l.count
  total : Shows (flight.field "totalPrice") (due lines)

/-- Every saved row is about at most nine passengers. -/
def Imported.Few (i : Imported) : Prop :=
  ∀ rows, ((i.document.field "booking").field "ticketFare").field "fares" = .arr rows →
    ∀ row ∈ rows, ∀ n, (row.field "count").asU64? = some n → n ≤ 9

/-- What was captured of an import. -/
def Imported.captured (i : Imported) : ℚ := (asI64? (i.row.field "payable_minor")).elim 0 fun n => |(n : ℚ) / 100|

/-- The saved amounts have at most `limit` places, and come with what was captured to at most `10 ^ limit`. -/
def Imported.Within (limit : Nat) (i : Imported) : Prop :=
  ∀ rows, ((i.document.field "booking").field "ticketFare").field "fares" = .arr rows →
    (∀ row ∈ rows, RowPlaces limit row) ∧ (rows.map rowWorth).sum + i.captured ≤ 10 ^ limit

theorem Imported.captured_nonneg (i : Imported) : 0 ≤ i.captured := by
  unfold Imported.captured
  cases asI64? (i.row.field "payable_minor") with
  | none => exact le_refl _
  | some n => exact abs_nonneg ((n : ℚ) / 100)

/-- No row comes to more than all of them. -/
theorem Imported.Within.row {i : Imported} (h : i.Within limit) {rows : List Value}
    (hrows : ((i.document.field "booking").field "ticketFare").field "fares" = .arr rows) {row : Value}
    (hrow : row ∈ rows) : RowPlaces limit row ∧ rowWorth row ≤ 10 ^ limit := by
  obtain ⟨hplaces, hsum⟩ := h rows hrows
  refine ⟨hplaces row hrow, ?_⟩
  have hle : rowWorth row ≤ (rows.map rowWorth).sum := by
    refine List.single_le_sum ?_ _ (List.mem_map_of_mem hrow)
    intro q hq
    obtain ⟨r, -, rfl⟩ := List.mem_map.mp hq
    exact rowWorth_nonneg r
  have hcaptured := i.captured_nonneg
  linarith

theorem flightOf_total (i : Imported) (s : Fares) (legs : List Value) :
    (flightOf d i s legs).field "totalPrice" = numeric d s.total := by
  rw [flightOf, Value.field, Value.get?_object]
  rfl

theorem flightOf_counts (i : Imported) (s : Fares) (legs : List Value) :
    (flightOf d i s legs).field "passengerCounts" = s.counts := by
  rw [flightOf, Value.field, Value.get?_object]
  rfl

theorem flightOf_fares (i : Imported) (s : Fares) (legs : List Value) :
    (flightOf d i s legs).field "passengerFares" = s.fares := by
  rw [flightOf, Value.field, Value.get?_object]
  rfl

/-- No row has been read yet. -/
theorem Fares.holds_nil : Fares.Holds ⟨.object [], .object [], ofInt 0⟩ [] :=
  ⟨List.nodup_nil, ⟨[], rfl, .refl _⟩, ⟨[], rfl, .refl _⟩, fun _ hl => absurd hl List.not_mem_nil,
    fun _ hl => absurd hl List.not_mem_nil, by rw [toRat_ofInt]; simp [due]⟩

theorem flight_ok (hd : Exact d limit) {i : Imported} {flight : Value} (hfew : i.Few) (hwithin : i.Within limit)
    (h : i.flight d cs = some flight) : ∃ lines, Recomposed cs i flight lines ∧
      |(due lines : ℚ) / 100| + i.captured ≤ 10 ^ limit ∧
      ∃ x, decimal (flight.field "totalPrice") = some x ∧ x.scale.natAbs ≤ limit := by
  simp only [Imported.flight, Option.bind_eq_bind, Option.bind_eq_some_iff, Option.pure_def,
    Option.some.injEq, Option.filter_eq_some_iff, Value.asArray?_eq_some] at h
  obtain ⟨rows, ⟨hrows, -⟩, s, hs, legs, -, -, -, rfl⟩ := h
  obtain ⟨lines, hlines, hholds, hscale⟩ := rows_hold hd Fares.holds_nil (Nat.zero_le _) (hfew rows hrows)
    (fun row hrow => hwithin.row hrows hrow) hs
  rw [List.nil_append] at hholds
  have hworth : |(due lines : ℚ) / 100| + i.captured ≤ 10 ^ limit :=
    le_trans (add_le_add_left (due_worth hlines) _) (hwithin rows hrows).2
  have htotal : Within limit s.total := by
    refine ⟨hscale, ?_⟩
    have hcaptured := i.captured_nonneg
    rw [hholds.total]
    linarith
  obtain ⟨x, hx, hvalue, hplaces⟩ := hd.shows s.total _ htotal hholds.total
  refine ⟨lines, ⟨⟨rows, hrows, hlines⟩, hholds.nodup, ?_, ?_, ?_, ?_, ?_⟩, hworth, x, ?_, hplaces⟩
  · rw [flightOf_fares]
    exact hholds.fares
  · rw [flightOf_counts]
    exact hholds.counts
  · rw [flightOf_fares]
    exact hholds.priced
  · rw [flightOf_counts]
    exact hholds.counted
  · rw [flightOf_total]
    exact ⟨_, x, rfl, hx, hvalue⟩
  · rw [flightOf_total]
    exact hx

theorem Recomposed.count_bounds {i : Imported} {flight : Value} {lines : List Line}
    (h : Recomposed cs i flight lines) (hfew : i.Few) {l : Line} (hl : l ∈ lines) :
    0 < l.count ∧ l.count ≤ 9 := by
  obtain ⟨rows, hrows, hlines⟩ := h.rows
  obtain ⟨row, hrow, haggregates⟩ := exists_left hlines hl
  exact ⟨haggregates.positive, hfew rows hrows row hrow l.count haggregates.count⟩

/-! ## Captured payments -/

/-- The passenger of the snapshot of one line. -/
def Line.passenger (l : Line) (count : Value) (per : Int) : Value :=
  .object [("count", count), ("gross", .str (twoPlaces l.gross)), ("commission", .str (twoPlaces (l.gross - per))),
    ("payable", .str (twoPlaces per))]

/-- The snapshot of one line as it is written, its amounts in minor units. -/
def Line.quote (l : Line) (currency count : Value) (minor per : Int) : Value :=
  .object [("version", .ofInt 1), ("currency", currency), ("tier", .str "legacy_import"),
    ("gross", .str (twoPlaces (l.count * l.gross))), ("commission", .str (twoPlaces (l.count * l.gross - minor))),
    ("payable", .str (twoPlaces minor)),
    ("passengers", .object [(l.kind, l.passenger count per)])]

theorem legacySnapshot_eq (hd : Exact d limit) {l : Line} {currency count : Value}
    {gross perGross payable perPayable : BigDecimal} {minor per : Int}
    (hgross : gross.toRat = (l.count * l.gross : Int) / 100) (hperGross : perGross.toRat = l.gross / 100)
    (hpayable : payable.toRat = minor / 100) (hper : perPayable.toRat = per / 100)
    (hwithin : ∀ a ∈ [gross, gross.sub payable, payable, perGross, perGross.sub perPayable, perPayable],
      Within limit a) :
    legacySnapshot d currency l.kind count gross perGross payable perPayable = l.quote currency count minor per := by
  have hcommission : (gross.sub payable).toRat = ((l.count * l.gross - minor : Int) : ℚ) / 100 := by
    rw [toRat_sub, hgross, hpayable, Int.cast_sub, sub_div]
  have hperCommission : (perGross.sub perPayable).toRat = ((l.gross - per : Int) : ℚ) / 100 := by
    rw [toRat_sub, hperGross, hper, Int.cast_sub, sub_div]
  have hfixed : ∀ a ∈ [gross, gross.sub payable, payable, perGross, perGross.sub perPayable, perPayable], ∀ n : Int,
      a.toRat = n / 100 → d.fixed a = twoPlaces n := fun a ha n => hd.rounds a n (hwithin a ha)
  rw [legacySnapshot, formatted, formatted, formatted, formatted, formatted, formatted,
    hfixed _ (by simp) _ hgross, hfixed _ (by simp) _ hcommission, hfixed _ (by simp) _ hpayable,
    hfixed _ (by simp) _ hperGross, hfixed _ (by simp) _ hperCommission, hfixed _ (by simp) _ hper, Line.quote,
    Line.passenger]

/-- The texts of the snapshot have two places. -/
theorem quote_twoPlaces (l : Line) (currency count : Value) (minor per : Int) :
    TwoPlaces (l.quote currency count minor per) := by
  constructor
  · intro passengers hpassengers entry hentry key hkey a ha
    rw [Line.quote, Value.field, Value.get?_object] at hpassengers
    have hone : passengers = [(l.kind, l.passenger count per)] := by
      symm
      simpa [Value.object, Value.insertField] using hpassengers
    rw [hone] at hentry
    rw [List.mem_singleton.mp (Value.mem_entries hentry)] at ha
    simp only [List.mem_cons, List.not_mem_nil, or_false] at hkey
    rcases hkey with rfl | rfl | rfl
    all_goals
      rw [Line.passenger, Value.field, Value.get?_object] at ha
      exact ⟨_, ((displayAmount_str _).symm.trans ha |> Option.some.inj).symm⟩
  · intro a ha
    rw [Line.quote, Value.field, Value.get?_object] at ha
    exact ⟨_, ((displayAmount_str _).symm.trans ha |> Option.some.inj).symm⟩

/-- Whatever breakdown is built of the snapshot has its payable. -/
theorem quote_breakdown (hd : Exact d limit) {l : Line} {currency count fare b : Value} {minor per : Int}
    (h : breakdown d (l.quote currency count minor per) fare = some b) :
    b.field "payable" = .str (twoPlaces minor) := by
  obtain ⟨rows, hbroken⟩ := breakdown_ok hd.toPlain (quote_twoPlaces l currency count minor per) h
  obtain ⟨text, -, rfl⟩ := hbroken.text
  have hpayable : displayAmount ((l.quote currency count minor per).field "payable") = some ⟨minor, 2⟩ := by
    rw [Line.quote, Value.field, Value.get?_object]
    exact displayAmount_str minor
  have htotal : (total rows).payable = minor := by
    have heq := hpayable.symm.trans hbroken.payable
    injection heq with heq
    injection heq with heq
    exact heq.symm
  rw [Value.field, Value.get?_object, ← htotal]
  rfl

theorem Shows.display {v : Value} {n : Int} (h : Shows v n) :
    ∃ x, displayAmount v = some x ∧ x.withScaleRound 2 = ⟨n, 2⟩ := by
  obtain ⟨text, x, rfl, hx, hvalue⟩ := h
  exact ⟨x, hx, withScaleRound_of_toRat hvalue⟩

/-- The row of the line has its payable last, unless an amount is negative. -/
theorem breakdownRow_line {l : Line} {fare count : Value} (per : Int)
    (hpriced : l.Priced ((fare.field "passengerFares").field l.kind)) (hcount : count.asU64? = some l.count)
    (hpositive : 0 < l.count) :
    ∃ amounts : List BigDecimal, amounts.getD 6 (ofInt 0) = ⟨per, 2⟩ ∧
      breakdownRow fare (l.kind, l.passenger count per) =
        if 0 ≤ l.base ∧ 0 ≤ l.taxes ∧ 0 ≤ l.ait ∧ 0 ≤ per then some (l.kind, l.count, amounts) else none := by
  obtain ⟨base, hbase, hbase'⟩ := hpriced.base.display
  obtain ⟨taxes, htaxes, htaxes'⟩ := hpriced.taxes.display
  obtain ⟨ait, hait, hait'⟩ := hpriced.ait.display
  have hcounted : ((l.passenger count per).field "count").asU64? = some l.count := by
    rw [Line.passenger, Value.field, Value.get?_object]
    exact hcount
  have hgross : displayAmount ((l.passenger count per).field "gross") = some ⟨l.gross, 2⟩ := by
    rw [Line.passenger, Value.field, Value.get?_object]
    exact displayAmount_str _
  have hcommission : displayAmount ((l.passenger count per).field "commission") = some ⟨l.gross - per, 2⟩ := by
    rw [Line.passenger, Value.field, Value.get?_object]
    exact displayAmount_str _
  have hpayable : displayAmount ((l.passenger count per).field "payable") = some ⟨per, 2⟩ := by
    rw [Line.passenger, Value.field, Value.get?_object]
    exact displayAmount_str _
  have hguard : (l.gross = l.gross - per + per ∧ ¬ ([⟨l.base, 2⟩, ⟨l.taxes, 2⟩, ⟨l.ait, 2⟩,
      (⟨per, 2⟩ : BigDecimal)].any isNegative) = true) ↔ 0 ≤ l.base ∧ 0 ≤ l.taxes ∧ 0 ≤ l.ait ∧ 0 ≤ per := by
    simp [isNegative]
  simp only [breakdownRow, hcounted, hbase, htaxes, hait, hgross, hcommission, hpayable, hbase', htaxes', hait',
    add_minor, cmp_minor, sub_minor, hguard, Option.bind_eq_bind, Option.bind_some, Option.filter_some,
    decide_eq_true hpositive, if_true]
  have hguarded : ∀ amounts : List BigDecimal,
      (guard (0 ≤ l.base ∧ 0 ≤ l.taxes ∧ 0 ≤ l.ait ∧ 0 ≤ per) : Option Unit).bind
          (fun _ => pure (l.kind, l.count, amounts)) =
        if 0 ≤ l.base ∧ 0 ≤ l.taxes ∧ 0 ≤ l.ait ∧ 0 ≤ per then some (l.kind, l.count, amounts) else none := by
    intro amounts
    by_cases hnonneg : 0 ≤ l.base ∧ 0 ≤ l.taxes ∧ 0 ≤ l.ait ∧ 0 ≤ per
    · rw [guard, if_pos hnonneg, if_pos hnonneg]
      rfl
    · rw [guard, if_neg hnonneg, if_neg hnonneg]
      rfl
  split
  · exact ⟨_, List.getD_cons_succ.trans rfl, hguarded _⟩
  · exact ⟨_, rfl, hguarded _⟩

/-- A breakdown is attached exactly when the currency is a text and no amount is negative. -/
theorem quote_attached {l : Line} {currency count fare : Value} {minor per : Int}
    (hpriced : l.Priced ((fare.field "passengerFares").field l.kind)) (hcount : count.asU64? = some l.count)
    (hpositive : 0 < l.count) (hminor : l.count * per = minor) :
    (breakdown d (l.quote currency count minor per) fare).isSome ↔
      (∃ text, currency = .str text) ∧ 0 ≤ l.base ∧ 0 ≤ l.taxes ∧ 0 ≤ l.ait ∧ 0 ≤ per := by
  obtain ⟨amounts, hlast, hrow⟩ := breakdownRow_line per hpriced hcount hpositive
  have htier : (l.quote currency count minor per).field "tier" = .str "legacy_import" := by
    rw [Line.quote, Value.field, Value.get?_object]
    rfl
  have hcurrency : (l.quote currency count minor per).field "currency" = currency := by
    rw [Line.quote, Value.field, Value.get?_object]
    rfl
  have hpayable : displayAmount ((l.quote currency count minor per).field "payable") = some ⟨minor, 2⟩ := by
    rw [Line.quote, Value.field, Value.get?_object]
    exact displayAmount_str minor
  have hpassengers : (l.quote currency count minor per).field "passengers" =
      .obj [(l.kind, l.passenger count per)] := by
    rw [Line.quote, Value.field, Value.get?_object]
    rfl
  have hrows : (Value.entries [(l.kind, l.passenger count per)]).mapM (breakdownRow fare) =
      if 0 ≤ l.base ∧ 0 ≤ l.taxes ∧ 0 ≤ l.ait ∧ 0 ≤ per then some [(l.kind, l.count, amounts)] else none := by
    show [(l.kind, l.passenger count per)].mapM (breakdownRow fare) = _
    rw [List.mapM_cons, hrow]
    split
    · rfl
    · rfl
  have hpaid : IsMinor (weighted (fun r : String × Nat × List BigDecimal => r.2.2.getD 6 (ofInt 0)) (·.2.1)
      [(l.kind, l.count, amounts)]) minor := by
    have hsum := IsMinor.zero.addAssign ((IsMinor.two per).mul l.count)
    rw [Int.zero_add, Int.mul_comm, hminor, ← hlast] at hsum
    exact hsum
  rw [Option.isSome_iff_exists]
  simp only [breakdown, htier, hcurrency, hpayable, hpassengers, Option.bind_eq_bind, Option.bind_eq_some_iff,
    Option.guard_eq_some', Option.pure_def, Option.some.injEq, exists_const, Value.asStr?_eq_some,
    Value.asObject?_eq_some]
  constructor
  · rintro ⟨b, -, text, rfl, passengers, heq, found, hfound, -⟩
    cases heq
    rw [hrows] at hfound
    split at hfound
    · rename_i hnonneg
      exact ⟨⟨text, rfl⟩, hnonneg⟩
    · cases hfound
  · rintro ⟨⟨text, rfl⟩, hnonneg⟩
    refine ⟨_, by decide, text, rfl, _, rfl, [(l.kind, l.count, amounts)], ?_, _, rfl, ?_, rfl⟩
    · rw [hrows, if_pos hnonneg]
    · show (weighted (fun r : String × Nat × List BigDecimal => r.2.2.getD 6 (ofInt 0)) (·.2.1)
        [(l.kind, l.count, amounts)]).cmp ⟨minor, 2⟩ = .eq
      rw [hpaid.cmp (.two minor)]

/-- An object of one field is about one line. -/
theorem Keyed.single {lines : List Line} {kind : String} {count : Value}
    (h : Keyed (.obj [(kind, count)]) lines) : ∃ l, lines = [l] ∧ l.kind = kind := by
  obtain ⟨fields, heq, hperm⟩ := h
  cases heq
  have hkinds : lines.map (·.kind) = [kind] := List.perm_singleton.mp hperm.symm
  cases lines with
  | nil => cases hkinds
  | cons l rest =>
    rw [List.map_cons, List.cons.injEq, List.map_eq_nil_iff] at hkinds
    exact ⟨l, by rw [hkinds.2], hkinds.1⟩

/-- The pricing of an import that was not priced here, of which `minor` was captured, `per` from every
passenger of its one line. -/
structure Captured (i : Imported) (l : Line) (minor per : Int) (pricing : Value) : Prop where
  captured : asI64? (i.row.field "payable_minor") = some minor
  recomposed : l.count * per = minor
  payable : pricing.field "payable" = .str (twoPlaces minor)
  /-- The payable is what the commission leaves of the gross. -/
  gross : ∃ commission, pricing.field "commission" = .str (twoPlaces commission) ∧
    pricing.field "gross" = .str (twoPlaces (commission + minor))
  passenger : ∃ row, pricing.field "passengers" = .obj [(l.kind, row)] ∧
    (row.field "count").asU64? = some l.count ∧ row.field "payable" = .str (twoPlaces per) ∧
    ∃ commission, row.field "commission" = .str (twoPlaces commission) ∧
      row.field "gross" = .str (twoPlaces (commission + per))
  breakdown : ∀ b, pricing.get? "fareBreakdown" = some b → b.field "payable" = .str (twoPlaces minor)
  attached : (pricing.get? "fareBreakdown").isSome ↔ (∃ text, i.row.field "currency" = .str text) ∧
    0 ≤ l.base ∧ 0 ≤ l.taxes ∧ 0 ≤ l.ait ∧ 0 ≤ per

/-- The snapshot of a line, with its breakdown and without a tier. -/
theorem quote_captured (hd : Exact d limit) {i : Imported} {l : Line} {count fare : Value} {minor per : Int}
    (hpriced : l.Priced ((fare.field "passengerFares").field l.kind)) (hcount : count.asU64? = some l.count)
    (hpositive : 0 < l.count) (hminor : l.count * per = minor)
    (hcaptured : asI64? (i.row.field "payable_minor") = some minor) :
    Captured i l minor per
      ((enrich d (l.quote (i.row.field "currency") count minor per) fare).setField "tier" .null) := by
  have hfield : ∀ key, key ≠ "tier" → key ≠ "fareBreakdown" →
      ((enrich d (l.quote (i.row.field "currency") count minor per) fare).setField "tier" .null).field key =
        (l.quote (i.row.field "currency") count minor per).field key := by
    intro key htier hbreakdown
    rw [Value.field_setField_ne htier, field_enrich hbreakdown]
  have hattached : ((enrich d (l.quote (i.row.field "currency") count minor per) fare).setField "tier" .null).get?
      "fareBreakdown" = breakdown d (l.quote (i.row.field "currency") count minor per) fare := by
    rw [Value.get?_setField_ne (by decide), enrich]
    cases h : breakdown d (l.quote (i.row.field "currency") count minor per) fare with
    | none =>
      show (l.quote _ count minor per).get? "fareBreakdown" = none
      rw [Line.quote, Value.get?_object]
      rfl
    | some b => exact Value.get?_setField_self rfl
  have hread : ∀ key v, key ≠ "tier" → key ≠ "fareBreakdown" →
      (l.quote (i.row.field "currency") count minor per).get? key = some v →
      ((enrich d (l.quote (i.row.field "currency") count minor per) fare).setField "tier" .null).field key = v := by
    intro key v htier hbreakdown hv
    rw [hfield key htier hbreakdown, Value.field_of_get? hv]
  constructor
  · exact hcaptured
  · exact hminor
  · refine hread _ _ (by decide) (by decide) ?_
    rw [Line.quote, Value.get?_object]
    rfl
  · refine ⟨l.count * l.gross - minor, hread _ _ (by decide) (by decide) ?_, ?_⟩
    · rw [Line.quote, Value.get?_object]
      rfl
    · refine hread _ _ (by decide) (by decide) ?_
      rw [Line.quote, Value.get?_object, Int.sub_add_cancel]
      rfl
  · refine ⟨l.passenger count per, hread _ _ (by decide) (by decide) ?_, ?_, ?_, l.gross - per, ?_, ?_⟩
    · rw [Line.quote, Value.get?_object]
      rfl
    all_goals rw [Line.passenger, Value.field, Value.get?_object]
    · exact hcount
    · rfl
    · rfl
    · rw [Int.sub_add_cancel]
      rfl
  · intro b hb
    rw [hattached] at hb
    exact quote_breakdown hd hb
  · rw [hattached]
    exact quote_attached hpriced hcount hpositive hminor

/-- What was captured for a line and the line's fare are shared by its passengers in whole cents. -/
theorem legacySnapshot_shared (hd : Exact d limit) {l : Line} {currency count : Value} {gross : BigDecimal} {minor : Int}
    (hpositive : 0 < l.count) (hle : l.count ≤ 9) (hgross : gross.toRat = (l.count * l.gross : Int) / 100)
    (hscale : gross.scale.natAbs ≤ limit) (hworth : |gross.toRat| + |(minor : ℚ) / 100| ≤ 10 ^ limit)
    (hround : isRound (d.quotient (d.quotient (ofInt minor) (ofInt 100)) (ofInt l.count)) = true) :
    ∃ per : Int, l.count * per = minor ∧
      legacySnapshot d currency l.kind count gross (d.quotient gross (ofInt l.count))
          (d.quotient (ofInt minor) (ofInt 100)) (d.quotient (d.quotient (ofInt minor) (ofInt 100)) (ofInt l.count)) =
        l.quote currency count minor per := by
  have hgross₀ := abs_nonneg gross.toRat
  have hminor₀ := abs_nonneg ((minor : ℚ) / 100)
  -- What was captured, for all passengers and for one.
  obtain ⟨hpayable, hpayableScale⟩ := hd.hundredth minor (by linarith)
  have hpayableWithin : Within limit (d.quotient (ofInt minor) (ofInt 100)) :=
    ⟨hpayableScale, by rw [hpayable]; linarith⟩
  obtain ⟨per, hper, hrecomposed, hperWithin⟩ := quotient_of_round hd hpayableWithin hpositive hle hround
  have hminorEq : (l.count * per : Int) = minor := by
    rw [hpayable] at hrecomposed
    have hcast : (l.count : ℚ) * per = minor := by linarith
    exact_mod_cast hcast
  -- What the fare is, for all passengers and for one.
  have hgrossWithin : Within limit gross := ⟨hscale, by linarith⟩
  have hshared : gross.toRat = l.count * (l.gross / 100 : ℚ) := by
    rw [hgross]
    push_cast
    ring
  obtain ⟨hperGross, hperGrossScale⟩ := hd.divides gross l.count l.gross hgrossWithin hpositive hle hshared
  -- A share is no larger than the whole, so the commissions stay in the range as well.
  have hperGrossLe : |(d.quotient gross (ofInt l.count)).toRat| ≤ |gross.toRat| := by
    rw [hperGross, hshared]
    exact abs_share_le hpositive _
  have hperLe : |(d.quotient (d.quotient (ofInt minor) (ofInt 100)) (ofInt l.count)).toRat| ≤
      |(d.quotient (ofInt minor) (ofInt 100)).toRat| := by
    rw [hper, hrecomposed]
    exact abs_share_le hpositive _
  have hsum : |gross.toRat| + |(d.quotient (ofInt minor) (ofInt 100)).toRat| ≤ 10 ^ limit := by rwa [hpayable]
  have hperGrossWithin : Within limit (d.quotient gross (ofInt l.count)) :=
    ⟨hperGrossScale, le_trans hperGrossLe hgrossWithin.value⟩
  refine ⟨per, hminorEq, legacySnapshot_eq hd hgross hperGross hpayable hper fun a ha => ?_⟩
  simp only [List.mem_cons, List.not_mem_nil, or_false] at ha
  rcases ha with rfl | rfl | rfl | rfl | rfl | rfl
  · exact hgrossWithin
  · exact hgrossWithin.sub hpayableWithin hsum
  · exact hpayableWithin
  · exact hperGrossWithin
  · exact hperGrossWithin.sub hperWithin (le_trans (add_le_add hperGrossLe hperLe) hsum)
  · exact hperWithin

theorem pricing_ok (hd : Exact d limit) {i : Imported} {pricing : Value} (hfew : i.Few) (hwithin : i.Within limit)
    (hsaved : i.saved = none) (h : i.pricing d cs = .ok pricing) : ∃ flight l minor per,
      i.flight d cs = some flight ∧ Recomposed cs i flight [l] ∧ Captured i l minor per pricing := by
  unfold Imported.pricing at h
  rw [hsaved] at h
  simp only [bind_eq_ok, fetch_eq_ok, Value.asObject?_eq_some] at h
  obtain ⟨fare, hfare, types, htypes, h⟩ := h
  obtain ⟨lines, hlines, hworth, hshown⟩ := flight_ok hd hfew hwithin hfare
  cases types with
  | nil => cases h
  | cons f rest =>
    cases rest with
    | cons f' rest => cases h
    | nil =>
      obtain ⟨kind, count⟩ := f
      simp only [bind_eq_ok, fetch_eq_ok, ensure_eq_ok, pure_eq_ok] at h
      obtain ⟨n, hn, minor, hminor, -, hround, gross, hgross, rfl⟩ := h
      have hkeyed := hlines.counts
      rw [htypes] at hkeyed
      obtain ⟨l, rfl, rfl⟩ := hkeyed.single
      have hcounted := hlines.counted l List.mem_cons_self
      have hcountField : (Value.obj [(l.kind, count)]).field l.kind = count := by
        simp [Value.field, Value.get?]
      rw [htypes, hcountField] at hcounted
      obtain rfl : l.count = n := Option.some.inj (hcounted.symm.trans hn)
      obtain ⟨hpositive, hle⟩ := hlines.count_bounds hfew List.mem_cons_self
      have hdue : (due [l] : ℚ) / 100 = (l.count * l.gross : Int) / 100 := by simp [due]
      have hgrossValue : gross.toRat = (l.count * l.gross : Int) / 100 := by
        obtain ⟨text, x, htext, hx, hvalue⟩ := hlines.total
        rw [htext] at hgross
        obtain rfl : x = gross := Option.some.inj (hx.symm.trans hgross)
        rw [hvalue, hdue]
      have hscale : gross.scale.natAbs ≤ limit := by
        obtain ⟨x, hx, hscale⟩ := hshown
        obtain rfl : x = gross := Option.some.inj (hx.symm.trans hgross)
        exact hscale
      have hcaptured : i.captured = |(minor : ℚ) / 100| := by
        rw [Imported.captured, hminor]
        rfl
      rw [hcaptured, hdue, ← hgrossValue] at hworth
      obtain ⟨per, hminorEq, hsnapshot⟩ := legacySnapshot_shared hd hpositive hle hgrossValue hscale hworth hround
      rw [hsnapshot]
      exact ⟨fare, l, minor, per, hfare, hlines, quote_captured hd (hlines.priced l List.mem_cons_self) hn
        hpositive hminorEq hminor⟩

/-- An imported fare is shown without inventing money: one kind for each saved row, whose amounts of two
places times its count are the saved ones, and their sum; and what an import without a snapshot was
charged is its pricing, for the whole booking, for one passenger and in the breakdown. -/
theorem imported_recomposes (hd : Exact d limit) (cs : Casing) (i : Imported) (hfew : i.Few)
    (hwithin : i.Within limit) :
    (∀ flight, i.flight d cs = some flight → ∃ lines, Recomposed cs i flight lines) ∧
    ∀ pricing, i.saved = none → i.pricing d cs = .ok pricing → ∃ flight l minor per,
      i.flight d cs = some flight ∧ Recomposed cs i flight [l] ∧ Captured i l minor per pricing := by
  constructor
  · intro flight h
    obtain ⟨lines, hlines, -⟩ := flight_ok hd hfew hwithin h
    exact ⟨lines, hlines⟩
  · exact fun pricing hsaved h => pricing_ok hd hfew hwithin hsaved h

/-! ## A sample -/

/-- Quotients of cents. -/
def exactDecimals : Decimals where
  display := sampleDecimals.display
  fixed := sampleDecimals.fixed
  quotient a b :=
    let cents := a.withScaleRound 2
    if a.cmp cents = .eq ∧ b.digits ∣ cents.digits then ⟨cents.digits / b.digits, 2⟩ else ⟨1, 3⟩

theorem exactDecimals_quotient {n : Nat} {units : Int} (hpos : 0 < n) (h : a.toRat = n * (units / 100 : ℚ)) :
    exactDecimals.quotient a (ofInt n) = ⟨units, 2⟩ := by
  have hcents : a.toRat = ((n * units : Int) : ℚ) / 100 := by
    rw [h]
    push_cast
    ring
  have hround : a.withScaleRound 2 = ⟨n * units, 2⟩ := withScaleRound_of_toRat hcents
  have hsame : a.cmp ⟨n * units, 2⟩ = .eq := by
    rw [cmp_eq_eq, hcents, toRat_minor]
  show (if a.cmp (a.withScaleRound 2) = .eq ∧ (n : Int) ∣ (a.withScaleRound 2).digits then _ else _ : BigDecimal) = _
  rw [hround, if_pos ⟨hsame, Dvd.intro _ rfl⟩]
  show (⟨n * units / n, 2⟩ : BigDecimal) = _
  rw [Int.mul_ediv_cancel_left _ (Int.natCast_ne_zero.mpr hpos.ne')]

theorem exactDecimals_rest {n : Nat} (h : ∀ units : Int, a.toRat ≠ n * (units / 100 : ℚ)) :
    isRound (exactDecimals.quotient a (ofInt n)) = false := by
  have hnone : ¬ (a.cmp (a.withScaleRound 2) = .eq ∧ (n : Int) ∣ (a.withScaleRound 2).digits) := by
    rintro ⟨hsame, units, hunits⟩
    rw [cmp_eq_eq, withScaleRound_scale, toRat_minor, hunits] at hsame
    refine h units (hsame.trans ?_)
    push_cast
    ring
  show isRound (if a.cmp (a.withScaleRound 2) = .eq ∧ (n : Int) ∣ (a.withScaleRound 2).digits then _ else _) = false
  rw [if_neg hnone]
  decide

theorem exactDecimals_exact (hplaces : 2 ≤ limit) (hlarge : (limit : Int) ≤ bigintMax) :
    Exact exactDecimals limit where
  reads := sampleDecimals_plain.reads
  places := sampleDecimals_plain.places
  fixed := sampleDecimals_plain.fixed
  shows a n ha h := by
    obtain ⟨x, hx, hvalue, hscale⟩ := parse_written (a := a) (by have := ha.scale; omega)
    exact ⟨x, hx, hvalue.trans h, le_trans hscale ha.scale⟩
  rounds a n _ h := congrArg twoPlaces (minor_of_toRat h)
  divides a n units _ hpos _ h := by
    rw [exactDecimals_quotient hpos h]
    exact ⟨toRat_minor units, hplaces⟩
  rest a n _ _ _ h := exactDecimals_rest h
  hundredth n _ := by
    have hquotient : exactDecimals.quotient (ofInt n) (ofInt 100) = ⟨n, 2⟩ := by
      refine exactDecimals_quotient (n := 100) (by decide) ?_
      rw [toRat_ofInt]
      push_cast
      ring
    rw [hquotient]
    exact ⟨toRat_minor n, hplaces⟩

def sampleRow : Value :=
  .object [("passengerType", .str "ADT"), ("count", .ofInt 2), ("basePrice", .str "1000.50"),
    ("taxes", .num "200.1"), ("ait", .ofInt 3)]

/-- The casing of ASCII letters. -/
def asciiCasing : Casing := ⟨fun c => [c.toUpper], Booking.toUpper_ne_nil, toAsciiLowercase⟩

/-- Two adults who paid less than the gross. -/
def sampleImported : Imported where
  row := .object [("source", .str "MANUAL"), ("currency", .str "BDT"), ("payable_minor", .ofInt 100002)]
  document := .object [("booking", .object [("currency", .str "BDT"),
    ("ticketFare", .object [("fares", .arr [sampleRow])]), ("itinerary", .object [("legs", .arr [])])])]

theorem sampleImported_few : sampleImported.Few := by
  intro rows hrows row hrow n hn
  have hread : ((sampleImported.document.field "booking").field "ticketFare").field "fares" = .arr [sampleRow] := by
    decide +kernel
  have hcount : (sampleRow.field "count").asU64? = some 2 := by decide +kernel
  cases hread.symm.trans hrows
  rw [List.mem_singleton.mp hrow, hcount] at hn
  cases hn
  decide

theorem sampleImported_within : sampleImported.Within 4 := by
  intro rows hrows
  have hread : ((sampleImported.document.field "booking").field "ticketFare").field "fares" = .arr [sampleRow] := by
    decide +kernel
  have hbase : decimal (sampleRow.field "basePrice") = some ⟨100050, 2⟩ := by decide +kernel
  have htaxes : decimal (sampleRow.field "taxes") = some ⟨2001, 1⟩ := by decide +kernel
  have hait : decimal (sampleRow.field "ait") = some ⟨3, 0⟩ := by decide +kernel
  have hminor : asI64? (sampleImported.row.field "payable_minor") = some 100002 := by decide +kernel
  obtain rfl := Value.arr.inj (hread.symm.trans hrows)
  constructor
  · intro row hrow key hkey x hx
    rw [List.mem_singleton.mp hrow] at hx
    simp only [List.mem_cons, List.not_mem_nil, or_false] at hkey
    rcases hkey with rfl | rfl | rfl
    · rw [← Option.some.inj (hbase.symm.trans hx)]
      decide
    · rw [← Option.some.inj (htaxes.symm.trans hx)]
      decide
    · rw [← Option.some.inj (hait.symm.trans hx)]
      decide
  · rw [List.map_singleton, List.sum_singleton, rowWorth, amountOf_read hbase, amountOf_read htaxes, amountOf_read hait,
      Imported.captured, hminor]
    norm_num [toRat, abs_of_pos]

theorem imported_recomposes_pair : ∃ flight pricing,
    sampleImported.flight exactDecimals asciiCasing = some flight ∧
    sampleImported.pricing exactDecimals asciiCasing = .ok pricing ∧
    pricing.field "payable" = .str "1000.02" ∧
    (∃ lines, Recomposed asciiCasing sampleImported flight lines) ∧
    ∃ l minor per, Captured sampleImported l minor per pricing := by
  have hpriced : (sampleImported.pricing exactDecimals asciiCasing).map (·.field "payable") =
      .ok (.str "1000.02") := by
    decide +kernel
  have hflown : (sampleImported.flight exactDecimals asciiCasing).isSome := by
    decide +kernel
  obtain ⟨pricing, hpricing, hpayable⟩ := map_eq_ok.mp hpriced
  obtain ⟨flight, hflight⟩ := Option.isSome_iff_exists.mp hflown
  obtain ⟨hshown, hcharged⟩ := imported_recomposes (exactDecimals_exact (by decide) (by decide)) asciiCasing
    sampleImported sampleImported_few sampleImported_within
  obtain ⟨_, l, minor, per, -, -, hcaptured⟩ := hcharged pricing (by decide +kernel) hpricing
  exact ⟨flight, pricing, hflight, hpricing, hpayable, hshown flight hflight, l, minor, per, hcaptured⟩

end ShaponTravels.Imports
