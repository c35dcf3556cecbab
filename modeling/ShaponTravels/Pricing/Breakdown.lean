import ShaponTravels.Pricing.RoundTrip

/-!
# Breakdown — the displayed fare reconciles with what is paid

The breakdown of a quote splits what is paid into the parts of the supplier's fare and an adjustment.
Each amount is followed by its minor units.
-/

namespace ShaponTravels.Pricing

open Library BigDecimal

variable {d : Decimals} {original gross pricing fare b : Value} {tier : Option Tier} {share : Int}
  {currency : String} {markup : Markup}

/-! ## Rows -/

/-- The amounts of a row of the breakdown, or of its root, in minor units. -/
structure Split where
  baseFare : Int
  taxes : Int
  ait : Int
  serviceCharge : Int
  discount : Int
  gross : Int
  payable : Int

namespace Split

def amounts (s : Split) : List Int :=
  [s.baseFare, s.taxes, s.ait, s.serviceCharge, s.discount, s.gross, s.payable]

/-- The parts make up what is paid. -/
def Reconciles (s : Split) : Prop :=
  s.baseFare + s.taxes + s.ait + s.serviceCharge - s.discount = s.payable

/-- The fields a split is displayed as. -/
def fields (s : Split) : List (String × Value) :=
  (breakdownKeys.zip s.amounts).map fun p => (p.1, .str (twoPlaces p.2))

end Split

/-- A displayed row: the passenger kind, its count and its amounts. -/
structure Row where
  kind : String
  count : Nat
  split : Split

/-- The split of all passengers. -/
def total (rows : List Row) : Split where
  baseFare := (rows.map fun r => r.split.baseFare * (r.count : Int)).sum
  taxes := (rows.map fun r => r.split.taxes * (r.count : Int)).sum
  ait := (rows.map fun r => r.split.ait * (r.count : Int)).sum
  serviceCharge := (rows.map fun r => r.split.serviceCharge * (r.count : Int)).sum
  discount := (rows.map fun r => r.split.discount * (r.count : Int)).sum
  gross := (rows.map fun r => r.split.gross * (r.count : Int)).sum
  payable := (rows.map fun r => r.split.payable * (r.count : Int)).sum

theorem reconciles_total {rows : List Row} (h : ∀ r ∈ rows, r.split.Reconciles) :
    (total rows).Reconciles := by
  induction rows with
  | nil => rfl
  | cons r rows ih =>
    have hrest := ih fun r' hr' => h r' (List.mem_cons_of_mem _ hr')
    have hr := congrArg (· * (r.count : Int)) (h r List.mem_cons_self)
    simp only [Split.Reconciles, total, List.map_cons, List.sum_cons, Int.add_mul, Int.sub_mul] at hrest hr ⊢
    omega

/-- What a row shows of the entry of the quote it is about. -/
structure Row.Shows (entry : String × Value) (r : Row) : Prop where
  kind : r.kind = entry.1
  count : (entry.2.field "count").asU64? = some r.count
  payable : displayAmount (entry.2.field "payable") = some ⟨r.split.payable, 2⟩
  gross : ∃ g, displayAmount (entry.2.field "gross") = some ⟨g, 2⟩ ∧ r.split.gross = max g r.split.payable
  reconciles : r.split.Reconciles
  exclusive : r.split.serviceCharge = 0 ∨ r.split.discount = 0

/-- A row of the breakdown: its split, and the amounts it is made of. -/
theorem breakdownRow_ok {entry : String × Value} {row : String × Nat × List BigDecimal}
    (hgross : ∀ a, displayAmount (entry.2.field "gross") = some a → ∃ n, a = ⟨n, 2⟩)
    (hcommission : ∀ a, displayAmount (entry.2.field "commission") = some a → ∃ n, a = ⟨n, 2⟩)
    (hpayable : ∀ a, displayAmount (entry.2.field "payable") = some a → ∃ n, a = ⟨n, 2⟩)
    (h : breakdownRow fare entry = some row) :
    ∃ r : Row, r.Shows entry ∧ row.1 = r.kind ∧ row.2.1 = r.count ∧
      List.Forall₂ IsMinor row.2.2 r.split.amounts := by
  simp only [breakdownRow, Option.bind_eq_bind, Option.bind_eq_some_iff, Option.pure_def,
    Option.guard_eq_some', Option.some.injEq, Option.filter_eq_some_iff, exists_const] at h
  obtain ⟨count, ⟨hcount, -⟩, base, hbase, taxes, htaxes, ait, hait, g, hg, c, hc, p, hp, ⟨hsum, -⟩, rfl⟩ := h
  obtain ⟨gross, rfl⟩ := hgross g hg
  obtain ⟨commission, rfl⟩ := hcommission c hc
  obtain ⟨payable, rfl⟩ := hpayable p hp
  rw [add_minor, cmp_minor] at hsum
  have hadjustment : IsMinor (BigDecimal.sub ⟨payable, 2⟩ (((base.withScaleRound 2).add
      (taxes.withScaleRound 2)).add (ait.withScaleRound 2)))
      (payable - ((base.withScaleRound 2).digits + (taxes.withScaleRound 2).digits +
        (ait.withScaleRound 2).digits)) :=
    IsMinor.sub (.two payable) (((IsMinor.rounded base).add (.rounded taxes)).add (.rounded ait))
  -- a markup above the supplier's price shows the payable as the total, a commission shows the gross
  have hshown : IsMinor (if BigDecimal.isNegative ⟨commission, 2⟩ then ⟨payable, 2⟩ else ⟨gross, 2⟩)
      (max gross payable) := by
    split
    · rename_i hneg
      rw [(IsMinor.two commission).isNegative] at hneg
      rw [max_eq_right (by omega)]
      exact .two _
    · rename_i hpos
      rw [(IsMinor.two commission).isNegative] at hpos
      rw [max_eq_left (by omega)]
      exact .two _
  generalize BigDecimal.sub ⟨payable, 2⟩ (((base.withScaleRound 2).add (taxes.withScaleRound 2)).add
    (ait.withScaleRound 2)) = adjustment at hadjustment ⊢
  let split (charge discount : Int) : Split := ⟨(base.withScaleRound 2).digits,
    (taxes.withScaleRound 2).digits, (ait.withScaleRound 2).digits, charge, discount, max gross payable, payable⟩
  have hamounts : ∀ {charge discount : Int} {x y : BigDecimal}, IsMinor x charge → IsMinor y discount →
      List.Forall₂ IsMinor [base.withScaleRound 2, taxes.withScaleRound 2, ait.withScaleRound 2, x, y,
        if BigDecimal.isNegative ⟨commission, 2⟩ then ⟨payable, 2⟩ else ⟨gross, 2⟩, ⟨payable, 2⟩]
        (split charge discount).amounts := fun hx hy =>
    .cons (.rounded base) (.cons (.rounded taxes) (.cons (.rounded ait) (.cons hx (.cons hy
      (.cons hshown (.cons (.two payable) .nil))))))
  -- what the payable adds to base, taxes and ait is a service charge, what it leaves off a discount
  by_cases hneg : adjustment.isNegative
  · refine ⟨⟨entry.1, count, split 0 (-(payable - ((base.withScaleRound 2).digits +
      (taxes.withScaleRound 2).digits + (ait.withScaleRound 2).digits)))⟩,
      ⟨rfl, hcount, hp, ⟨gross, hg, rfl⟩, ?_, .inl rfl⟩, rfl, rfl, ?_⟩
    · simp only [Split.Reconciles, split]
      omega
    · rw [if_pos hneg]
      exact hamounts .zero hadjustment.neg
  · refine ⟨⟨entry.1, count, split (payable - ((base.withScaleRound 2).digits +
      (taxes.withScaleRound 2).digits + (ait.withScaleRound 2).digits)) 0⟩,
      ⟨rfl, hcount, hp, ⟨gross, hg, rfl⟩, ?_, .inr rfl⟩, rfl, rfl, ?_⟩
    · simp only [Split.Reconciles, split]
      omega
    · rw [if_neg hneg]
      exact hamounts hadjustment .zero

/-! ## The breakdown -/

/-- The texts of a quote are amounts of two places. -/
structure TwoPlaces (pricing : Value) : Prop where
  rows : ∀ passengers, pricing.field "passengers" = .obj passengers →
    ∀ entry ∈ Value.entries passengers, ∀ key ∈ ["gross", "commission", "payable"], ∀ a,
      displayAmount (entry.2.field key) = some a → ∃ n, a = ⟨n, 2⟩
  payable : ∀ a, displayAmount (pricing.field "payable") = some a → ∃ n, a = ⟨n, 2⟩

/-- The field of a row. -/
def Row.field (r : Row) : String × Value :=
  (r.kind, .object ([("count", .ofInt r.count), ("tierAdjustment", .str "0.00")] ++ r.split.fields))

/-- A row as the loop of `build` leaves it. -/
def Row.Made (x : String × Nat × List BigDecimal) (r : Row) : Prop :=
  x.1 = r.kind ∧ x.2.1 = r.count ∧ List.Forall₂ IsMinor x.2.2 r.split.amounts

theorem rows_made {entries : List (String × Value)} {found : List (String × Nat × List BigDecimal)}
    (h : List.Forall₂ (fun entry x => breakdownRow fare entry = some x) entries found)
    (htexts : ∀ entry ∈ entries, ∀ key ∈ ["gross", "commission", "payable"], ∀ a,
      displayAmount (entry.2.field key) = some a → ∃ n, a = ⟨n, 2⟩) :
    ∃ rows : List Row, List.Forall₂ Row.Shows entries rows ∧ List.Forall₂ Row.Made found rows := by
  induction h with
  | nil => exact ⟨[], .nil, .nil⟩
  | @cons entry x entries found hx _ ih =>
    obtain ⟨rows, hshows, hmade⟩ := ih fun e he => htexts e (List.mem_cons_of_mem _ he)
    have hentry := htexts entry List.mem_cons_self
    obtain ⟨r, hr, hkind, hcount, hamounts⟩ := breakdownRow_ok (hentry "gross" (by simp))
      (hentry "commission" (by simp)) (hentry "payable" (by simp)) hx
    exact ⟨r :: rows, .cons hr hshows, .cons ⟨hkind, hcount, hamounts⟩ hmade⟩

/-- Related lists are related at every position, with related values beyond the end. -/
theorem forall₂_getD {α β : Type} {R : α → β → Prop} {xs : List α} {ys : List β} (h : List.Forall₂ R xs ys)
    {x : α} {y : β} (hxy : R x y) (i : Nat) : R (xs.getD i x) (ys.getD i y) := by
  induction h generalizing i with
  | nil => exact hxy
  | cons hhead _ ih =>
    cases i with
    | zero => exact hhead
    | succ i => exact ih i

/-- The amounts at one position add up to the total there. -/
theorem weighted_made {found : List (String × Nat × List BigDecimal)} {rows : List Row}
    (h : List.Forall₂ Row.Made found rows) (i : Nat) :
    IsMinor (weighted (fun x : String × Nat × List BigDecimal => x.2.2.getD i (ofInt 0)) (·.2.1) found)
      (rows.map fun r => r.split.amounts.getD i 0 * (r.count : Int)).sum := by
  have hpairs : List.Forall₂ (fun (x : String × Nat × List BigDecimal) (r : Row) => x.2.1 = r.count ∧
      IsMinor (x.2.2.getD i (ofInt 0)) (r.split.amounts.getD i 0)) found rows :=
    h.imp fun x r ⟨_, hcount, hamounts⟩ => ⟨hcount, forall₂_getD hamounts .zero i⟩
  exact weighted_isMinor hpairs

/-- The display of amounts is the display of their minor units. -/
theorem breakdownFields_eq (hd : d.Plain) {amounts : List BigDecimal} {s : Split}
    (h : List.Forall₂ IsMinor amounts s.amounts) : breakdownFields d amounts = s.fields := by
  rw [breakdownFields, Split.fields]
  generalize breakdownKeys = keys
  generalize s.amounts = units at h
  induction h generalizing keys with
  | nil => simp
  | cons ha _ ih =>
    cases keys with
    | nil => rfl
    | cons key keys =>
      rw [List.zip_cons_cons, List.zip_cons_cons, List.map_cons, List.map_cons, ih keys, hd.fixed _ _ ha]

/-- The displayed rows are the rows in minor units. -/
theorem displayed_eq (hd : d.Plain) {found : List (String × Nat × List BigDecimal)} {rows : List Row}
    (h : List.Forall₂ Row.Made found rows) :
    (found.map fun x => (x.1, Value.object ([("count", .ofInt x.2.1), ("tierAdjustment", .str "0.00")] ++
      breakdownFields d x.2.2))) = rows.map Row.field := by
  induction h with
  | nil => rfl
  | cons hmade _ ih =>
    obtain ⟨hkind, hcount, hamounts⟩ := hmade
    rw [List.map_cons, List.map_cons, ih, Row.field, hkind, hcount, breakdownFields_eq hd hamounts]

/-- The breakdown of a quote. -/
structure Broken (pricing b : Value) (rows : List Row) : Prop where
  shows : ∃ passengers, pricing.field "passengers" = .obj passengers ∧
    List.Forall₂ Row.Shows (Value.entries passengers) rows
  payable : displayAmount (pricing.field "payable") = some ⟨(total rows).payable, 2⟩
  text : ∃ currency, pricing.field "currency" = .str currency ∧
    b = .object ([("version", .ofInt 1), ("currency", .str currency), ("tierAdjustment", .str "0.00"),
      ("passengers", .object (rows.map Row.field))] ++ (total rows).fields)

theorem breakdown_ok (hd : d.Plain) (htexts : TwoPlaces pricing) (h : breakdown d pricing fare = some b) :
    ∃ rows, Broken pricing b rows := by
  simp only [breakdown, Option.bind_eq_bind, Option.bind_eq_some_iff, Option.guard_eq_some',
    Option.some.injEq, Option.pure_def, exists_const, Value.asStr?_eq_some, Value.asObject?_eq_some] at h
  obtain ⟨-, currency, hcurrency, passengers, hpassengers, found, hfound, a, ha, hcmp, rfl⟩ := h
  obtain ⟨rows, hshows, hmade⟩ := rows_made (mapM_eq_some hfound) (htexts.rows passengers hpassengers)
  obtain ⟨n, rfl⟩ := htexts.payable a ha
  have htotals : List.Forall₂ IsMinor ((List.range 7).map fun i =>
      weighted (fun r : String × Nat × List BigDecimal => r.2.2.getD i (ofInt 0)) (·.2.1) found)
      (total rows).amounts :=
    .cons (weighted_made hmade 0) (.cons (weighted_made hmade 1) (.cons (weighted_made hmade 2)
      (.cons (weighted_made hmade 3) (.cons (weighted_made hmade 4) (.cons (weighted_made hmade 5)
        (.cons (weighted_made hmade 6) .nil))))))
  have hpaid : (total rows).payable = n :=
    (IsMinor.cmp (forall₂_getD htotals .zero 6) (.two n)).mp hcmp
  refine ⟨rows, ⟨passengers, hpassengers, hshows⟩, by rw [ha, hpaid], currency, hcurrency, ?_⟩
  rw [displayed_eq hd hmade, breakdownFields_eq hd htotals]

/-! ## Quotes and their breakdown -/

/-- The format `.2` of the crate writes two places of a number with at most `zeros` zeros behind its digits. -/
def Places (d : Decimals) (zeros : Nat) : Prop :=
  ∀ a : BigDecimal, -zeros ≤ a.scale → ∃ n, BigDecimal.parse (d.fixed a) = some ⟨n, 2⟩

/-- The selling fares of an item have no more zeros behind their digits. -/
def FewZeros (gross : Value) (zeros : Nat) : Prop :=
  ∀ kind x, tierMoney ((fareOf gross kind).field "totalPrice") = .ok x → -zeros ≤ x.scale

theorem Places.text {zeros : Nat} (h : Places d zeros) {a x : BigDecimal} (ha : -zeros ≤ a.scale)
    (hx : displayAmount (.str (d.fixed a)) = some x) : ∃ n, x = ⟨n, 2⟩ := by
  obtain ⟨n, hn⟩ := h a ha
  rw [displayAmount, hn] at hx
  cases hx
  exact ⟨n, rfl⟩

/-- A projection writes every fare that is there, with two places. -/
theorem projected_fewZeros (hd : d.Plain) (h : projected d original tier markup = .ok gross) : FewZeros gross 0 := by
  obtain ⟨c, changes, hcoverage, hproject, rfl⟩ := projected_ok h
  obtain ⟨-, hobject, htotal⟩ := project_ok hproject
  obtain ⟨hread, -⟩ := project_reads hcoverage hproject
  obtain ⟨-, hkinds⟩ := project_kinds hproject
  intro kind x hx
  by_cases hmem : kind ∈ changes.passengers.map KindFare.kind
  · obtain ⟨k, hk, rfl⟩ := List.mem_map.mp hmem
    obtain ⟨entry, hprojected⟩ := hkinds k hk
    rw [hread k hk, hprojected.minor] at hx
    exact (tierMoney_minor hd hx).places.1
  · rw [(changes_apply_read hobject htotal).2, fareOf_foldl_apply_ne hobject hmem,
      project_passed hcoverage hproject hmem] at hx
    obtain ⟨lexeme, hlexeme, -⟩ := tierMoney_ok hx
    cases hlexeme

/-- No amount of a quote has more zeros. -/
theorem quoteKind_few {zeros : Nat} (hfew : FewZeros gross zeros) {entry : String × Value} {q : KindQuote}
    (h : quoteKind d original gross tier share markup entry = .ok (some q)) :
    -zeros ≤ q.gross.scale ∧ -zeros ≤ q.commission.scale ∧ -zeros ≤ q.payable.scale := by
  simp only [quoteKind, bind_eq_ok, fetch_eq_ok] at h
  obtain ⟨count, -, h⟩ := h
  split at h
  · cases h
  · simp only [bind_eq_ok, pure_eq_ok, Option.some.injEq] at h
    obtain ⟨supplier, -, total, htotal, discount, -, -, -, -, -, rfl⟩ := h
    have hgross := hfew _ _ htotal
    have hcommission : -(zeros : Int) ≤
        ((d.quotient (discount.mul (ofInt share)) (ofInt 100)).withScaleRound 2).scale := by
      rw [withScaleRound_scale]
      show -(zeros : Int) ≤ 2
      omega
    exact ⟨hgross, hcommission, le_trans hgross (le_max_left _ _)⟩

theorem weighted_few {zeros : Nat} {amount : KindQuote → BigDecimal} {quotes : List KindQuote}
    (h : ∀ q ∈ quotes, -zeros ≤ (amount q).scale) : -zeros ≤ (weighted amount KindQuote.count quotes).scale := by
  refine (scale_summed (by omega) (le_refl 0)).1 fun q hq => ?_
  rcases scale_mul_ofInt (amount q) q.count with hscale | hscale
  · rw [hscale]
    omega
  · rw [hscale]
    exact h q hq

/-- A snapshot writes every amount with two places. -/
theorem snapshot_twoPlaces {zeros : Nat} (hplaces : Places d zeros) (hfew : FewZeros gross zeros)
    (h : snapshot d original gross tier share currency markup = .ok pricing) : TwoPlaces pricing := by
  simp only [snapshot, bind_eq_ok, pure_eq_ok] at h
  obtain ⟨-, -, -, -, counts, -, found, hfound, claimed, -, -, -, rfl⟩ := h
  have hquotes : ∀ q ∈ found.reduceOption,
      -zeros ≤ q.gross.scale ∧ -zeros ≤ q.commission.scale ∧ -zeros ≤ q.payable.scale := by
    intro q hq
    rw [List.reduceOption_mem_iff] at hq
    obtain ⟨entry, -, hquote⟩ := exists_input hfound hq
    exact quoteKind_few hfew hquote
  constructor
  · intro passengers hpassengers entry hentry key hkey a ha
    rw [field_enrich (by decide), Value.field, Value.get?_object] at hpassengers
    have hobject : Value.object (found.reduceOption.map (KindQuote.toField d)) = .obj passengers := by
      simpa using hpassengers
    obtain ⟨q, hq, rfl⟩ := List.mem_map.mp (Value.mem_object hobject (Value.mem_entries hentry))
    obtain ⟨hgross, hcommission, hpayable⟩ := hquotes q hq
    rw [KindQuote.toField, Value.field, Value.get?_object] at ha
    simp only [List.mem_cons, List.not_mem_nil, or_false] at hkey
    rcases hkey with rfl | rfl | rfl
    · exact hplaces.text hgross (by simpa using ha)
    · exact hplaces.text hcommission (by simpa using ha)
    · exact hplaces.text hpayable (by simpa using ha)
  · intro a ha
    rw [field_enrich (by decide), Value.field, Value.get?_object] at ha
    have hgross := weighted_few fun q hq => (hquotes q hq).1
    exact hplaces.text (le_trans hgross (le_max_left _ _)) (by simpa using ha)

/-- The breakdown reads nothing of an earlier one. -/
theorem breakdown_setField (x : Value) :
    breakdown d (pricing.setField "fareBreakdown" x) fare = breakdown d pricing fare := by
  have hfield : ∀ key ∈ ["tier", "currency", "passengers", "payable"],
      (pricing.setField "fareBreakdown" x).field key = pricing.field key := by
    intro key hkey
    refine Value.field_setField_ne ?_
    rintro rfl
    simp at hkey
  rw [breakdown, breakdown, hfield "tier" (by simp), hfield "currency" (by simp),
    hfield "passengers" (by simp), hfield "payable" (by simp)]

theorem enrich_enrich : enrich d (enrich d pricing fare) fare = enrich d pricing fare := by
  cases h : breakdown d pricing fare with
  | none =>
    have hsame : enrich d pricing fare = pricing := by rw [enrich, h]
    rw [hsame, hsame]
  | some b =>
    have hset : enrich d pricing fare = pricing.setField "fareBreakdown" b := by rw [enrich, h]
    rw [hset, enrich, breakdown_setField, h]
    exact Value.setField_setField _ _ _ _

theorem get?_enrich {key : String} (h : key ≠ "fareBreakdown") :
    (enrich d pricing fare).get? key = pricing.get? key := by
  rw [enrich]
  split
  · exact Value.get?_setField_ne h
  · rfl

/-- Whatever breakdown is built of a snapshot, its rows and its root reconcile with what is paid, and
enriching a quote once more changes nothing. -/
theorem breakdown_reconciles {zeros : Nat} (hd : d.Plain) (hplaces : Places d zeros) (hfew : FewZeros gross zeros)
    (h : snapshot d original gross tier share currency markup = .ok pricing) :
    (∀ fare b, breakdown d pricing fare = some b →
      ∃ rows, Broken pricing b rows ∧ (total rows).Reconciles) ∧
    ∀ pricing fare, enrich d (enrich d pricing fare) fare = enrich d pricing fare ∧
      ∀ key ≠ "fareBreakdown", (enrich d pricing fare).get? key = pricing.get? key := by
  refine ⟨fun fare b hb => ?_, fun pricing fare => ⟨enrich_enrich, fun key hkey => get?_enrich hkey⟩⟩
  obtain ⟨rows, hbroken⟩ := breakdown_ok hd (snapshot_twoPlaces hplaces hfew h) hb
  obtain ⟨passengers, -, hshows⟩ := hbroken.shows
  refine ⟨rows, hbroken, reconciles_total fun r hr => ?_⟩
  obtain ⟨entry, -, hentry⟩ := exists_left hshows hr
  exact hentry.reconciles

theorem sampleDecimals_places (zeros : Nat) : Places sampleDecimals zeros :=
  fun a _ => ⟨a.minor, parse_twoPlaces _⟩

/-- The charge that a share of a deficit adds to the published fare is displayed as one. -/
theorem breakdown_reconciles_charged : ∃ gross quote b, sampleQuote 150 100 50 = .ok (gross, quote) ∧
    breakdown sampleDecimals quote (sampleFare 150 100) = some b ∧
    b.field "serviceCharge" = .str "25.00" ∧ ∃ rows, Broken quote b rows ∧ (total rows).Reconciles := by
  have hsample : (sampleQuote 150 100 50).map (fun x =>
      (breakdown sampleDecimals x.2 (sampleFare 150 100)).map (·.field "serviceCharge")) =
      .ok (some (.str "25.00")) := by
    decide +kernel
  obtain ⟨⟨gross, quote⟩, hquote, hcharge⟩ := map_eq_ok.mp hsample
  obtain ⟨b, hb, hcharge⟩ := Option.map_eq_some_iff.mp hcharge
  obtain ⟨hprojected, hsnapshot⟩ := sampleQuote_ok hquote
  have hreconciles := breakdown_reconciles sampleDecimals_plain (sampleDecimals_places 0)
    (projected_fewZeros sampleDecimals_plain hprojected) hsnapshot
  exact ⟨gross, quote, b, hquote, hb, hcharge, hreconciles.1 _ b hb⟩

end ShaponTravels.Pricing
