import Mathlib.Data.Rat.Floor
import ShaponTravels.Library.Apportion
import ShaponTravels.Library.Checked
import ShaponTravels.Wallet.Allocations

/-!
# Import allocations — the entitlements of an imported booking

A modern import keeps the accepted price of every passenger.  For an older one `imports::allocate` splits
what was captured in proportion to the saved fares, by the largest remainders.
-/

namespace ShaponTravels.Wallet.TicketManagement

open Library
open Booking (Casing)

/-- `i128`, `i64`. -/
abbrev wide (n : Int) : Except (Fault ApiError) Int := signed 128 n

abbrev narrow (n : Int) : Except (Fault ApiError) Int := signed 64 n

/-- An `i128` result, when it is in range. -/
def i128? (n : Int) : Option Int := if -2 ^ 127 ≤ n ∧ n < 2 ^ 127 then some n else none

/-! ## Weights -/

/-- How many passengers there are of each type. -/
def typeCounts (cs : Casing) (pax : List Value) : Except ApiError (List (String × Nat)) := do
  let kinds ← pax.mapM fun p => do
    let type ← fetch (p.field "passengerType").asStr? unavailable
    return cs.lower type
  return kinds.dedup.map fun kind => (kind, kinds.count kind)

/-- A pricing of one unit for each passenger. -/
def unitPricing (pax : List Value) (counts : List (String × Nat)) : Value :=
  .object [("payable", .str (toString pax.length)),
    ("passengers", .object (counts.map fun c =>
      (c.1, .object [("count", .ofInt c.2), ("payable", .str "1.00")])))]

/-- The least common multiple of the counts there can be. -/
def scale : Int := 232792560

/-- What a fare says in its total. -/
def fareTotal (fare : Value) : Except ApiError Int := do
  let total ← majorToMinor ((fare.field "totalPrice").asStr?.getD (fare.field "totalPrice").text)
  minor total

/-- The body of the loop over the fares: the weight of one passenger of the type. -/
def weigh (cs : Casing) (counts : List (String × Nat)) (weights : List (String × Int)) (fare : Value) :
    Except (Fault ApiError) (List (String × Int)) := do
  let type ← refuse (fetch (fare.field "passengerType").asStr? unavailable)
  let kind := cs.lower type
  let count ← refuse (fetch (fare.field "count").asU64? unavailable)
  refuse (ensure (counts.lookup kind = some count ∧ count ≠ 0 ∧ weights.lookup kind = none) unavailable)
  let total ← refuse (fareTotal fare)
  refuse (ensure (0 < total) unavailable)
  let product ← wide (total * scale)
  let weight ← quotient 128 product count
  return weights ++ [(kind, weight)]

/-- `gcd`. -/
def gcd (a b : Int) : Int :=
  if b = 0 then a else gcd b (a.tmod b)
  termination_by b.natAbs
  decreasing_by
    rw [Int.natAbs_tmod]
    exact Nat.mod_lt _ (Int.natAbs_pos.mpr ‹_›)

/-- The divisor of all weights. -/
def commonDivisor : List Int → Option Int
  | [] => none
  | w :: ws => some (ws.foldl gcd w)

/-! ## Shares -/

/-- The variables of the loop over the passengers. -/
structure Split where
  entries : List InitialEntitlement
  assigned : Int
  remainders : List (Int × Nat)

/-- The body of the loop: a share rounded down, and what is left of it. -/
def share (captured total : Int) (s : Split) (entry : (InitialEntitlement × Int) × Nat) :
    Except (Fault ApiError) Split := do
  let ((e, weight), index) := entry
  let numerator ← refuse (fetch (i128? (weight * captured)) unavailable)
  let floor ← quotient 128 numerator total
  let amount ← refuse (fetch (i64? floor) unavailable)
  let assigned ← narrow (s.assigned + amount)
  let remainder ← rest numerator total
  return ⟨s.entries ++ [{ e with amountMinor := amount }], assigned, s.remainders ++ [(remainder, index)]⟩

/-- `amount_minor += 1`. -/
def addUnit (entries : List InitialEntitlement) (index : Nat) :
    Except (Fault ApiError) (List InitialEntitlement) :=
  match entries[index]? with
  | some e => do
    let amount ← narrow (e.amountMinor + 1)
    return entries.set index { e with amountMinor := amount }
  | none => .error .overflow

/-- `as usize` of an `i64`. -/
def asUsize (n : Int) : Nat := (n % 2 ^ 64).toNat

/-- The end of `allocate`: the captured amount is split by the weights. -/
def shareOut (captured : Int) (initial : List InitialEntitlement) (weights : List Int) :
    Except (Fault ApiError) (List InitialEntitlement) := do
  let divisor ← refuse (fetch (commonDivisor weights) unavailable)
  let weights ← weights.mapM fun w => quotient 128 w divisor
  let total ← weights.foldlM (fun total w => wide (total + w)) 0
  let s ← (initial.zip weights).zipIdx.foldlM (share captured total) ⟨[], 0, []⟩
  let left ← narrow (captured - s.assigned)
  let ranked := s.remainders.insertionSort Before
  let entries ← ((ranked.take (asUsize left)).map Prod.snd).foldlM addUnit s.entries
  refuse (ensure (entries.all fun e => 0 < e.amountMinor) unavailable)
  return entries

/-- `imports::allocate`. -/
def allocateImport (cs : Casing) (data passengers tickets : Value) (captured : Int) :
    Except (Fault ApiError) (List InitialEntitlement) := do
  if ¬ (data.field "rustPricing").isNull then
    refuse (allocateInitial cs passengers tickets (data.field "rustPricing") captured)
  else
    let _ ← refuse (minor captured)
    refuse (ensure (0 < captured) unavailable)
    let pax ← refuse (fetch (passengers.asArray?.filter fun p => p ≠ [] ∧ p.length ≤ 20) unavailable)
    let counts ← refuse (typeCounts cs pax)
    let units ← narrow (pax.length * 100)
    let initial ← refuse (allocateInitial cs passengers tickets (unitPricing pax counts) units)
    if pax.length = 1 then
      return initial.modify 0 fun e => { e with amountMinor := captured }
    else
      let fares ← refuse (fetch (data.field "fares").asArray? unavailable)
      let weights ← fares.foldlM (weigh cs counts) []
      refuse (ensure (weights.length = counts.length) unavailable)
      let weights ← initial.mapM fun e =>
        refuse (fetch (weights.lookup (cs.lower e.passengerType)) unavailable)
      shareOut captured initial weights

/-! ## The divisor -/

theorem gcd_eq {a b : Int} (ha : 0 ≤ a) (hb : 0 ≤ b) : gcd a b = Int.gcd a b := by
  fun_induction gcd a b with
  | case1 a =>
    rw [Int.gcd_zero_right]
    omega
  | case2 a b hne ih =>
    rw [ih hb (Int.tmod_nonneg b ha), Int.tmod_eq_emod_of_nonneg ha, Int.gcd_comm b, Int.gcd_emod]

theorem gcd_dvd {a b : Int} (ha : 0 < a) (hb : 0 < b) : 0 < gcd a b ∧ gcd a b ∣ a ∧ gcd a b ∣ b := by
  rw [gcd_eq ha.le hb.le]
  exact ⟨Int.natCast_pos.mpr (Int.gcd_pos_of_ne_zero_left b ha.ne'), Int.gcd_dvd_left a b,
    Int.gcd_dvd_right a b⟩

theorem foldl_gcd_dvd {ws : List Int} {acc : Int} (hacc : 0 < acc) (hpos : ∀ w ∈ ws, 0 < w) :
    0 < ws.foldl gcd acc ∧ ws.foldl gcd acc ∣ acc ∧ ∀ w ∈ ws, ws.foldl gcd acc ∣ w := by
  induction ws generalizing acc with
  | nil => exact ⟨hacc, dvd_refl acc, fun w hw => absurd hw List.not_mem_nil⟩
  | cons w ws ih =>
    rw [List.forall_mem_cons] at hpos
    obtain ⟨hgcd, hdvd, hdvd'⟩ := gcd_dvd hacc hpos.1
    obtain ⟨hfold, hleft, hrest⟩ := ih hgcd hpos.2
    rw [List.foldl_cons, List.forall_mem_cons]
    exact ⟨hfold, hleft.trans hdvd, hleft.trans hdvd', hrest⟩

/-- The divisor of positive weights is positive and divides every one of them. -/
theorem commonDivisor_some {ws : List Int} {g : Int} (hpos : ∀ w ∈ ws, 0 < w)
    (h : commonDivisor ws = some g) : 0 < g ∧ ∀ w ∈ ws, g ∣ w := by
  cases ws with
  | nil => cases h
  | cons w ws =>
    cases h
    rw [List.forall_mem_cons] at hpos ⊢
    exact foldl_gcd_dvd hpos.1 hpos.2

/-! ## The weights of the fares -/

variable {cs : Casing} {data passengers tickets : Value} {captured : Int}

/-- What a weight is made of: the total of its fare over the number of its passengers. -/
structure WeightOf (cs : Casing) (counts : List (String × Nat)) (fare : Value) (weight : String × Int) : Prop where
  type : ∃ type, fare.field "passengerType" = .str type ∧ cs.lower type = weight.1
  made : ∃ count total, (fare.field "count").asU64? = some count ∧ counts.lookup weight.1 = some count ∧
    count ≠ 0 ∧ fareTotal fare = .ok total ∧ 0 < total ∧ total ≤ maxMinor ∧ weight.2 = total * scale / count

theorem fareTotal_le {fare : Value} {total : Int} (h : fareTotal fare = .ok total) : total ≤ maxMinor := by
  simp only [fareTotal, bind_eq_ok] at h
  obtain ⟨_, -, hminor⟩ := h
  obtain ⟨hrange, rfl⟩ := minor_eq_ok.mp hminor
  exact hrange.2

theorem weigh_meets (counts : List (String × Nat)) (weights : List (String × Int)) (fare : Value) :
    Meets (weigh cs counts weights fare) fun weights' => ∃ weight, WeightOf cs counts fare weight ∧
      weights.lookup weight.1 = none ∧ weights' = weights ++ [weight] := by
  refine (Meets.refuse fun _ h => h).bind fun type htype => ?_
  refine (Meets.refuse fun _ h => h).bind fun count hcount => ?_
  refine (Meets.refuse fun _ h => ensure_eq_ok.mp h).bind fun _ hguard => ?_
  refine (Meets.refuse fun _ h => h).bind fun total htotal => ?_
  refine (Meets.refuse fun _ h => ensure_eq_ok.mp h).bind fun _ hpos => ?_
  rw [fetch_eq_ok] at hcount
  rw [fetch_eq_ok, Value.asStr?_eq_some] at htype
  have hmax := fareTotal_le htotal
  have hproduct : 0 ≤ total * scale ∧ total * scale < 2 ^ 127 := by
    unfold scale
    unfold maxMinor at hmax
    omega
  have hcountpos : (0 : Int) < count := Int.natCast_pos.mpr (Nat.pos_of_ne_zero hguard.2.1)
  refine (Meets.signed (P := (· = total * scale)) (by omega) hproduct.2 rfl).bind ?_
  rintro _ rfl
  refine (Meets.quotient (P := (· = total * scale / count)) hproduct.1 hcountpos hproduct.2 rfl).bind ?_
  rintro _ rfl
  exact .pure ⟨_, ⟨⟨type, htype, rfl⟩, count, total, hcount, hguard.1, hguard.2.1, htotal, hpos, hmax, rfl⟩,
    hguard.2.2, rfl⟩

theorem mem_of_lookup {α : Type} {l : List (String × α)} {key : String} {a : α} (h : l.lookup key = some a) :
    (key, a) ∈ l := by
  obtain ⟨before, rest, rfl, -⟩ := List.lookup_eq_some_iff.mp h
  exact List.mem_append_right _ List.mem_cons_self

/-- A type has no more passengers than there are. -/
theorem typeCounts_le {pax : List Value} {counts : List (String × Nat)} (h : typeCounts cs pax = .ok counts)
    {kind : String} {count : Nat} (hlookup : counts.lookup kind = some count) : count ≤ pax.length := by
  simp only [typeCounts, bind_eq_ok, pure_eq_ok] at h
  obtain ⟨kinds, hkinds, rfl⟩ := h
  obtain ⟨other, -, heq⟩ := List.mem_map.mp (mem_of_lookup hlookup)
  cases heq
  rw [(mapM_eq_ok.mp hkinds).length_eq]
  exact List.count_le_length

/-- Every count there can be divides the scale, so the weight of a passenger is exact. -/
theorem scale_dvd {count : Nat} (hne : count ≠ 0) (hle : count ≤ 20) : (count : Int) ∣ scale := by
  have hall : ∀ n ∈ List.range' 1 20, n ∣ 232792560 := by decide
  have hmem : count ∈ List.range' 1 20 := List.mem_range'_1.mpr (by omega)
  exact Int.natCast_dvd_natCast.mpr (hall count hmem)

/-- A weight for one of at most twenty passengers. -/
structure Exact (cs : Casing) (fare : Value) (weight : String × Int) : Prop where
  type : ∃ type, fare.field "passengerType" = .str type ∧ cs.lower type = weight.1
  exact : ∃ count total, (fare.field "count").asU64? = some count ∧ fareTotal fare = .ok total ∧
    count ≠ 0 ∧ weight.2 * count = total * scale
  range : 0 < weight.2 ∧ weight.2 ≤ maxMinor * scale

theorem WeightOf.exact {counts : List (String × Nat)} {fare : Value} {weight : String × Int}
    (h : WeightOf cs counts fare weight) (hle : ∀ kind count, counts.lookup kind = some count → count ≤ 20) :
    Exact cs fare weight := by
  obtain ⟨count, total, hcount, hlookup, hne, htotal, hpos, hmax, hweight⟩ := h.made
  obtain ⟨k, hk⟩ := scale_dvd hne (hle _ _ hlookup)
  have hcountpos : (0 : Int) < count := Int.natCast_pos.mpr (Nat.pos_of_ne_zero hne)
  have hkpos : 0 < k := by
    by_contra hneg
    have hle : (count : Int) * k ≤ 0 := mul_nonpos_of_nonneg_of_nonpos hcountpos.le (by omega)
    rw [← hk] at hle
    exact absurd hle (by decide)
  have heach : weight.2 = total * k := by
    rw [hweight, hk, mul_left_comm, Int.mul_ediv_cancel_left _ hcountpos.ne']
  have hkscale : k ≤ scale := by
    rw [hk]
    exact le_mul_of_one_le_left hkpos.le hcountpos
  refine ⟨h.type, ⟨count, total, hcount, htotal, hne, ?_⟩, ?_, ?_⟩
  · rw [heach, hk, mul_assoc, mul_comm k]
  · rw [heach]
    exact mul_pos hpos hkpos
  · rw [heach]
    exact mul_le_mul hmax hkscale hkpos.le (by decide)

/-! ## The split -/

/-- Entitlements with these amounts. -/
def withAmounts (entries : List InitialEntitlement) (amounts : List Int) : List InitialEntitlement :=
  List.zipWith (fun e amount => { e with amountMinor := amount }) entries amounts

variable {initial : List InitialEntitlement} {weights : List Int}

theorem amounts_withAmounts {amounts : List Int} (hlength : amounts.length = initial.length) :
    (withAmounts initial amounts).map (·.amountMinor) = amounts := by
  rw [withAmounts, List.map_zipWith]
  rw [← List.map_uncurry_zip_eq_zipWith]
  exact List.map_snd_zip hlength.le

theorem indexes_withAmounts {amounts : List Int} (hlength : amounts.length = initial.length) :
    (withAmounts initial amounts).map (·.passengerIndex) = initial.map (·.passengerIndex) := by
  rw [withAmounts, List.map_zipWith]
  show List.zipWith (fun e _ => e.passengerIndex) initial amounts = _
  rw [← List.map_uncurry_zip_eq_zipWith]
  calc (initial.zip amounts).map (Function.uncurry fun e _ => e.passengerIndex)
    _ = ((initial.zip amounts).map Prod.fst).map (·.passengerIndex) := by
      rw [List.map_map]
      rfl
    _ = initial.map (·.passengerIndex) := by rw [List.map_fst_zip hlength.ge]

theorem getElem?_withAmounts {amounts : List Int} {i : Nat} {e : InitialEntitlement} {x : Int}
    (he : initial[i]? = some e) (hx : amounts[i]? = some x) :
    (withAmounts initial amounts)[i]? = some { e with amountMinor := x } := by
  rw [withAmounts, List.getElem?_zipWith, he, hx]

theorem set_withAmounts (es : List InitialEntitlement) (amounts : List Int) (i : Nat) {e : InitialEntitlement}
    {x : Int} (he : es[i]? = some e) (hx : amounts[i]? = some x) :
    (withAmounts es amounts).set i { e with amountMinor := x + 1 } =
      withAmounts es (amounts.modify i (· + 1)) := by
  induction es generalizing amounts i with
  | nil => cases he
  | cons e' es ih =>
    cases amounts with
    | nil => cases hx
    | cons x' amounts =>
      cases i with
      | zero =>
        cases he
        cases hx
        rfl
      | succ i => exact congrArg (List.cons _) (ih amounts i he hx)

/-- The total of weights that are not too large. -/
theorem total_meets {bound : Int} {acc : Int} (hacc : 0 ≤ acc) (hpos : ∀ w ∈ weights, 0 ≤ w ∧ w ≤ bound)
    (hroom : acc + weights.length * bound < 2 ^ 127) :
    Meets (weights.foldlM (fun total w => wide (total + w)) acc) (· = acc + weights.sum) := by
  induction weights generalizing acc with
  | nil => exact .pure (by simp)
  | cons w weights ih =>
    rw [List.forall_mem_cons] at hpos
    rw [List.length_cons] at hroom
    push_cast at hroom
    have hbound : 0 ≤ bound := hpos.1.1.trans hpos.1.2
    have hrest : 0 ≤ (weights.length : Int) * bound := mul_nonneg (Int.natCast_nonneg _) hbound
    have hsplit : acc + ((weights.length : Int) + 1) * bound = acc + bound + weights.length * bound := by
      ring
    rw [List.foldlM_cons]
    refine (Meets.signed (P := (· = acc + w)) (by omega) (by omega) rfl).bind ?_
    rintro _ rfl
    refine (ih (by omega) hpos.2 (by omega)).mono fun total htotal => ?_
    rw [htotal, List.sum_cons]
    omega

/-- The loop over the passengers rounds every share down. -/
theorem share_meets {total : Int} (htotal : 0 < total) (hcaptured : 0 ≤ captured)
    {entries : List ((InitialEntitlement × Int) × Nat)} {s : Split} (hpos : ∀ entry ∈ entries, 0 ≤ entry.1.2)
    (hassigned : 0 ≤ s.assigned)
    (hroom : s.assigned + (entries.map fun entry => entry.1.2 * captured / total).sum ≤ maxMinor) :
    Meets (entries.foldlM (share captured total) s) fun t =>
      t.entries = s.entries ++ entries.map (fun entry =>
        { entry.1.1 with amountMinor := entry.1.2 * captured / total }) ∧
      t.assigned = s.assigned + (entries.map fun entry => entry.1.2 * captured / total).sum ∧
      t.remainders = s.remainders ++ entries.map fun entry => (entry.1.2 * captured % total, entry.2) := by
  induction entries generalizing s with
  | nil => exact .pure (by simp)
  | cons entry entries ih =>
    obtain ⟨⟨e, w⟩, index⟩ := entry
    rw [List.forall_mem_cons] at hpos
    rw [List.map_cons, List.sum_cons] at hroom
    dsimp only at hroom hpos
    have hnumerator : 0 ≤ w * captured := mul_nonneg hpos.1 hcaptured
    have hfloor : 0 ≤ w * captured / total := Int.ediv_nonneg hnumerator htotal.le
    have hrest : 0 ≤ (entries.map fun entry => entry.1.2 * captured / total).sum :=
      List.sum_nonneg fun x hx => by
        obtain ⟨entry, hentry, rfl⟩ := List.mem_map.mp hx
        exact Int.ediv_nonneg (mul_nonneg (hpos.2 entry hentry) hcaptured) htotal.le
    unfold maxMinor at hroom
    rw [List.foldlM_cons]
    refine Meets.bind (P := fun t => t = ⟨s.entries ++ [{ e with amountMinor := w * captured / total }],
      s.assigned + w * captured / total, s.remainders ++ [(w * captured % total, index)]⟩) ?_ ?_
    · refine (Meets.refuse fun _ h => h).bind fun numerator h => ?_
      rw [fetch_eq_ok, i128?, Option.ite_none_right_eq_some] at h
      obtain ⟨⟨-, hfits⟩, heq⟩ := h
      cases heq
      refine (Meets.quotient (P := (· = w * captured / total)) hnumerator htotal hfits rfl).bind ?_
      rintro _ rfl
      refine (Meets.refuse (P := (· = w * captured / total)) fun a ha => ?_).bind ?_
      · rw [fetch_eq_ok, i64?_eq_some] at ha
        exact ha.2.symm
      rintro _ rfl
      refine (Meets.signed (P := (· = s.assigned + w * captured / total)) (by omega) (by omega) rfl).bind ?_
      rintro _ rfl
      refine (Meets.rest (P := (· = w * captured % total)) hnumerator htotal rfl).bind ?_
      rintro _ rfl
      exact .pure rfl
    · rintro _ rfl
      refine (ih hpos.2 (by dsimp only; omega) (by unfold maxMinor; dsimp only; omega)).mono ?_
      rintro t ⟨hentries, hsum, hremainders⟩
      refine ⟨?_, ?_, ?_⟩
      · rw [hentries, List.append_assoc]
        rfl
      · rw [hsum, List.map_cons, List.sum_cons]
        dsimp only
        omega
      · rw [hremainders, List.append_assoc]
        rfl

/-- The units that are left go to their positions. -/
theorem addUnit_meets {positions : List Nat} {amounts : List Int} (hlength : amounts.length = initial.length)
    (hpositions : ∀ i ∈ positions, i < initial.length)
    (hrange : ∀ x ∈ amounts, 0 ≤ x ∧ x + positions.length < 2 ^ 63) :
    Meets (positions.foldlM addUnit (withAmounts initial amounts))
      (· = withAmounts initial (raise amounts positions)) := by
  induction positions generalizing amounts with
  | nil => exact .pure rfl
  | cons i positions ih =>
    rw [List.forall_mem_cons] at hpositions
    rw [List.length_cons] at hrange
    have hi : i < amounts.length := by rw [hlength]; exact hpositions.1
    have hx := hrange (amounts.get ⟨i, hi⟩) (List.get_mem _ _)
    obtain ⟨e, he⟩ : ∃ e, initial[i]? = some e := ⟨_, List.getElem?_eq_getElem hpositions.1⟩
    have hget : amounts[i]? = some (amounts.get ⟨i, hi⟩) := List.getElem?_eq_some_iff.mpr ⟨hi, rfl⟩
    rw [List.foldlM_cons]
    refine Meets.bind (P := (· = withAmounts initial (amounts.modify i (· + 1)))) ?_ ?_
    · rw [addUnit, getElem?_withAmounts he hget]
      refine (Meets.signed (P := (· = amounts.get ⟨i, hi⟩ + 1)) ?_ ?_ rfl).bind ?_
      · omega
      · omega
      · rintro _ rfl
        have hset := set_withAmounts initial amounts i he hget
        exact .pure hset
    · rintro _ rfl
      refine ih (by rw [List.length_modify, hlength]) hpositions.2 fun x hmem => ?_
      obtain ⟨j, hj⟩ := List.mem_iff_getElem?.mp hmem
      rw [List.getElem?_modify, Option.map_eq_map] at hj
      obtain ⟨y, hy, rfl⟩ := Option.map_eq_some_iff.mp hj
      have hold := hrange y (List.mem_of_getElem? hy)
      push_cast at hold
      split <;> omega

/-- The weights over their divisor. -/
def reduced (divisor : Int) (weights : List Int) : List Int := weights.map (· / divisor)

section Zipped

variable {α : Type} (f : Int → α) (hlength : weights.length = initial.length)
include hlength

theorem map_weights : (initial.zip weights).map (fun p => f p.2) = weights.map f :=
  calc (initial.zip weights).map (fun p => f p.2)
    _ = ((initial.zip weights).map Prod.snd).map f := List.map_map.symm
    _ = weights.map f := by rw [List.map_snd_zip hlength.le]

theorem zipIdx_map_weights : (initial.zip weights).zipIdx.map (fun entry => f entry.1.2) = weights.map f :=
  calc (initial.zip weights).zipIdx.map (fun entry => f entry.1.2)
    _ = ((initial.zip weights).zipIdx.map Prod.fst).map (fun p => f p.2) := by
      rw [List.map_map]
      rfl
    _ = weights.map f := by rw [List.zipIdx_map_fst, map_weights f hlength]

theorem zipIdx_map_positions : (initial.zip weights).zipIdx.map (fun entry => (f entry.1.2, entry.2)) =
    (weights.map f).zipIdx := by
  rw [← map_weights f hlength, List.zipIdx_map]
  rfl

end Zipped

theorem zipIdx_map_amounts (f : Int → Int) : (initial.zip weights).zipIdx.map
    (fun entry => { entry.1.1 with amountMinor := f entry.1.2 }) = withAmounts initial (weights.map f) :=
  calc (initial.zip weights).zipIdx.map (fun entry => { entry.1.1 with amountMinor := f entry.1.2 })
    _ = ((initial.zip weights).zipIdx.map Prod.fst).map (fun p => { p.1 with amountMinor := f p.2 }) := by
      rw [List.map_map]
      rfl
    _ = withAmounts initial (weights.map f) := by
      rw [List.zipIdx_map_fst, withAmounts, List.zipWith_map_right, ← List.map_uncurry_zip_eq_zipWith]
      rfl

/-- What the split needs of its weights. -/
structure Usable (weights : List Int) : Prop where
  few : weights.length ≤ 20
  some : weights ≠ []
  range : ∀ w ∈ weights, 0 < w ∧ w ≤ maxMinor * scale

namespace Usable

variable (h : Usable weights)
include h

theorem reduced {divisor : Int} (hpos : 0 < divisor) (hdvd : ∀ w ∈ weights, divisor ∣ w) :
    Usable (reduced divisor weights) where
  few := by
    rw [TicketManagement.reduced, List.length_map]
    exact h.few
  some hnil := h.some (List.map_eq_nil_iff.mp hnil)
  range w hw := by
    obtain ⟨v, hv, rfl⟩ := List.mem_map.mp hw
    have hvpos := h.range v hv
    exact ⟨Int.ediv_pos_of_pos_of_dvd hvpos.1 hpos.le (hdvd v hv),
      (Int.ediv_le_self divisor hvpos.1.le).trans hvpos.2⟩

theorem sum_pos : 0 < weights.sum :=
  List.sum_pos weights (fun w hw => (h.range w hw).1) h.some

theorem total_lt : 0 + weights.length * (maxMinor * scale) < 2 ^ 127 := by
  have hfew : (weights.length : Int) ≤ 20 := by exact_mod_cast h.few
  have hmul : (weights.length : Int) * (maxMinor * scale) ≤ 20 * (maxMinor * scale) :=
    mul_le_mul_of_nonneg_right hfew (by decide)
  unfold maxMinor scale at *
  omega

theorem floors_nonneg (hcaptured : 0 ≤ captured) :
    ∀ x ∈ floors captured weights.sum weights, 0 ≤ x := by
  intro x hx
  obtain ⟨w, hw, rfl⟩ := List.mem_map.mp hx
  exact Int.ediv_nonneg (mul_nonneg (h.range w hw).1.le hcaptured) h.sum_pos.le

theorem floors_sum_le : (floors captured weights.sum weights).sum ≤ captured := by
  have hleft := (@left_bounds captured _ h.sum_pos).1
  unfold left at hleft
  omega

end Usable

/-- The loops of the split compute the shares. -/
theorem split_meets (hcaptured : 0 < captured ∧ captured ≤ maxMinor) (hlength : weights.length = initial.length)
    (h : Usable weights) :
    Meets ((initial.zip weights).zipIdx.foldlM (share captured weights.sum) ⟨[], 0, []⟩) fun s =>
      s.entries = withAmounts initial (floors captured weights.sum weights) ∧
      captured - s.assigned = left captured weights ∧
      s.remainders = (remainders captured weights.sum weights).zipIdx := by
  have hfloors := zipIdx_map_weights (fun w => w * captured / weights.sum) hlength
  refine (share_meets h.sum_pos hcaptured.1.le ?_ (le_refl 0) ?_).mono ?_
  · intro entry hentry
    have hw : entry.1.2 ∈ weights := (List.of_mem_zip (List.fst_mem_of_mem_zipIdx hentry)).2
    exact (h.range _ hw).1.le
  · rw [hfloors, zero_add]
    exact h.floors_sum_le.trans hcaptured.2
  · rintro s ⟨hentries, hassigned, hremainders⟩
    rw [List.nil_append] at hentries hremainders
    refine ⟨hentries.trans (zipIdx_map_amounts fun w => w * captured / weights.sum), ?_,
      hremainders.trans (zipIdx_map_positions (fun w => w * captured % weights.sum) hlength)⟩
    rw [hassigned, hfloors, zero_add]
    rfl

/-- The split gives every entitlement its share of the captured amount. -/
theorem shareOut_meets (hcaptured : 0 < captured ∧ captured ≤ maxMinor)
    (hlength : weights.length = initial.length) (h : Usable weights) :
    Meets (shareOut captured initial weights) fun result => ∃ divisor, 0 < divisor ∧
      (∀ w ∈ weights, divisor ∣ w) ∧
      result = withAmounts initial (apportion captured (reduced divisor weights)) ∧
      ∀ e ∈ result, 0 < e.amountMinor := by
  refine (Meets.refuse fun _ h => h).bind fun divisor hdivisor => ?_
  rw [fetch_eq_ok] at hdivisor
  obtain ⟨hpos, hdvd⟩ := commonDivisor_some (fun w hw => (h.range w hw).1) hdivisor
  have hreduced := h.reduced hpos hdvd
  have hlen : (reduced divisor weights).length = initial.length := by
    rw [reduced, List.length_map, hlength]
  refine Meets.bind (P := (· = reduced divisor weights)) ?_ ?_
  · refine (Meets.mapM (R := fun w v => v = w / divisor) fun w hw => ?_).mono fun vs hvs => ?_
    · have hw' := h.range w hw
      refine Meets.quotient hw'.1.le hpos ?_ rfl
      unfold maxMinor scale at hw'
      omega
    · rw [reduced, ← map_of_forall₂ hvs fun _ _ hv => hv, List.map_id']
  rintro _ rfl
  refine (total_meets (le_refl 0) (fun w hw => ⟨(hreduced.range w hw).1.le, (hreduced.range w hw).2⟩)
    hreduced.total_lt).bind ?_
  rintro total htotal
  rw [zero_add] at htotal
  subst htotal
  refine (split_meets hcaptured hlen hreduced).bind ?_
  rintro s ⟨hentries, hassigned, hremainders⟩
  have hleft := @left_bounds captured _ hreduced.sum_pos
  have hfew : ((reduced divisor weights).length : Int) ≤ 20 := by exact_mod_cast hreduced.few
  refine (Meets.signed (P := (· = left captured (reduced divisor weights))) ?_ ?_ hassigned).bind ?_
  · omega
  · omega
  rintro _ rfl
  have husize : asUsize (left captured (reduced divisor weights)) =
      (left captured (reduced divisor weights)).toNat := by
    unfold asUsize
    omega
  rw [hentries, hremainders, husize]
  refine (addUnit_meets ?_ ?_ ?_).bind ?_
  · rw [floors, List.length_map, hlen]
  · intro i hi
    rw [← hlen]
    exact raised_lt hi
  · intro x hx
    have hnonneg := @Usable.floors_nonneg captured _ hreduced hcaptured.1.le
    have hle := (List.single_le_sum hnonneg x hx).trans hreduced.floors_sum_le
    have hlength := @length_raised captured _ hreduced.sum_pos
    unfold maxMinor at hcaptured
    change 0 ≤ x ∧ x + ((raised captured (reduced divisor weights)).length : Int) < 2 ^ 63
    exact ⟨hnonneg x hx, by omega⟩
  · rintro _ rfl
    refine (Meets.refuse fun _ h => ensure_eq_ok.mp h).bind fun _ hall => .pure ⟨divisor, hpos, hdvd, rfl, ?_⟩
    intro e he
    exact of_decide_eq_true (List.all_eq_true.mp hall e he)

/-! ## What is allocated -/

/-- A passenger's weight: the accepted payable of a modern import, or the passenger's part of the saved
fare of its type. -/
structure Weighs (cs : Casing) (data : Value) (passengers : Nat) (e : InitialEntitlement) (w : ℚ) : Prop where
  positive : 0 < w
  modern : (data.field "rustPricing").isNull = false → ∃ fares amount,
    (data.field "rustPricing").field "passengers" = .obj fares ∧
    kindAmount fares (toAsciiLowercase e.passengerType) = .ok amount ∧ w = amount
  legacy : (data.field "rustPricing").isNull = true → passengers ≠ 1 → ∃ fares fare type count total,
    data.field "fares" = .arr fares ∧ fare ∈ fares ∧
    fare.field "passengerType" = .str type ∧ cs.lower type = cs.lower e.passengerType ∧
    (fare.field "count").asU64? = some count ∧ fareTotal fare = .ok total ∧ w = total / count

/-- The captured amount is split over the passengers in proportion to their weights. -/
structure Apportioned (cs : Casing) (data : Value) (captured : Int) (result : List InitialEntitlement) : Prop where
  order : result.map (·.passengerIndex) = List.range result.length
  total : (result.map (·.amountMinor)).sum = captured
  positive : ∀ e ∈ result, 0 < e.amountMinor
  shares : ∃ weights : List ℚ, List.Forall₂ (Weighs cs data result.length) result weights ∧
    List.Forall₂ (fun e w => e.amountMinor = ⌊captured * w / weights.sum⌋ ∨
      e.amountMinor = ⌊captured * w / weights.sum⌋ + 1) result weights
  fair : ∀ (i j : Nat) (a b : InitialEntitlement), i < j → result[i]? = some a → result[j]? = some b →
    a.passengerType = b.passengerType → b.amountMinor ≤ a.amountMinor ∧ a.amountMinor ≤ b.amountMinor + 1

/-- A passenger pays what its type does. -/
theorem allocate_pays {fares : List (String × Value)} {result result' : List InitialEntitlement}
    {entry : (Value × Value) × Nat} (h : allocate cs fares result entry = .ok result') :
    ∃ e, result' = result ++ [e] ∧ 0 < e.amountMinor ∧
      kindAmount fares (toAsciiLowercase e.passengerType) = .ok e.amountMinor := by
  simp only [allocate, bind_eq_ok, fetch_eq_ok, ensure_eq_ok, exists_const, pure_eq_ok] at h
  obtain ⟨type, -, amount, hamount, hpos, number, -, -, -, rfl⟩ := h
  refine ⟨_, rfl, hpos, ?_⟩
  dsimp only
  rw [lower_upper_lower]
  exact hamount

theorem allocateInitial_pays {pricing : Value} {result : List InitialEntitlement}
    (h : allocateInitial cs passengers tickets pricing captured = .ok result) :
    0 < captured ∧ ∃ fares, pricing.field "passengers" = .obj fares ∧ ∀ e ∈ result, 0 < e.amountMinor ∧
      kindAmount fares (toAsciiLowercase e.passengerType) = .ok e.amountMinor := by
  simp only [allocateInitial, bind_eq_ok, fetch_eq_ok, ensure_eq_ok, exists_const, pure_eq_ok,
    Value.asObject?_eq_some] at h
  obtain ⟨booked, -, ts, -, fares, hfares, hguard, _, -, _, -, -, found, hfound, -, _, -, -, rfl⟩ := h
  obtain ⟨added, hadded, hmade⟩ := foldlM_appends (fun _ _ _ h => allocate_pays h) hfound
  rw [List.nil_append] at hadded
  subst hadded
  refine ⟨hguard.1, fares, hfares, fun e he => ?_⟩
  obtain ⟨_, -, hpays⟩ := exists_left hmade he
  exact hpays

/-- The entitlements of an allocation are in the order of the passengers. -/
theorem allocateInitial_order {pricing : Value} {result : List InitialEntitlement}
    (h : allocateInitial cs passengers tickets pricing captured = .ok result) :
    result.map (·.passengerIndex) = List.range result.length ∧
      ∃ booked, passengers = .arr booked ∧ result.length = booked.length := by
  obtain ⟨booked, hbooked, hindex, -, -⟩ := (allocateInitial_conserves h).order
  have hlength := congrArg List.length hindex
  rw [List.length_map, List.length_range] at hlength
  exact ⟨by rw [hindex, hlength], booked, hbooked, hlength⟩

/-- A modern import gives every passenger its own payable. -/
theorem allocateInitial_apportioned {result : List InitialEntitlement}
    (hmodern : (data.field "rustPricing").isNull = false)
    (h : allocateInitial cs passengers tickets (data.field "rustPricing") captured = .ok result) :
    Apportioned cs data captured result := by
  obtain ⟨hcaptured, fares, hfares, hpays⟩ := allocateInitial_pays h
  have htotal := (allocateInitial_conserves h).total
  have hsum : (result.map fun e => (e.amountMinor : ℚ)).sum = captured := by
    rw [← htotal, Int.cast_list_sum, List.map_map]
    rfl
  have hne : (captured : ℚ) ≠ 0 := by exact_mod_cast hcaptured.ne'
  constructor
  case order => exact (allocateInitial_order h).1
  case total => exact htotal
  case positive => exact fun e he => (hpays e he).1
  case shares =>
    refine ⟨result.map fun e => (e.amountMinor : ℚ), ?_, ?_⟩
    · rw [List.forall₂_map_right_iff, List.forall₂_same]
      intro e he
      obtain ⟨hpos, hamount⟩ := hpays e he
      exact ⟨by exact_mod_cast hpos, fun _ => ⟨fares, _, hfares, hamount, rfl⟩,
        fun hlegacy => by rw [hmodern] at hlegacy; cases hlegacy⟩
    · rw [hsum, List.forall₂_map_right_iff, List.forall₂_same]
      intro e _
      left
      rw [mul_div_cancel_left₀ _ hne, Int.floor_intCast]
  case fair =>
    intro i j a b _ ha hb htype
    have hamount := (hpays a (List.mem_of_getElem? ha)).2
    rw [htype, (hpays b (List.mem_of_getElem? hb)).2] at hamount
    have hsame : b.amountMinor = a.amountMinor := Except.ok.inj hamount
    omega

/-- The only passenger gets everything. -/
theorem single_apportioned {pricing : Value} {units : Int} {result : List InitialEntitlement}
    (hlegacy : (data.field "rustPricing").isNull = true) (hcaptured : 0 < captured)
    (h : allocateInitial cs passengers tickets pricing units = .ok result) (hsingle : result.length = 1) :
    Apportioned cs data captured (result.modify 0 fun e => { e with amountMinor := captured }) := by
  obtain ⟨e, rfl⟩ := List.length_eq_one_iff.mp hsingle
  have hne : (captured : ℚ) ≠ 0 := by exact_mod_cast hcaptured.ne'
  constructor
  case order => exact (allocateInitial_order h).1
  case total => exact Int.add_zero captured
  case positive => exact List.forall_mem_singleton.mpr hcaptured
  case shares =>
    refine ⟨[1], .cons ⟨one_pos, fun hmodern => ?_, fun _ hmany => absurd rfl hmany⟩ .nil, .cons ?_ .nil⟩
    · rw [hlegacy] at hmodern
      cases hmodern
    · left
      rw [mul_one, List.sum_singleton, div_one, Int.floor_intCast]
  case fair =>
    intro i j a b hij ha hb _
    have hj := (List.getElem?_eq_some_iff.mp hb).1
    rw [List.length_modify, List.length_singleton] at hj
    omega

theorem floor_share {w total : Int} (htotal : 0 < total) (captured : Int) :
    ⌊(captured : ℚ) * w / total⌋ = w * captured / total := by
  obtain ⟨n, rfl⟩ := Int.eq_ofNat_of_zero_le htotal.le
  have hfloor := Rat.floor_intCast_div_natCast (w * captured) n
  push_cast at hfloor ⊢
  rw [mul_comm (captured : ℚ)]
  exact hfloor

/-- A weight for one passenger in money. -/
def passengerPart (w : Int) : ℚ := w / scale

theorem sum_passengerPart {divisor : Int} (hdvd : ∀ w ∈ weights, divisor ∣ w) :
    (weights.map passengerPart).sum = (divisor / scale : ℚ) * ((reduced divisor weights).sum : Int) := by
  induction weights with
  | nil => simp [reduced]
  | cons w weights ih =>
    rw [List.forall_mem_cons] at hdvd
    obtain ⟨k, rfl⟩ := hdvd.1
    have hreduced : reduced divisor (divisor * k :: weights) =
        (divisor * k / divisor) :: reduced divisor weights := rfl
    rw [List.map_cons, List.sum_cons, ih hdvd.2, hreduced, List.sum_cons]
    by_cases hzero : divisor = 0
    · subst hzero
      simp [passengerPart]
    · rw [Int.mul_ediv_cancel_left k hzero, passengerPart]
      push_cast
      ring

/-- A passenger's part of all parts is its weight's part of the reduced weights. -/
theorem passengerPart_ratio {divisor w : Int} (hpos : 0 < divisor) (hdvd : ∀ w ∈ weights, divisor ∣ w)
    (hw : w ∈ weights) : (captured : ℚ) * passengerPart w / (weights.map passengerPart).sum =
      captured * ((w / divisor : Int) : ℚ) / ((reduced divisor weights).sum : Int) := by
  obtain ⟨k, rfl⟩ := hdvd w hw
  have hscale : (scale : ℚ) ≠ 0 := by norm_num [scale]
  have hdivisor : (divisor / scale : ℚ) ≠ 0 := div_ne_zero (by exact_mod_cast hpos.ne') hscale
  rw [sum_passengerPart hdvd, Int.mul_ediv_cancel_left k hpos.ne', passengerPart]
  push_cast
  rw [show (captured : ℚ) * (divisor * k / scale) = divisor / scale * (captured * k) by ring]
  exact mul_div_mul_left _ _ hdivisor

/-- The weight of a passenger is its part of the saved fare. -/
theorem Exact.weighs {fares : List Value} {fare : Value} {e : InitialEntitlement} {w : Int} {passengers : Nat}
    {amount : Int} (h : Exact cs fare (cs.lower e.passengerType, w))
    (hlegacy : (data.field "rustPricing").isNull = true) (hfares : data.field "fares" = .arr fares)
    (hfare : fare ∈ fares) :
    Weighs cs data passengers { e with amountMinor := amount } (passengerPart w) := by
  obtain ⟨count, total, hcount, htotal, hne, hw⟩ := h.exact
  obtain ⟨type, htype, hkind⟩ := h.type
  have hscale : (scale : ℚ) ≠ 0 := by norm_num [scale]
  have hcountne : (count : ℚ) ≠ 0 := by exact_mod_cast hne
  have hratio : passengerPart w = total / count := by
    rw [passengerPart, div_eq_div_iff hscale hcountne]
    exact_mod_cast hw
  constructor
  case positive =>
    exact div_pos (by exact_mod_cast h.range.1) (by norm_num [scale])
  case modern =>
    intro hmodern
    rw [hlegacy] at hmodern
    cases hmodern
  case legacy =>
    exact fun _ _ => ⟨fares, fare, type, count, total, hfares, hfare, htype, hkind, hcount, htotal, hratio⟩

/-- The share of a passenger and what it is a share of. -/
theorem getElem?_shares {divisor : Int} {i : Nat} {a : InitialEntitlement}
    (ha : (withAmounts initial (apportion captured (reduced divisor weights)))[i]? = some a) :
    ∃ e w x, initial[i]? = some e ∧ weights[i]? = some w ∧ (reduced divisor weights)[i]? = some (w / divisor) ∧
      (apportion captured (reduced divisor weights))[i]? = some x ∧ a = { e with amountMinor := x } := by
  rw [withAmounts, List.getElem?_zipWith] at ha
  split at ha
  · rename_i e x he hx
    have hshare := hx
    rw [getElem?_apportion] at hshare
    obtain ⟨v, hv, -⟩ := Option.map_eq_some_iff.mp hshare
    have hweight := hv
    rw [reduced, List.getElem?_map] at hweight
    obtain ⟨w, hw, rfl⟩ := Option.map_eq_some_iff.mp hweight
    exact ⟨e, w, x, he, hw, hv, hx, (Option.some.inj ha).symm⟩
  · cases ha

theorem forall₂_of_getElem? {α β : Type} {R : α → β → Prop} {as : List α} {bs : List β}
    (hlength : as.length = bs.length)
    (h : ∀ (i : Nat) (a : α) (b : β), as[i]? = some a → bs[i]? = some b → R a b) : List.Forall₂ R as bs :=
  List.forall₂_iff_get.mpr ⟨hlength, fun i hi hi' =>
    h i _ _ (List.getElem?_eq_getElem hi) (List.getElem?_eq_getElem hi')⟩

/-- An older import is split by the largest remainders. -/
theorem legacy_apportioned {pricing : Value} {units divisor : Int} {fares : List Value}
    {made : List (String × Int)} (hlegacy : (data.field "rustPricing").isNull = true)
    (h : allocateInitial cs passengers tickets pricing units = .ok initial)
    (hfares : data.field "fares" = .arr fares) (hmade : ∀ p ∈ made, ∃ fare ∈ fares, Exact cs fare p)
    (hweights : List.Forall₂ (fun e w => made.lookup (cs.lower e.passengerType) = some w) initial weights)
    (husable : Usable weights) (hpos : 0 < divisor) (hdvd : ∀ w ∈ weights, divisor ∣ w)
    (hpositive : ∀ e ∈ withAmounts initial (apportion captured (reduced divisor weights)), 0 < e.amountMinor) :
    Apportioned cs data captured (withAmounts initial (apportion captured (reduced divisor weights))) := by
  have hsum := (husable.reduced hpos hdvd).sum_pos
  have hlength : (apportion captured (reduced divisor weights)).length = initial.length := by
    rw [apportion, length_raise, floors, List.length_map, reduced, List.length_map, hweights.length_eq]
  have hresult : (withAmounts initial (apportion captured (reduced divisor weights))).length =
      initial.length := by
    rw [withAmounts, List.length_zipWith, hlength, Nat.min_self]
  have hlookup : ∀ (i : Nat) (e : InitialEntitlement) (w : Int), initial[i]? = some e → weights[i]? = some w →
      made.lookup (cs.lower e.passengerType) = some w := by
    intro i e w he hw
    obtain ⟨hi, rfl⟩ := List.getElem?_eq_some_iff.mp he
    obtain ⟨hi', rfl⟩ := List.getElem?_eq_some_iff.mp hw
    exact (List.forall₂_iff_get.mp hweights).2 i hi hi'
  constructor
  case order =>
    rw [hresult, ← (allocateInitial_order h).1]
    exact indexes_withAmounts hlength
  case total =>
    rw [amounts_withAmounts hlength, sum_apportion hsum]
  case positive => exact hpositive
  case shares =>
    refine ⟨weights.map passengerPart, forall₂_of_getElem? ?_ ?_, forall₂_of_getElem? ?_ ?_⟩
    · rw [hresult, List.length_map, hweights.length_eq]
    · intro i a q ha hq
      obtain ⟨e, w, x, he, hw, -, -, rfl⟩ := getElem?_shares ha
      rw [List.getElem?_map, hw] at hq
      cases hq
      obtain ⟨fare, hfare, hexact⟩ := hmade _ (mem_of_lookup (hlookup i e w he hw))
      exact hexact.weighs hlegacy hfares hfare
    · rw [hresult, List.length_map, hweights.length_eq]
    · intro i a q ha hq
      obtain ⟨e, w, x, -, hw, hreduced, hx, rfl⟩ := getElem?_shares ha
      rw [List.getElem?_map, hw] at hq
      cases hq
      rw [passengerPart_ratio hpos hdvd (List.mem_of_getElem? hw), floor_share hsum]
      exact apportion_floor hreduced hx
  case fair =>
    intro i j a b hij ha hb htype
    obtain ⟨e, w, x, he, hw, hreduced, hx, rfl⟩ := getElem?_shares ha
    obtain ⟨e', w', y, he', hw', hreduced', hy, rfl⟩ := getElem?_shares hb
    have hsame := hlookup i e w he hw
    rw [show e.passengerType = e'.passengerType from htype, hlookup j e' w' he' hw'] at hsame
    cases hsame
    exact apportion_fair hij hreduced hreduced' hx hy

/-- The allocation of an import never overflows, and what it gives is the captured amount in proportion to
the weights, to the nearest unit and fairly. -/
theorem allocateImport_apportioned (cs : Casing) (data passengers tickets : Value) (captured : Int) :
    allocateImport cs data passengers tickets captured ≠ .error .overflow ∧
      ∀ result, allocateImport cs data passengers tickets captured = .ok result →
        Apportioned cs data captured result := by
  show Meets (allocateImport cs data passengers tickets captured) (Apportioned cs data captured)
  unfold allocateImport
  cases hlegacy : (data.field "rustPricing").isNull with
  | false => exact .refuse fun result h => allocateInitial_apportioned hlegacy h
  | true =>
    rw [if_neg (by decide)]
    refine (Meets.refuse fun _ h => minor_eq_ok.mp h).bind fun _ hminor => ?_
    refine (Meets.refuse fun _ h => ensure_eq_ok.mp h).bind fun _ hcaptured => ?_
    refine (Meets.refuse fun _ h => fetch_eq_ok.mp h).bind fun pax hpax => ?_
    refine (Meets.refuse fun _ h => h).bind fun counts hcounts => ?_
    rw [Option.filter_eq_some_iff, Value.asArray?_eq_some, decide_eq_true_eq] at hpax
    obtain ⟨rfl, hne, hfew⟩ := hpax
    refine (Meets.signed (P := (· = (pax.length : Int) * 100)) (by omega) (by omega) rfl).bind ?_
    rintro _ rfl
    refine (Meets.refuse fun _ h => h).bind fun initial hinitial => ?_
    have hlength : initial.length = pax.length := by
      obtain ⟨-, booked, hbooked, hlength⟩ := allocateInitial_order hinitial
      cases hbooked
      exact hlength
    split
    · rename_i hsingle
      exact .pure (single_apportioned hlegacy hcaptured hinitial (hlength.trans hsingle))
    · refine (Meets.refuse fun _ h => fetch_eq_ok.mp h).bind fun fares hfares => ?_
      rw [Value.asArray?_eq_some] at hfares
      refine Meets.bind (P := fun made => ∀ p ∈ made, ∃ fare ∈ fares, Exact cs fare p) ?_ ?_
      · refine Meets.foldlM (fun p hp => absurd hp List.not_mem_nil) fun made hmade fare hfare => ?_
        refine (weigh_meets counts made fare).mono ?_
        rintro _ ⟨weight, hweight, -, rfl⟩
        rw [List.forall_mem_append, List.forall_mem_singleton]
        exact ⟨hmade, fare, hfare, hweight.exact fun kind count hlookup =>
          (typeCounts_le hcounts hlookup).trans hfew⟩
      intro made hmade
      refine (Meets.refuse fun _ h => ensure_eq_ok.mp h).bind fun _ _ => ?_
      refine (Meets.mapM (R := fun e w => made.lookup (cs.lower e.passengerType) = some w)
        fun e _ => .refuse fun _ h => fetch_eq_ok.mp h).bind fun weights hweights => ?_
      have hcount : weights.length = pax.length := hweights.length_eq.symm.trans hlength
      have husable : Usable weights := by
        constructor
        case few => exact hcount.le.trans hfew
        case some =>
          rintro rfl
          exact hne (List.eq_nil_of_length_eq_zero hcount.symm)
        case range =>
          intro w hw
          obtain ⟨e, -, hlookup⟩ := exists_left hweights hw
          obtain ⟨_, -, hexact⟩ := hmade _ (mem_of_lookup hlookup)
          exact hexact.range
      refine (shareOut_meets ⟨hcaptured, hminor.1.2⟩ hweights.length_eq.symm husable).mono ?_
      rintro _ ⟨divisor, hpos, hdvd, rfl, hpositive⟩
      exact legacy_apportioned hlegacy hinitial hfares hmade hweights husable hpos hdvd hpositive

/-! ## Two adults and a child -/

/-- A saved fare. -/
def sampleAggregate (type : String) (count total : Nat) : Value :=
  .object [("passengerType", .str type), ("count", .ofInt count), ("totalPrice", .ofInt total)]

def sampleLegacy : Value :=
  .object [("fares", .arr [sampleAggregate "ADT" 2 200, sampleAggregate "CHD" 1 50])]

/-- The unit that is left goes to the child, whose share was rounded down most. -/
theorem allocateImport_family : ∃ result,
    allocateImport plainCasing sampleLegacy (.arr (sampleBooked ["ADT", "ADT", "CHD"]))
      (.arr (sampleTickets ["1", "2", "3"])) 10003 = .ok result ∧
    result.map (·.amountMinor) = [4001, 4001, 2001] ∧ Apportioned plainCasing sampleLegacy 10003 result := by
  have hread : (allocateImport plainCasing sampleLegacy (.arr (sampleBooked ["ADT", "ADT", "CHD"]))
      (.arr (sampleTickets ["1", "2", "3"])) 10003).map (fun result => result.map (·.amountMinor)) =
      .ok [4001, 4001, 2001] := by decide +kernel
  obtain ⟨result, hresult, hamounts⟩ := map_eq_ok.mp hread
  exact ⟨result, hresult, hamounts, (allocateImport_apportioned _ _ _ _ _).2 result hresult⟩

end ShaponTravels.Wallet.TicketManagement
