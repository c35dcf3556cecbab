import Mathlib.Data.Finset.Max
import Mathlib.Logic.Equiv.Defs
import Mathlib.Data.List.OfFn
import ShaponTravels.Search.Winners

/-!
# Best — what the selection retains

Whether an offer is retained depends on the offer and on the set of offers, not on their order: it
takes no part in the comparison, or no offer of its key beats it.
-/

namespace ShaponTravels.Search.Selection

open Library

variable {offers : List Offer} {priority : List String}

/-- Two offers with the same equivalence key. -/
def SameKey (o o' : Offer) : Prop :=
  ∃ key c c', equivalenceKey o.2 = some (key, c) ∧ equivalenceKey o'.2 = some (key, c')

/-- An offer with no key, a total that is no number, or a key in conflict. -/
def Exempt (offers : List Offer) (o : Offer) : Prop :=
  equivalenceKey o.2 = none ∨ numericTotal o = none ∨
    ∃ key c, equivalenceKey o.2 = some (key, c) ∧ Conflict offers key

/-- `o'` has a strictly lower total than `o`, or the same total and a strictly better rank. -/
def Beats (priority : List String) (o' o : Offer) : Prop :=
  ∃ t' t r' r, numericTotal o' = some t' ∧ numericTotal o = some t ∧
    rank priority o'.1 = some r' ∧ rank priority o.1 = some r ∧
    (t'.toRat < t.toRat ∨ t'.toRat = t.toRat ∧ r' < r)

/-! ## Candidates -/

theorem candidate_eq_some {o : Offer} {key : String} {t : BigDecimal} :
    candidate offers o = some (key, t) ↔
      (∃ c, equivalenceKey o.2 = some (key, c)) ∧ ¬ Conflict offers key ∧ numericTotal o = some t := by
  unfold candidate
  cases hkey : equivalenceKey o.2 with
  | none => simp
  | some keyed =>
    obtain ⟨key', c⟩ := keyed
    simp only [Option.bind_some, ← conflicted_iff, Option.some.injEq, Prod.mk.injEq]
    by_cases hconflict : conflicted offers key' = true
    · rw [if_pos hconflict]
      refine iff_of_false (by simp) ?_
      rintro ⟨⟨-, rfl, -⟩, hnone, -⟩
      exact hnone hconflict
    · rw [if_neg hconflict, Option.map_eq_some_iff]
      constructor
      · rintro ⟨t', ht, heq⟩
        cases heq
        exact ⟨⟨c, rfl, rfl⟩, hconflict, ht⟩
      · rintro ⟨⟨-, rfl, -⟩, -, ht⟩
        exact ⟨t, ht, rfl⟩

theorem candidate_eq_none {o : Offer} : candidate offers o = none ↔ Exempt offers o := by
  constructor
  · intro hnone
    cases hkey : equivalenceKey o.2 with
    | none => exact .inl hkey
    | some keyed =>
      cases htotal : numericTotal o with
      | none => exact .inr (.inl htotal)
      | some t =>
        by_contra hexempt
        have hcandidate := candidate_eq_some.mpr ⟨⟨keyed.2, hkey⟩,
          fun hc => hexempt (.inr (.inr ⟨keyed.1, keyed.2, hkey, hc⟩)), htotal⟩
        rw [hnone] at hcandidate
        cases hcandidate
  · intro hexempt
    cases hc : candidate offers o with
    | none => rfl
    | some c =>
      obtain ⟨⟨cabins, hkey⟩, hconflict, htotal⟩ := candidate_eq_some.mp hc
      rcases hexempt with hnone | hnone | ⟨key, c', hkey', hconflict'⟩
      · rw [hnone] at hkey; cases hkey
      · rw [hnone] at htotal; cases htotal
      · rw [hkey] at hkey'
        cases hkey'
        exact absurd hconflict' hconflict

/-! ## Retained offers -/

/-- The least offers of a group, said without positions. -/
def Least (offers : List Offer) (priority : List String) (o : Offer) (key : String)
    (t : BigDecimal) : Prop :=
  ∀ o' ∈ offers, ∀ t', candidate offers o' = some (key, t') →
    score priority o.1 t ≤ score priority o'.1 t'

theorem leastBefore_length {i : Nat} {o : Offer} {key : String} {t : BigDecimal}
    (ho : offers[i]? = some o) (hc : candidate offers o = some (key, t)) :
    LeastBefore (entry offers priority) offers.length key i ↔ Least offers priority o key t := by
  have hi : i < offers.length := (List.getElem?_eq_some_iff.mp ho).1
  have hentry := entry_of_candidate priority ho hc
  constructor
  · rintro ⟨-, b, hb, hleast⟩ o' ho' t' hc'
    rw [hentry] at hb
    cases hb
    obtain ⟨l, hl⟩ := List.mem_iff_getElem?.mp ho'
    exact hleast l (List.getElem?_eq_some_iff.mp hl).1 _ (entry_of_candidate priority hl hc')
  · intro hleast
    refine ⟨hi, _, hentry, fun l _ b' hb' => ?_⟩
    obtain ⟨o', t', ho', hc', rfl⟩ := entry_eq_some.mp hb'
    exact hleast o' (List.mem_of_getElem? ho') t' hc'

theorem mem_winners_iff (hrank : ∀ o ∈ offers, (rank priority o.1).isSome) {i : Nat} {o : Offer}
    (ho : offers[i]? = some o) : i ∈ winners offers priority ↔
      ∀ key t, candidate offers o = some (key, t) → Least offers priority o key t := by
  have hi : i < offers.length := (List.getElem?_eq_some_iff.mp ho).1
  rw [mem_winners, (scanned_all hrank).retained]
  constructor
  · rintro ⟨-, hnot | hnone | ⟨key', hleast⟩⟩ key t hc
    · omega
    · simp [entry, ho, hc] at hnone
    · have hkey : key' = key := by
        obtain ⟨-, b, hb, -⟩ := id hleast
        obtain ⟨o', t', ho', hc', -⟩ := entry_eq_some.mp hb
        rw [ho] at ho'
        cases ho'
        rw [hc] at hc'
        cases hc'
        rfl
      subst hkey
      exact (leastBefore_length ho hc).mp hleast
  · intro hkept
    refine ⟨hi, .inr ?_⟩
    cases hc : candidate offers o with
    | none => exact .inl (by simp [entry, ho, hc])
    | some c => exact .inr ⟨c.1, (leastBefore_length ho hc).mpr (hkept c.1 c.2 hc)⟩

theorem score_lt_iff {o o' : Offer} {t t' : BigDecimal} {r r' : Nat}
    (hr : rank priority o.1 = some r) (hr' : rank priority o'.1 = some r') :
    score priority o'.1 t' < score priority o.1 t ↔
      t'.toRat < t.toRat ∨ t'.toRat = t.toRat ∧ r' < r := by
  rw [score, score, hr, hr', Option.getD_some, Option.getD_some, Prod.Lex.toLex_lt_toLex]

/-- An offer is least exactly when no offer of its key beats it. -/
theorem least_iff (hrank : ∀ o ∈ offers, (rank priority o.1).isSome) {o : Offer} {key : String}
    {t : BigDecimal} (ho : o ∈ offers) (hc : candidate offers o = some (key, t)) :
    Least offers priority o key t ↔ ∀ o' ∈ offers, SameKey o o' → ¬ Beats priority o' o := by
  obtain ⟨⟨c, hkey⟩, hconflict, htotal⟩ := candidate_eq_some.mp hc
  constructor
  · rintro hleast o' ho' ⟨key', c₁, c₂, hk, hk'⟩ ⟨t', t₁, r', r, ht', ht, hr', hr, hbeats⟩
    rw [hkey] at hk
    cases hk
    rw [htotal] at ht
    cases ht
    have hle := hleast o' ho' t' (candidate_eq_some.mpr ⟨⟨c₂, hk'⟩, hconflict, ht'⟩)
    exact absurd ((score_lt_iff hr hr').mpr hbeats) (not_lt_of_ge hle)
  · intro hunbeaten o' ho' t' hc'
    by_contra hlt
    obtain ⟨⟨c', hkey'⟩, -, htotal'⟩ := candidate_eq_some.mp hc'
    obtain ⟨r, hr⟩ := Option.isSome_iff_exists.mp (hrank o ho)
    obtain ⟨r', hr'⟩ := Option.isSome_iff_exists.mp (hrank o' ho')
    exact hunbeaten o' ho' ⟨key, c, c', hkey, hkey'⟩
      ⟨t', t, r', r, htotal', htotal, hr', hr, (score_lt_iff hr hr').mp (lt_of_not_ge hlt)⟩

/-- Every group of candidates has a least one at or below any of its members. -/
theorem exists_least (priority : List String) {o : Offer} {key : String} {t : BigDecimal} (ho : o ∈ offers)
    (hc : candidate offers o = some (key, t)) :
    ∃ (j : Nat) (o' : Offer) (t' : BigDecimal), offers[j]? = some o' ∧
      candidate offers o' = some (key, t') ∧ Least offers priority o' key t' ∧
      score priority o'.1 t' ≤ score priority o.1 t := by
  -- the positions of the group, and the least of their scores
  let scoreAt : Nat → Score := fun j => ((entry offers priority j).map Prod.snd).getD (toLex (0, 0))
  let group : Finset Nat :=
    (Finset.range offers.length).filter fun j =>
      (entry offers priority j).any fun e => e.1 = key
  have hgroup : ∀ j, j ∈ group ↔ ∃ o' t', offers[j]? = some o' ∧
      candidate offers o' = some (key, t') ∧ scoreAt j = score priority o'.1 t' := by
    intro j
    simp only [group, Finset.mem_filter, Finset.mem_range, Option.any_eq_true, decide_eq_true_eq]
    constructor
    · rintro ⟨-, ⟨k, b⟩, he, rfl⟩
      obtain ⟨o', t', ho', hc', rfl⟩ := entry_eq_some.mp he
      exact ⟨o', t', ho', hc', by simp [scoreAt, he]⟩
    · rintro ⟨o', t', ho', hc', -⟩
      have he := entry_of_candidate priority ho' hc'
      exact ⟨(List.getElem?_eq_some_iff.mp ho').1, _, he, rfl⟩
  obtain ⟨i, hi⟩ := List.mem_iff_getElem?.mp ho
  have hentry := entry_of_candidate priority hi hc
  have hmem : i ∈ group := (hgroup i).mpr ⟨o, t, hi, hc, by simp [scoreAt, hentry]⟩
  obtain ⟨j, hj, hmin⟩ := Finset.exists_min_image group scoreAt ⟨i, hmem⟩
  obtain ⟨o', t', ho', hc', hscore⟩ := (hgroup j).mp hj
  refine ⟨j, o', t', ho', hc', ?_, ?_⟩
  · intro o₂ ho₂ t₂ hc₂
    obtain ⟨l, hl⟩ := List.mem_iff_getElem?.mp ho₂
    have hentry₂ := entry_of_candidate priority hl hc₂
    have hle := hmin l ((hgroup l).mpr ⟨o₂, t₂, hl, hc₂, by simp [scoreAt, hentry₂]⟩)
    rw [hscore] at hle
    simpa [scoreAt, hentry₂] using hle
  · have hle := hmin i hmem
    rw [hscore] at hle
    simpa [scoreAt, hentry] using hle

/-! ## The selection keeps the best of each equivalent group -/

/-- The offers in another order. -/
def permuted (offers : List Offer) (σ : Equiv.Perm (Fin offers.length)) : List Offer :=
  List.ofFn fun i => offers.get (σ i)

theorem mem_permuted {σ : Equiv.Perm (Fin offers.length)} {o : Offer} :
    o ∈ permuted offers σ ↔ o ∈ offers := by
  rw [permuted, List.mem_ofFn, List.mem_iff_get]
  constructor
  · rintro ⟨i, hi⟩
    exact ⟨σ i, hi⟩
  · rintro ⟨i, hi⟩
    exact ⟨σ.symm i, by rw [σ.apply_symm_apply]; exact hi⟩

/-- Only which offers there are decides whether one takes part in the comparison. -/
theorem candidate_congr {offers' : List Offer} (h : ∀ o, o ∈ offers' ↔ o ∈ offers) (o : Offer) :
    candidate offers' o = candidate offers o := by
  have hconflict : ∀ key, conflicted offers' key = conflicted offers key := by
    intro key
    rw [Bool.eq_iff_iff, conflicted_iff, conflicted_iff]
    simp only [Conflict, h]
  simp only [candidate, hconflict]

structure KeepsBest (offers : List Offer) (priority : List String) : Prop where
  /-- Reordering the offers reorders the retained ones. -/
  permutes : ∀ (σ : Equiv.Perm (Fin offers.length)) (i : Fin offers.length),
    (i : Nat) ∈ winners (permuted offers σ) priority ↔ (σ i : Nat) ∈ winners offers priority
  /-- In a group without a conflict the offers that no other beats are retained. -/
  least : ∀ (i : Nat) (o : Offer), offers[i]? = some o → ¬ Exempt offers o →
    (i ∈ winners offers priority ↔ ∀ o' ∈ offers, SameKey o o' → ¬ Beats priority o' o)
  /-- Offers outside the comparison are retained. -/
  exempt : ∀ (i : Nat) (o : Offer), offers[i]? = some o → Exempt offers o →
    i ∈ winners offers priority
  /-- A dropped offer is beaten by a retained one of its key. -/
  beaten : ∀ (i : Nat) (o : Offer), offers[i]? = some o → i ∉ winners offers priority →
    ∃ (j : Nat) (o' : Offer), offers[j]? = some o' ∧ j ∈ winners offers priority ∧ SameKey o o' ∧
      Beats priority o' o
  /-- Every group keeps a member. -/
  survives : ∀ (i : Nat) (o : Offer) (key : String) (c : List (Option String)),
    offers[i]? = some o → equivalenceKey o.2 = some (key, c) →
    ∃ (j : Nat) (o' : Offer), offers[j]? = some o' ∧ j ∈ winners offers priority ∧ SameKey o o'

theorem winners_beaten (hrank : ∀ o ∈ offers, (rank priority o.1).isSome) {i : Nat} {o : Offer}
    (ho : offers[i]? = some o) (hdropped : i ∉ winners offers priority) :
    ∃ (j : Nat) (o' : Offer), offers[j]? = some o' ∧ j ∈ winners offers priority ∧ SameKey o o' ∧
      Beats priority o' o := by
  have hmem := List.mem_of_getElem? ho
  rw [mem_winners_iff hrank ho] at hdropped
  push Not at hdropped
  obtain ⟨key, t, hc, hnot⟩ := hdropped
  obtain ⟨j, o', t', hj, hc', hleast, hle⟩ := exists_least priority hmem hc
  have hmem' := List.mem_of_getElem? hj
  obtain ⟨⟨c, hkey⟩, -, htotal⟩ := candidate_eq_some.mp hc
  obtain ⟨⟨c', hkey'⟩, -, htotal'⟩ := candidate_eq_some.mp hc'
  obtain ⟨r, hr⟩ := Option.isSome_iff_exists.mp (hrank o hmem)
  obtain ⟨r', hr'⟩ := Option.isSome_iff_exists.mp (hrank o' hmem')
  -- the dropped offer is not level with a least one, or it would be least itself
  have hlt : score priority o'.1 t' < score priority o.1 t := by
    refine lt_of_le_of_ne hle fun heq => hnot fun o₂ ho₂ t₂ hc₂ => ?_
    rw [← heq]
    exact hleast o₂ ho₂ t₂ hc₂
  refine ⟨j, o', hj, (mem_winners_iff hrank hj).mpr ?_, ⟨key, c, c', hkey, hkey'⟩,
    ⟨t', t, r', r, htotal', htotal, hr', hr, (score_lt_iff hr hr').mp hlt⟩⟩
  intro key₂ t₂ hc₂
  rw [hc'] at hc₂
  cases hc₂
  exact hleast

theorem rank_isSome {supplier : String} : (rank priority supplier).isSome ↔ supplier ∈ priority := by
  rw [rank, List.findIdx?_isSome, List.any_eq_true]
  simp

/-- With every supplier in the priority list, the selection keeps the best of each equivalent
group. -/
theorem winners_keepsBest (offers : List Offer) (priority : List String)
    (h : ∀ o ∈ offers, o.1 ∈ priority) : KeepsBest offers priority := by
  have hrank : ∀ o ∈ offers, (rank priority o.1).isSome :=
    fun o ho => rank_isSome.mpr (h o ho)
  refine ⟨?_, ?_, ?_, fun i o ho => winners_beaten hrank ho, ?_⟩
  · intro σ i
    have hrank' : ∀ o ∈ permuted offers σ, (rank priority o.1).isSome :=
      fun o ho => hrank o (mem_permuted.mp ho)
    have hleft : (permuted offers σ)[(i : Nat)]? = some (offers.get (σ i)) := by
      rw [permuted, List.getElem?_ofFn, dif_pos i.isLt]
    have hright : offers[(σ i : Nat)]? = some (offers.get (σ i)) := by
      rw [List.getElem?_eq_getElem (σ i).isLt]
      rfl
    rw [mem_winners_iff hrank' hleft, mem_winners_iff hrank hright]
    simp only [Least, candidate_congr (fun _ => mem_permuted (σ := σ)), mem_permuted]
  · intro i o ho hexempt
    have hmem := List.mem_of_getElem? ho
    rw [mem_winners_iff hrank ho]
    cases hc : candidate offers o with
    | none => exact absurd (candidate_eq_none.mp hc) hexempt
    | some c =>
      obtain ⟨key, t⟩ := c
      rw [← least_iff hrank hmem hc]
      constructor
      · intro hkept
        exact hkept key t rfl
      · intro hleast key' t' heq
        cases heq
        exact hleast
  · intro i o ho hexempt
    rw [mem_winners_iff hrank ho]
    intro key t hc
    rw [candidate_eq_none.mpr hexempt] at hc
    cases hc
  · intro i o key c ho hkey
    by_cases hkept : i ∈ winners offers priority
    · exact ⟨i, o, ho, hkept, key, c, c, hkey, hkey⟩
    · obtain ⟨j, o', hj, hwins, hsame, -⟩ := winners_beaten hrank ho hkept
      exact ⟨j, o', hj, hwins, hsame⟩

set_option maxRecDepth 8000 in
/-- Two suppliers quote one flight; the cheaper one is retained. -/
theorem winners_keepsBest_cheaper :
    ∃ offers, winners offers ["takeoff", "triplover"] = [1] ∧
      KeepsBest offers ["takeoff", "triplover"] := by
  let segment : Value := .obj [("airlineCode", .str "BG"), ("arrival", .str "2"),
    ("baggage", .arr [.obj [("amount", .num "20"), ("passengerTypeCode", .str "ADT"),
      ("units", .str "KG")]]), ("bookingClass", .str "Y"), ("departure", .str "1"),
    ("fareBasisCode", .str "F"), ("flightNumber", .str "147"), ("from", .str "DAC"),
    ("handBaggage", .str "7KG"), ("serviceClass", .str "E"), ("to", .str "CGP")]
  let offer (total : String) : Value := .obj [("bookable", .bool true),
    ("bookingComponents", .arr [.obj []]),
    ("directions", .arr [.arr [.obj [("segments", .arr [segment])]]]),
    ("hasExtraService", .bool false), ("isCodeShared", .bool false),
    ("passengerCounts", .obj [("adt", .num "1")]), ("passengerFares", .obj []),
    ("platingCarrier", .str "BG"), ("rbdChangeAllowed", .bool true), ("refundable", .bool false),
    ("totalPrice", .num total)]
  refine ⟨[("takeoff", offer "4033.06"), ("triplover", offer "4033.050")], by decide, ?_⟩
  exact winners_keepsBest _ _ (by decide)

end ShaponTravels.Search.Selection
