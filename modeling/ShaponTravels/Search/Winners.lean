import Mathlib.Data.Prod.Lex
import Mathlib.Algebra.Order.Field.Rat
import ShaponTravels.Library.GroupMinimum
import ShaponTravels.Search.Conflicts

/-!
# Winners — the second pass keeps the least offers of each group

After every offer, the positions still retained are those not yet looked at, those that do not
take part in the comparison, and those that are least in their group so far.
-/

namespace ShaponTravels.Search.Selection

open Library

/-! ## Candidates and scores -/

variable {offers : List Offer} {priority : List String}

/-- The group and the total of an offer that takes part in the comparison. -/
def candidate (offers : List Offer) (offer : Offer) : Option (String × BigDecimal) :=
  (equivalenceKey offer.2).bind fun keyed =>
    if conflicted offers keyed.1 then none
    else (numericTotal offer).map fun total => (keyed.1, total)

/-- Total first, then the rank of the supplier. -/
abbrev Score := ℚ ×ₗ ℕ

def score (priority : List String) (supplier : String) (total : BigDecimal) : Score :=
  toLex (total.toRat, (rank priority supplier).getD 0)

/-- The group and the score of the offer at a position. -/
def entry (offers : List Offer) (priority : List String) (j : Nat) : Option (String × Score) :=
  offers[j]?.bind fun offer =>
    (candidate offers offer).map fun c => (c.1, score priority offer.1 c.2)

theorem entry_eq_some {j : Nat} {key : String} {b : Score} :
    entry offers priority j = some (key, b) ↔ ∃ offer total, offers[j]? = some offer ∧
      candidate offers offer = some (key, total) ∧ b = score priority offer.1 total := by
  simp only [entry, Option.bind_eq_some_iff, Option.map_eq_some_iff, Prod.mk.injEq]
  constructor
  · rintro ⟨offer, ho, ⟨k, total⟩, hc, rfl, rfl⟩
    exact ⟨offer, total, ho, hc, rfl⟩
  · rintro ⟨offer, total, ho, hc, rfl⟩
    exact ⟨offer, ho, (key, total), hc, rfl, rfl⟩

theorem entry_of_candidate (priority : List String) {j : Nat} {o : Offer} {key : String}
    {t : BigDecimal} (ho : offers[j]? = some o) (hc : candidate offers o = some (key, t)) :
    entry offers priority j = some (key, score priority o.1 t) :=
  entry_eq_some.mpr ⟨o, t, ho, hc, rfl⟩

/-- `place` acts on candidates only. -/
theorem place_eq (s : Scan) (index : Nat) (offer : Offer) :
    place offers priority s index offer =
      match candidate offers offer with
      | none => s
      | some (key, total) =>
        match findKey key s.groups with
        | none => { s with groups := upsert key ⟨total, [index]⟩ s.groups }
        | some g =>
          match ordering offers priority offer.1 total g with
          | .lt =>
            { groups := upsert key ⟨total, [index]⟩ s.groups
              retained := drop g.indices s.retained }
          | .gt => { s with retained := drop [index] s.retained }
          | .eq =>
            { s with groups := upsert key { g with indices := g.indices ++ [index] } s.groups } := by
  unfold place candidate
  cases equivalenceKey offer.2 with
  | none => rfl
  | some keyed =>
    obtain ⟨key, cabins⟩ := keyed
    simp only [Option.bind_some]
    by_cases hconflict : conflicted offers key = true
    · rw [if_pos hconflict, if_pos hconflict]
    · rw [if_neg hconflict, if_neg hconflict]
      cases numericTotal offer with
      | none => rfl
      | some total => rfl

theorem drop_getElem? (indices : List Nat) (retained : List Bool) (j : Nat) :
    (drop indices retained)[j]? = some true ↔ retained[j]? = some true ∧ j ∉ indices := by
  induction indices generalizing retained with
  | nil => simp [drop]
  | cons i indices ih =>
    have hcons : drop (i :: indices) retained = drop indices (retained.set i false) := rfl
    rw [hcons, ih, List.getElem?_set]
    by_cases hij : i = j
    · subst hij
      by_cases hlength : i < retained.length
      · simp [hlength]
      · simp [hlength]
    · simp [hij, Ne.symm hij]

theorem length_drop (indices : List Nat) (retained : List Bool) :
    (drop indices retained).length = retained.length := by
  induction indices generalizing retained with
  | nil => rfl
  | cons i indices ih =>
    have hcons : drop (i :: indices) retained = drop indices (retained.set i false) := rfl
    rw [hcons, ih, List.length_set]

/-! ## The second pass -/

/-- What the second pass has after the first `n` offers. -/
structure Scanned (offers : List Offer) (priority : List String) (n : Nat) (s : Scan) : Prop where
  length : s.retained.length = offers.length
  absent : ∀ key, findKey key s.groups = none → ∀ j < n, ∀ b, entry offers priority j ≠ some (key, b)
  nonempty : ∀ key g, findKey key s.groups = some g → g.indices ≠ []
  indices : ∀ key g, findKey key s.groups = some g →
    ∀ j, j ∈ g.indices ↔ LeastBefore (entry offers priority) n key j
  lowest : ∀ key g, findKey key s.groups = some g →
    ∀ j ∈ g.indices, ∀ b, entry offers priority j = some (key, b) → (ofLex b).1 = g.lowest.toRat
  retained : ∀ j, s.retained[j]? = some true ↔ j < offers.length ∧
    (n ≤ j ∨ entry offers priority j = none ∨
      ∃ key, LeastBefore (entry offers priority) n key j)

theorem Scanned.initial (offers : List Offer) (priority : List String) :
    Scanned offers priority 0 ⟨[], List.replicate offers.length true⟩ where
  length := List.length_replicate
  absent := by intro key _ j hj; omega
  nonempty := by intro key g hg; cases hg
  indices := by intro key g hg; cases hg
  lowest := by intro key g hg; cases hg
  retained := by
    intro j
    rw [List.getElem?_replicate]
    by_cases hj : j < offers.length
    · simp [hj]
    · simp [hj]

/-- With ranks for both suppliers, `ordering` compares scores. -/
theorem ordering_eq {supplier : String} {total : BigDecimal} {g : Group} {m : Nat} {head : Offer}
    {a b : Nat} (hhead : g.indices.head? = some m) (hoffer : offers[m]? = some head)
    (ha : rank priority supplier = some a) (hb : rank priority head.1 = some b) :
    ordering offers priority supplier total g =
      (total.cmp g.lowest).then (compare a b) := by
  simp only [ordering, hhead, Option.bind_some, hoffer, Option.elim_some, ha, hb]

theorem then_compare {t u : BigDecimal} {a b : Nat} :
    ((t.cmp u).then (compare a b) = .lt ↔ toLex (t.toRat, a) < toLex (u.toRat, b)) ∧
      ((t.cmp u).then (compare a b) = .eq ↔ toLex (t.toRat, a) = toLex (u.toRat, b)) ∧
      ((t.cmp u).then (compare a b) = .gt ↔ toLex (u.toRat, b) < toLex (t.toRat, a)) := by
  simp only [Prod.Lex.toLex_lt_toLex, toLex_inj, Prod.mk.injEq]
  cases hcmp : t.cmp u with
  | lt =>
    have hlt := BigDecimal.cmp_eq_lt.mp hcmp
    simp [hlt, ne_of_lt hlt, ne_of_gt hlt, not_lt_of_gt hlt]
  | eq =>
    have heq := BigDecimal.cmp_eq_eq.mp hcmp
    simp [heq, Nat.compare_eq_lt, Nat.compare_eq_gt]
  | gt =>
    have hgt := BigDecimal.cmp_eq_gt.mp hcmp
    simp [hgt, ne_of_lt hgt, ne_of_gt hgt, not_lt_of_gt hgt]

/-- The state of an offer's own group after the second pass looked at it. -/
structure Updated (offers : List Offer) (priority : List String) (n : Nat) (key : String)
    (s s' : Scan) (g : Group) : Prop where
  groups : s'.groups = upsert key g s.groups
  nonempty : g.indices ≠ []
  indices : ∀ j, j ∈ g.indices ↔ LeastBefore (entry offers priority) (n + 1) key j
  lowest : ∀ j ∈ g.indices, ∀ b, entry offers priority j = some (key, b) →
    (ofLex b).1 = g.lowest.toRat
  length : s'.retained.length = s.retained.length
  retained : ∀ j, s'.retained[j]? = some true ↔ s.retained[j]? = some true ∧
    (LeastBefore (entry offers priority) n key j →
      LeastBefore (entry offers priority) (n + 1) key j) ∧
    (j = n → LeastBefore (entry offers priority) (n + 1) key j)

/-- Looking at an offer of group `key` keeps the invariant: other groups do not change, and in its
own group the least offers are kept. -/
theorem Updated.scanned {n : Nat} {key : String} {b : Score} {s s' : Scan} {g : Group}
    (h : Updated offers priority n key s s' g) (hs : Scanned offers priority n s)
    (hn : entry offers priority n = some (key, b)) : Scanned offers priority (n + 1) s' := by
  have hother : ∀ key', key' ≠ key → ∀ j, LeastBefore (entry offers priority) (n + 1) key' j ↔
      LeastBefore (entry offers priority) n key' j := by
    intro key' hne
    apply leastBefore_succ_of_other
    intro b' hb'
    rw [hn] at hb'
    cases hb'
    exact hne rfl
  have hfind : ∀ key', findKey key' s'.groups =
      if key = key' then some g else findKey key' s.groups := by
    intro key'
    rw [h.groups, findKey_upsert]
  refine ⟨h.length.trans hs.length, ?_, ?_, ?_, ?_, ?_⟩
  · intro key' habsent j hj b' hb'
    rw [hfind] at habsent
    by_cases hkey : key = key'
    · rw [if_pos hkey] at habsent
      cases habsent
    · rw [if_neg hkey] at habsent
      rcases Nat.lt_succ_iff_lt_or_eq.mp hj with hj | rfl
      · exact hs.absent key' habsent j hj b' hb'
      · rw [hn] at hb'
        cases hb'
        exact hkey rfl
  · intro key' g' hg'
    rw [hfind] at hg'
    by_cases hkey : key = key'
    · rw [if_pos hkey] at hg'
      cases hg'
      exact h.nonempty
    · rw [if_neg hkey] at hg'
      exact hs.nonempty key' g' hg'
  · intro key' g' hg' j
    rw [hfind] at hg'
    by_cases hkey : key = key'
    · rw [if_pos hkey] at hg'
      cases hg'
      rw [← hkey]
      exact h.indices j
    · rw [if_neg hkey] at hg'
      rw [hother key' (Ne.symm hkey)]
      exact hs.indices key' g' hg' j
  · intro key' g' hg' j hj b' hb'
    rw [hfind] at hg'
    by_cases hkey : key = key'
    · rw [if_pos hkey] at hg'
      cases hg'
      exact h.lowest j hj b' (hkey ▸ hb')
    · rw [if_neg hkey] at hg'
      exact hs.lowest key' g' hg' j hj b' hb'
  · intro j
    rw [h.retained, hs.retained]
    constructor
    · rintro ⟨⟨hj, hold⟩, hkeep, hnew⟩
      refine ⟨hj, ?_⟩
      rcases Nat.lt_trichotomy j n with hlt | heq | hgt
      · rcases hold with hnj | hnone | ⟨key', hleast⟩
        · omega
        · exact .inr (.inl hnone)
        · by_cases hkey : key' = key
          · subst hkey
            exact .inr (.inr ⟨key', hkeep hleast⟩)
          · exact .inr (.inr ⟨key', (hother key' hkey j).mpr hleast⟩)
      · exact .inr (.inr ⟨key, hnew heq⟩)
      · exact .inl hgt
    · rintro ⟨hj, hnow⟩
      -- an offer that is least now in any group is least in its own
      have hown : ∀ key' b', LeastBefore (entry offers priority) (n + 1) key' j →
          entry offers priority j = some (key, b') →
          LeastBefore (entry offers priority) (n + 1) key j := by
        intro key' b' hleast hb'
        obtain ⟨-, c, hc, -⟩ := id hleast
        rw [hb'] at hc
        cases hc
        exact hleast
      refine ⟨⟨hj, ?_⟩, ?_, ?_⟩
      · rcases hnow with hnj | hnone | ⟨key', hleast⟩
        · exact .inl (by omega)
        · exact .inr (.inl hnone)
        · by_cases hjn : n ≤ j
          · exact .inl hjn
          · obtain ⟨-, c, hc, hall⟩ := hleast
            exact .inr (.inr ⟨key', by omega, c, hc, fun l hl => hall l (by omega)⟩)
      · rintro ⟨hjn, c, hc, -⟩
        rcases hnow with hnj | hnone | ⟨key', hleast⟩
        · omega
        · rw [hnone] at hc
          cases hc
        · exact hown key' c hleast hc
      · rintro rfl
        rcases hnow with hnj | hnone | ⟨key', hleast⟩
        · omega
        · rw [hnone] at hn
          cases hn
        · exact hown key' b hleast hn

/-- An offer that is no candidate changes nothing. -/
theorem Scanned.skip {n : Nat} {s : Scan} (hs : Scanned offers priority n s)
    (hn : entry offers priority n = none) : Scanned offers priority (n + 1) s := by
  have hsame : ∀ key j, LeastBefore (entry offers priority) (n + 1) key j ↔
      LeastBefore (entry offers priority) n key j := by
    intro key
    exact leastBefore_succ_of_other (by intro b hb; rw [hn] at hb; cases hb)
  refine ⟨hs.length, ?_, hs.nonempty, ?_, hs.lowest, ?_⟩
  · intro key habsent j hj b hb
    rcases Nat.lt_succ_iff_lt_or_eq.mp hj with hj | rfl
    · exact hs.absent key habsent j hj b hb
    · rw [hn] at hb
      cases hb
  · intro key g hg j
    rw [hsame]
    exact hs.indices key g hg j
  · intro j
    simp only [hsame]
    rw [hs.retained]
    constructor
    · rintro ⟨hj, hnj | hkept⟩
      · rcases Nat.eq_or_lt_of_le hnj with rfl | hlt
        · exact ⟨hj, .inr (.inl hn)⟩
        · exact ⟨hj, .inl hlt⟩
      · exact ⟨hj, .inr hkept⟩
    · rintro ⟨hj, hnj | hkept⟩
      · exact ⟨hj, .inl (by omega)⟩
      · exact ⟨hj, .inr hkept⟩

/-- One step of the second pass. -/
theorem Scanned.place {n : Nat} {s : Scan} {offer : Offer} (hs : Scanned offers priority n s)
    (hrank : ∀ o ∈ offers, (rank priority o.1).isSome) (hoffer : offers[n]? = some offer) :
    Scanned offers priority (n + 1) (place offers priority s n offer) := by
  rw [place_eq]
  cases hc : candidate offers offer with
  | none => exact hs.skip (by simp [entry, hoffer, hc])
  | some c =>
    obtain ⟨key, total⟩ := c
    have hn := entry_of_candidate priority hoffer hc
    have hlowest : ∀ b, entry offers priority n = some (key, b) → (ofLex b).1 = total.toRat := by
      intro b hb
      rw [hn] at hb
      cases hb
      rfl
    dsimp only
    cases hg : findKey key s.groups with
    | none =>
      have hleast := leastBefore_succ_of_lt hn (fun l hl b' hb' =>
        absurd hb' (hs.absent key hg l hl b'))
      refine Updated.scanned (g := ⟨total, [n]⟩) ⟨rfl, by simp, ?_, ?_, rfl, ?_⟩ hs hn
      · intro j
        rw [hleast, List.mem_singleton]
      · intro j hj b hb
        rw [List.mem_singleton] at hj
        exact hlowest b (hj ▸ hb)
      · intro j
        refine ⟨fun hr => ⟨hr, ?_, (hleast j).mpr⟩, fun hr => hr.1⟩
        rintro ⟨hj, b, hb, -⟩
        exact absurd hb (hs.absent key hg j hj b)
    | some g =>
      -- the offer is compared with the first of its group
      obtain ⟨m, indices, hm⟩ := List.exists_cons_of_ne_nil (hs.nonempty key g hg)
      have hhead : g.indices.head? = some m := by rw [hm]; rfl
      have hmmem : m ∈ g.indices := by rw [hm]; exact List.mem_cons_self
      have hmleast := (hs.indices key g hg m).mp hmmem
      obtain ⟨hmn, c, hmc, hcleast⟩ := id hmleast
      obtain ⟨head, headTotal, hheadOffer, -, hcscore⟩ := entry_eq_some.mp hmc
      obtain ⟨a, ha⟩ := Option.isSome_iff_exists.mp (hrank offer (List.mem_of_getElem? hoffer))
      obtain ⟨b, hb⟩ := Option.isSome_iff_exists.mp (hrank head (List.mem_of_getElem? hheadOffer))
      have hscore : score priority offer.1 total = toLex (total.toRat, a) := by
        rw [score, ha, Option.getD_some]
      have hcb : c = toLex (g.lowest.toRat, b) := by
        have hfirst := hs.lowest key g hg m hmmem c hmc
        rw [hcscore, score, hb, Option.getD_some] at hfirst ⊢
        rw [← hfirst]
        rfl
      obtain ⟨hlt, heq, hgt⟩ := then_compare (t := total) (u := g.lowest) (a := a) (b := b)
      rw [← hscore, ← hcb] at hlt heq hgt
      dsimp only
      rw [ordering_eq hhead hheadOffer ha hb]
      cases hordering : (total.cmp g.lowest).then (compare a b) with
      | lt =>
        have hbelow := hlt.mp hordering
        have hleast := leastBefore_succ_of_lt hn (fun l hl b' hb' =>
          lt_of_lt_of_le hbelow (hcleast l hl b' hb'))
        refine Updated.scanned (g := ⟨total, [n]⟩) ⟨rfl, by simp, ?_, ?_, length_drop _ _, ?_⟩ hs hn
        · intro j
          rw [hleast, List.mem_singleton]
        · intro j hj b hb
          rw [List.mem_singleton] at hj
          exact hlowest b (hj ▸ hb)
        · intro j
          rw [drop_getElem?, hs.indices key g hg, hleast]
          refine ⟨fun h => ⟨h.1, fun hj => absurd hj h.2, id⟩, fun h => ⟨h.1, fun hj => ?_⟩⟩
          have hjn := h.2.1 hj
          have hlt := hj.1
          omega
      | eq =>
        have hlevel := heq.mp hordering
        have hleast := leastBefore_succ_of_eq hn hmleast (hlevel ▸ hmc)
        refine Updated.scanned (g := { g with indices := g.indices ++ [n] })
          ⟨rfl, by simp, ?_, ?_, rfl, ?_⟩ hs hn
        · intro j
          rw [hleast, List.mem_append, List.mem_singleton, hs.indices key g hg]
        · intro j hj d hd
          rw [List.mem_append, List.mem_singleton] at hj
          rcases hj with hj | rfl
          · exact hs.lowest key g hg j hj d hd
          · rw [hn] at hd
            cases hd
            rw [hlevel, hcb]
            rfl
        · intro j
          rw [hleast]
          exact ⟨fun h => ⟨h, .inl, .inr⟩, fun h => h.1⟩
      | gt =>
        have habove := hgt.mp hordering
        have hleast := leastBefore_succ_of_gt hn hmn hmc habove
        refine Updated.scanned (g := g) ⟨(upsert_of_findKey hg).symm, hs.nonempty key g hg, ?_,
          hs.lowest key g hg, length_drop _ _, ?_⟩ hs hn
        · intro j
          rw [hleast, hs.indices key g hg]
        · intro j
          rw [drop_getElem?, hleast, List.mem_singleton]
          refine ⟨fun h => ⟨h.1, id, fun hj => absurd hj h.2⟩, fun h => ⟨h.1, fun hj => ?_⟩⟩
          have hlt := (h.2.2 hj).1
          omega

theorem scanned_of_foldl (hrank : ∀ o ∈ offers, (rank priority o.1).isSome) (rest : List Offer) :
    ∀ (n : Nat) (s : Scan), offers.drop n = rest → n + rest.length = offers.length →
      Scanned offers priority n s → Scanned offers priority offers.length
        ((rest.zipIdx n).foldl (fun s entry => place offers priority s entry.2 entry.1) s) := by
  induction rest with
  | nil =>
    intro n s _ hlength hs
    have hn : n = offers.length := by simpa using hlength
    rw [← hn]
    exact hs
  | cons offer rest ih =>
    intro n s hdrop hlength hs
    have hoffer : offers[n]? = some offer := by
      rw [← List.head?_drop, hdrop, List.head?_cons]
    rw [List.zipIdx_cons, List.foldl_cons]
    refine ih (n + 1) _ ?_ ?_ (hs.place hrank hoffer)
    · rw [← List.tail_drop, hdrop, List.tail_cons]
    · rw [List.length_cons] at hlength
      omega

theorem scanned_all (hrank : ∀ o ∈ offers, (rank priority o.1).isSome) :
    Scanned offers priority offers.length (scanned offers priority) :=
  scanned_of_foldl hrank offers 0 _ rfl (Nat.zero_add _) (Scanned.initial offers priority)

theorem mem_winners {i : Nat} :
    i ∈ winners offers priority ↔ (scanned offers priority).retained[i]? = some true := by
  rw [winners, List.mem_filterMap]
  constructor
  · rintro ⟨⟨keep, j⟩, hmem, hkeep⟩
    rw [List.mem_zipIdx_iff_getElem?] at hmem
    cases keep with
    | false => cases hkeep
    | true =>
      cases hkeep
      exact hmem
  · intro h
    exact ⟨(true, i), List.mem_zipIdx_iff_getElem?.mpr h, rfl⟩

end ShaponTravels.Search.Selection
