import Mathlib.Tactic.Common
import Mathlib.Order.Lattice

/-!
# GroupMinimum — the least entries of each group, one entry at a time

A sequence gives some positions a group and a score.  `LeastBefore entry n k j` says that position
`j` has the least score of group `k` among the first `n` positions.  The lemmas say how the least
positions change when position `n` is looked at, one for each way its score compares.
-/

namespace Library

variable {κ β : Type} [LinearOrder β] {entry : Nat → Option (κ × β)}

/-- Position `j` is one of the least of group `k` before position `n`. -/
def LeastBefore (entry : Nat → Option (κ × β)) (n : Nat) (k : κ) (j : Nat) : Prop :=
  j < n ∧ ∃ b, entry j = some (k, b) ∧ ∀ l < n, ∀ b', entry l = some (k, b') → b ≤ b'

variable {n : Nat} {k : κ} {b : β}

/-- A position outside a group changes nothing about it. -/
theorem leastBefore_succ_of_other (hn : ∀ b', entry n ≠ some (k, b')) (j : Nat) :
    LeastBefore entry (n + 1) k j ↔ LeastBefore entry n k j := by
  constructor
  · rintro ⟨hj, c, hc, hleast⟩
    have hne : j ≠ n := fun h => hn c (h ▸ hc)
    exact ⟨by omega, c, hc, fun l hl b' hb' => hleast l (by omega) b' hb'⟩
  · rintro ⟨hj, c, hc, hleast⟩
    refine ⟨by omega, c, hc, fun l hl b' hb' => ?_⟩
    have hne : l ≠ n := fun h => hn b' (h ▸ hb')
    exact hleast l (by omega) b' hb'

/-- A position below its whole group becomes the only least one. -/
theorem leastBefore_succ_of_lt (hn : entry n = some (k, b))
    (hlt : ∀ l < n, ∀ b', entry l = some (k, b') → b < b') (j : Nat) :
    LeastBefore entry (n + 1) k j ↔ j = n := by
  constructor
  · rintro ⟨hj, c, hc, hleast⟩
    by_contra hne
    have hbelow := hlt j (by omega) c hc
    exact absurd (hleast n (by omega) b hn) (not_le_of_gt hbelow)
  · rintro rfl
    refine ⟨by omega, b, hn, fun l hl b' hb' => ?_⟩
    rcases Nat.lt_succ_iff_lt_or_eq.mp hl with hl | rfl
    · exact le_of_lt (hlt l hl b' hb')
    · rw [hn] at hb'
      cases hb'
      exact le_refl b

/-- A position above a member of its group is not least. -/
theorem leastBefore_succ_of_gt (hn : entry n = some (k, b)) {m : Nat} {c : β} (hm : m < n)
    (hc : entry m = some (k, c)) (hgt : c < b) (j : Nat) :
    LeastBefore entry (n + 1) k j ↔ LeastBefore entry n k j := by
  constructor
  · rintro ⟨hj, d, hd, hleast⟩
    have hne : j ≠ n := by
      rintro rfl
      rw [hn] at hd
      cases hd
      exact absurd (hleast m (by omega) c hc) (not_le_of_gt hgt)
    exact ⟨by omega, d, hd, fun l hl b' hb' => hleast l (by omega) b' hb'⟩
  · rintro ⟨hj, d, hd, hleast⟩
    refine ⟨by omega, d, hd, fun l hl b' hb' => ?_⟩
    rcases Nat.lt_succ_iff_lt_or_eq.mp hl with hl | rfl
    · exact hleast l hl b' hb'
    · rw [hn] at hb'
      cases hb'
      exact le_of_lt (lt_of_le_of_lt (hleast m hm c hc) hgt)

/-- A position level with the least of its group joins them. -/
theorem leastBefore_succ_of_eq (hn : entry n = some (k, b)) {m : Nat}
    (hm : LeastBefore entry n k m) (hb : entry m = some (k, b)) (j : Nat) :
    LeastBefore entry (n + 1) k j ↔ LeastBefore entry n k j ∨ j = n := by
  obtain ⟨hmn, c, hc, hleast⟩ := hm
  rw [hb] at hc
  cases hc
  have hall : ∀ l < n + 1, ∀ b', entry l = some (k, b') → b ≤ b' := by
    intro l hl b' hb'
    rcases Nat.lt_succ_iff_lt_or_eq.mp hl with hl | rfl
    · exact hleast l hl b' hb'
    · rw [hn] at hb'
      cases hb'
      exact le_refl b
  constructor
  · rintro ⟨hj, d, hd, hleast'⟩
    rcases Nat.lt_succ_iff_lt_or_eq.mp hj with hj | rfl
    · exact .inl ⟨hj, d, hd, fun l hl b' hb' => hleast' l (by omega) b' hb'⟩
    · exact .inr rfl
  · rintro (⟨hj, d, hd, hleast'⟩ | rfl)
    · have hdb : d ≤ b := hleast' m hmn b hb
      exact ⟨by omega, d, hd, fun l hl b' hb' => le_trans hdb (hall l hl b' hb')⟩
    · exact ⟨by omega, b, hn, hall⟩

end Library
