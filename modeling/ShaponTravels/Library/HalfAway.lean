import Mathlib.Algebra.Order.Round
import Mathlib.Data.Rat.Floor
import Mathlib.Tactic.FieldSimp
import Mathlib.Tactic.Linarith
import Mathlib.Tactic.NormNum
import Mathlib.Tactic.Ring

/-!
# HalfAway — rounding to the nearest integer, halves away from zero
-/

namespace Library

/-- The nearest integer; a half goes to the one farther from zero. -/
def halfAway (q : ℚ) : ℤ := if 0 ≤ q then ⌊q + 1 / 2⌋ else -⌊-q + 1 / 2⌋

@[simp] theorem halfAway_intCast (n : ℤ) : halfAway n = n := by
  have hhalf : ⌊(1 / 2 : ℚ)⌋ = 0 := by norm_num
  have hround : ∀ m : ℤ, ⌊(m : ℚ) + 1 / 2⌋ = m := fun m => by rw [Int.floor_intCast_add, hhalf, add_zero]
  unfold halfAway
  split
  · exact hround n
  · rw [← Int.cast_neg, hround, neg_neg]

@[simp] theorem halfAway_zero : halfAway 0 = 0 := halfAway_intCast 0

theorem halfAway_neg (q : ℚ) : halfAway (-q) = -halfAway q := by
  unfold halfAway
  rcases lt_trichotomy q 0 with hq | rfl | hq
  · rw [if_pos (by linarith), if_neg (by linarith), neg_neg]
  · norm_num
  · rw [if_neg (by linarith), if_pos hq.le, neg_neg]

theorem halfAway_nonneg {q : ℚ} (h : 0 ≤ q) : 0 ≤ halfAway q := by
  rw [halfAway, if_pos h]
  exact Int.floor_nonneg.mpr (by linarith)

theorem halfAway_mono {p q : ℚ} (h : p ≤ q) : halfAway p ≤ halfAway q := by
  rcases le_total 0 p with hp | hp
  · rw [halfAway, halfAway, if_pos hp, if_pos (hp.trans h)]
    exact Int.floor_mono (by linarith)
  · rcases le_total 0 q with hq | hq
    · have hneg := halfAway_nonneg (neg_nonneg.mpr hp)
      rw [halfAway_neg] at hneg
      exact (neg_nonneg.mp hneg).trans (halfAway_nonneg hq)
    · -- Below zero the order of the magnitudes is the other way round.
      have hmag : halfAway (-q) ≤ halfAway (-p) := by
        rw [halfAway, halfAway, if_pos (neg_nonneg.mpr hq), if_pos (neg_nonneg.mpr hp)]
        exact Int.floor_mono (by linarith)
      rw [halfAway_neg, halfAway_neg] at hmag
      exact neg_le_neg_iff.mp hmag

/-- Rounding a quotient of naturals, in integers. -/
theorem halfAway_div (n : ℕ) {m : ℕ} (hm : 0 < m) :
    halfAway (n / m) = ((2 * n + m) / (2 * m) : ℕ) := by
  have hm' : (m : ℚ) ≠ 0 := Nat.cast_ne_zero.mpr (Nat.pos_iff_ne_zero.mp hm)
  have hsum : (n : ℚ) / m + 1 / 2 = ((2 * n + m : ℕ) : ℤ) / ((2 * m : ℕ) : ℚ) := by
    push_cast
    field_simp
  rw [halfAway, if_pos (by positivity), hsum, Rat.floor_intCast_div_natCast, Int.natCast_ediv]

end Library
