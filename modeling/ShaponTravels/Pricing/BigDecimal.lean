import Mathlib.Tactic.Common
import Mathlib.Tactic.FieldSimp
import Mathlib.Tactic.Positivity
import Mathlib.Algebra.Order.Field.Rat
import Mathlib.Algebra.Order.Field.Power
import ShaponTravels.Errors

/-!
# BigDecimal — decimal numbers of any size

The `bigdecimal` crate's numbers: an integer and the number of its decimal places.  Two numbers
are compared by value; `toRat` is the value.
-/

namespace ShaponTravels

/-- `digits · 10 ^ (-scale)`. -/
structure BigDecimal where
  digits : Int
  scale : Int
  deriving DecidableEq, Repr

namespace BigDecimal

/-- The value of a decimal number. -/
def toRat (a : BigDecimal) : ℚ := a.digits * (10 : ℚ) ^ (-a.scale)

/-- The digits of `a` written with `scale` decimal places, at least as many as it has. -/
def align (a : BigDecimal) (scale : Int) : Int := a.digits * 10 ^ (scale - a.scale).toNat

theorem align_cast (a : BigDecimal) {scale : Int} (h : a.scale ≤ scale) :
    (a.align scale : ℚ) = a.toRat * (10 : ℚ) ^ scale := by
  have hnat : ((scale - a.scale).toNat : Int) = scale - a.scale := by omega
  rw [align, toRat, Int.cast_mul, Int.cast_pow, mul_assoc, ← zpow_add₀ (by norm_num)]
  rw [show -a.scale + scale = ((scale - a.scale).toNat : Int) by omega, zpow_natCast]
  rfl

/-- `Ord::cmp`: both numbers are written with the decimal places of the finer one. -/
def cmp (a b : BigDecimal) : Ordering :=
  let scale := max a.scale b.scale
  if a.align scale < b.align scale then .lt
  else if a.align scale = b.align scale then .eq
  else .gt

theorem align_lt_iff (a b : BigDecimal) :
    a.align (max a.scale b.scale) < b.align (max a.scale b.scale) ↔ a.toRat < b.toRat := by
  rw [← Int.cast_lt (R := ℚ), align_cast a (le_max_left _ _), align_cast b (le_max_right _ _)]
  exact mul_lt_mul_iff_left₀ (zpow_pos (by norm_num) _)

theorem align_eq_iff (a b : BigDecimal) :
    a.align (max a.scale b.scale) = b.align (max a.scale b.scale) ↔ a.toRat = b.toRat := by
  rw [← Int.cast_inj (α := ℚ), align_cast a (le_max_left _ _), align_cast b (le_max_right _ _)]
  exact mul_left_inj' (zpow_ne_zero _ (by norm_num))

theorem cmp_eq_lt {a b : BigDecimal} : cmp a b = .lt ↔ a.toRat < b.toRat := by
  rw [← align_lt_iff, cmp]
  split
  · rename_i h; exact iff_of_true rfl h
  · rename_i h
    split
    · exact iff_of_false (by simp) h
    · exact iff_of_false (by simp) h

theorem cmp_eq_eq {a b : BigDecimal} : cmp a b = .eq ↔ a.toRat = b.toRat := by
  rw [← align_eq_iff, cmp]
  split
  · rename_i h; exact iff_of_false (by simp) (ne_of_lt h)
  · split
    · rename_i h; exact iff_of_true rfl h
    · rename_i h; exact iff_of_false (by simp) h

theorem cmp_eq_gt {a b : BigDecimal} : cmp a b = .gt ↔ b.toRat < a.toRat := by
  cases hcmp : cmp a b with
  | lt => exact iff_of_false (by simp) (not_lt_of_gt (cmp_eq_lt.mp hcmp))
  | eq => exact iff_of_false (by simp) (not_lt_of_ge (le_of_eq (cmp_eq_eq.mp hcmp)))
  | gt =>
    refine iff_of_true rfl (lt_of_not_ge fun hle => ?_)
    rcases lt_or_eq_of_le hle with hlt | heq
    · rw [cmp_eq_lt.mpr hlt] at hcmp; cases hcmp
    · rw [cmp_eq_eq.mpr heq] at hcmp; cases hcmp

/-! ## Reading -/

/-- The digits of an integer text: an optional sign and at least one digit. -/
def parseInteger (s : List Char) : Option Int :=
  match s with
  | '-' :: digits => (unsigned digits).map fun n => -n
  | '+' :: digits => unsigned digits
  | digits => unsigned digits
where
  unsigned (digits : List Char) : Option Int :=
    if digits ≠ [] ∧ digits.all isAsciiDigit then
      some (Nat.ofDigitChars 10 digits 0)
    else none

/-- `BigInt::from_str_radix`: an optional sign, a digit, and digits that underscores may stand between. -/
def parseBigInt (s : List Char) : Option Int :=
  match s with
  | '-' :: digits => (unsigned digits).map fun n => -n
  | '+' :: digits => unsigned digits
  | digits => unsigned digits
where
  unsigned (digits : List Char) : Option Int :=
    if digits ≠ [] ∧ digits.head? ≠ some '_' ∧ digits.all (fun c => isAsciiDigit c ∨ c = '_') then
      some (Nat.ofDigitChars 10 (digits.filter fun c => c ≠ '_') 0)
    else none

/-- `FromStr for BigDecimal` on the text of a number: the digits before and after the point, less
the exponent; the scale must fit an `i64`. -/
def parse (s : String) : Option BigDecimal :=
  let isExponent := fun c : Char => c = 'e' ∨ c = 'E'
  let base := s.toList.takeWhile fun c => ¬ isExponent c
  let exponent? : Option Int :=
    match s.toList.dropWhile fun c => ¬ isExponent c with
    | [] => some 0
    | _ :: exponent => parseInteger exponent
  let lead := base.takeWhile fun c => c ≠ '.'
  let trail := (base.dropWhile fun c => c ≠ '.').drop 1
  match exponent?, parseBigInt (lead ++ trail) with
  | some exponent, some digits =>
    (i64? ((trail.countP fun c => c ≠ '_') - exponent)).map fun scale => ⟨digits, scale⟩
  | _, _ => none

example : parse "4033.05" = some ⟨403305, 2⟩ ∧ parse "-1e+3" = some ⟨-1, -3⟩ ∧ parse "1.2.3" = none ∧
    parse "1_0.5_0" = some ⟨1050, 2⟩ ∧ parse "._5" = none ∧ parse "" = none := by decide

end BigDecimal

end ShaponTravels
