import Mathlib.Tactic.NormNum
import ShaponTravels.Library.HalfAway
import ShaponTravels.Pricing.BigDecimal

/-!
# Arithmetic — sums, products and rounding of decimals

How a number is written, and with how many zeros, depends on how it was computed: a factor one is left out
of a product, a zero out of a sum.  Its value does not.
-/

namespace ShaponTravels

namespace BigDecimal

open Library

/-! ## Operations -/

/-- `From<i64> for BigDecimal`. -/
def ofInt (n : Int) : BigDecimal := ⟨n, 0⟩

def add (a b : BigDecimal) : BigDecimal :=
  let scale := max a.scale b.scale
  ⟨a.align scale + b.align scale, scale⟩

def sub (a b : BigDecimal) : BigDecimal :=
  let scale := max a.scale b.scale
  ⟨a.align scale - b.align scale, scale⟩

/-- `a += b`: a zero leaves the other number as it is. -/
def addAssign (a b : BigDecimal) : BigDecimal :=
  if b.digits = 0 then a else if a.digits = 0 then b else a.add b

/-- Zeros at the end are cut off, `fuel` of them at most. -/
def trimZeros : Nat → BigDecimal → BigDecimal
  | 0, a => a
  | fuel + 1, a => if a.digits % 10 = 0 then trimZeros fuel ⟨a.digits / 10, a.scale - 1⟩ else a

/-- `normalized`. -/
def normalized (a : BigDecimal) : BigDecimal :=
  if a.digits = 0 then ofInt 0 else trimZeros (Nat.toDigits 10 a.digits.natAbs).length a

/-- `is_one`. -/
def isOne (a : BigDecimal) : Bool := a.cmp (ofInt 1) = .eq

/-- `a * b` where one of them is no reference: the product with one is the other number. -/
def mul (a b : BigDecimal) : BigDecimal :=
  if a.isOne then b else if b.isOne then a else ⟨a.digits * b.digits, a.scale + b.scale⟩

/-- `&a * &b`: the product with one is the other number without the zeros at its end. -/
def mulRef (a b : BigDecimal) : BigDecimal :=
  if a.isOne then b.normalized else if b.isOne then a.normalized
  else ⟨a.digits * b.digits, a.scale + b.scale⟩

/-- `-a`. -/
def neg (a : BigDecimal) : BigDecimal := ⟨-a.digits, a.scale⟩

/-- `a < 0`. -/
def isNegative (a : BigDecimal) : Bool := a.digits < 0

/-- `with_scale`: digits beyond the scale are cut off. -/
def withScale (a : BigDecimal) (scale : Int) : BigDecimal :=
  if a.scale ≤ scale then ⟨a.align scale, scale⟩
  else ⟨a.digits.tdiv (10 ^ (a.scale - scale).toNat), scale⟩

/-- `with_scale_round` with `RoundingMode::HalfUp`: a half is rounded away from zero. -/
def withScaleRound (a : BigDecimal) (scale : Int) : BigDecimal :=
  if a.scale ≤ scale then ⟨a.align scale, scale⟩
  else
    let unit : Nat := 10 ^ (a.scale - scale).toNat
    ⟨a.digits.sign * ((2 * a.digits.natAbs + unit) / (2 * unit) : Nat), scale⟩

/-- What the code uses of the `bigdecimal` crate beside its arithmetic: the texts of a number, plain and
with the format `.2`, and its quotients. -/
structure Decimals where
  display : BigDecimal → String
  fixed : BigDecimal → String
  quotient : BigDecimal → BigDecimal → BigDecimal

example : withScaleRound ⟨-12345, 3⟩ 2 = ⟨-1235, 2⟩ ∧ withScaleRound ⟨12344, 3⟩ 2 = ⟨1234, 2⟩ ∧
    withScaleRound ⟨5, 0⟩ 2 = ⟨500, 2⟩ := by decide

example : mulRef ⟨574900, 2⟩ (ofInt 1) = ⟨5749, 0⟩ ∧ mul ⟨574900, 2⟩ (ofInt 1) = ⟨574900, 2⟩ ∧
    mulRef ⟨574900, 2⟩ (ofInt 2) = ⟨1149800, 2⟩ ∧ addAssign (ofInt 0) ⟨1, -16⟩ = ⟨1, -16⟩ := by decide

/-! ## Values -/

theorem toRat_add (a b : BigDecimal) : (a.add b).toRat = a.toRat + b.toRat := by
  have ha := align_cast a (le_max_left a.scale b.scale)
  have hb := align_cast b (le_max_right a.scale b.scale)
  rw [add, toRat, Int.cast_add, ha, hb, ← add_mul, mul_assoc, ← zpow_add₀ (by norm_num), add_neg_cancel,
    zpow_zero, mul_one]

theorem toRat_sub (a b : BigDecimal) : (a.sub b).toRat = a.toRat - b.toRat := by
  have ha := align_cast a (le_max_left a.scale b.scale)
  have hb := align_cast b (le_max_right a.scale b.scale)
  rw [sub, toRat, Int.cast_sub, ha, hb, ← sub_mul, mul_assoc, ← zpow_add₀ (by norm_num), add_neg_cancel,
    zpow_zero, mul_one]

theorem toRat_neg (a : BigDecimal) : a.neg.toRat = -a.toRat := by
  rw [neg, toRat, Int.cast_neg, neg_mul, toRat]

theorem toRat_ofInt (n : Int) : (ofInt n).toRat = n := by
  rw [toRat, ofInt, neg_zero, zpow_zero, mul_one]

theorem toRat_eq_zero {a : BigDecimal} : a.toRat = 0 ↔ a.digits = 0 := by
  rw [toRat, mul_eq_zero, Int.cast_eq_zero]
  exact or_iff_left (zpow_ne_zero _ (by norm_num))

theorem isNegative_iff (a : BigDecimal) : a.isNegative = true ↔ a.toRat < 0 := by
  have hpow : (0 : ℚ) < 10 ^ (-a.scale) := zpow_pos (by norm_num) _
  rw [isNegative, decide_eq_true_iff, toRat, ← lt_div_iff₀ hpow, zero_div, Int.cast_lt_zero]

theorem isOne_iff (a : BigDecimal) : a.isOne = true ↔ a.toRat = 1 := by
  rw [isOne, decide_eq_true_iff, cmp_eq_eq, toRat_ofInt, Int.cast_one]

theorem toRat_addAssign (a b : BigDecimal) : (a.addAssign b).toRat = a.toRat + b.toRat := by
  unfold addAssign
  split
  · rename_i hb
    rw [toRat_eq_zero.mpr hb, add_zero]
  · split
    · rename_i ha
      rw [toRat_eq_zero.mpr ha, zero_add]
    · exact toRat_add a b

theorem toRat_trimZeros (fuel : Nat) (a : BigDecimal) : (trimZeros fuel a).toRat = a.toRat := by
  induction fuel generalizing a with
  | zero => rfl
  | succ fuel ih =>
    unfold trimZeros
    split
    · rename_i hten
      have hdigits : (a.digits : ℚ) = (a.digits / 10 : Int) * 10 := by
        exact_mod_cast (Int.ediv_mul_cancel (Int.dvd_of_emod_eq_zero hten)).symm
      have hpow : (10 : ℚ) ^ (-(a.scale - 1)) = 10 * 10 ^ (-a.scale) := by
        rw [neg_sub, sub_eq_add_neg, zpow_add₀ (by norm_num), zpow_one]
      rw [ih, toRat, toRat, hdigits, hpow, mul_assoc]
    · rfl

theorem toRat_normalized (a : BigDecimal) : a.normalized.toRat = a.toRat := by
  unfold normalized
  split
  · rename_i hzero
    rw [toRat_ofInt, toRat_eq_zero.mpr hzero, Int.cast_zero]
  · exact toRat_trimZeros _ a

theorem toRat_product (a b : BigDecimal) :
    toRat ⟨a.digits * b.digits, a.scale + b.scale⟩ = a.toRat * b.toRat := by
  rw [toRat, toRat, toRat, Int.cast_mul, neg_add, zpow_add₀ (by norm_num)]
  exact mul_mul_mul_comm _ _ _ _

theorem toRat_mul (a b : BigDecimal) : (a.mul b).toRat = a.toRat * b.toRat := by
  unfold mul
  split
  · rename_i ha
    rw [(isOne_iff a).mp ha, one_mul]
  · split
    · rename_i hb
      rw [(isOne_iff b).mp hb, mul_one]
    · exact toRat_product a b

theorem toRat_mulRef (a b : BigDecimal) : (a.mulRef b).toRat = a.toRat * b.toRat := by
  unfold mulRef
  split
  · rename_i ha
    rw [(isOne_iff a).mp ha, one_mul, toRat_normalized]
  · split
    · rename_i hb
      rw [(isOne_iff b).mp hb, mul_one, toRat_normalized]
    · exact toRat_product a b

theorem toRat_mul_ofInt (a : BigDecimal) (n : Int) : (a.mul (ofInt n)).toRat = a.toRat * n := by
  rw [toRat_mul, toRat_ofInt]

/-! ## Places -/

theorem scale_addAssign (a b : BigDecimal) :
    min a.scale b.scale ≤ (a.addAssign b).scale ∧ (a.addAssign b).scale ≤ max a.scale b.scale := by
  unfold addAssign
  split
  · exact ⟨min_le_left _ _, le_max_left _ _⟩
  · split
    · exact ⟨min_le_right _ _, le_max_right _ _⟩
    · exact ⟨min_le_max, le_refl _⟩

/-- A product with an integer has the places of the number, or it is the integer. -/
theorem scale_mul_ofInt (a : BigDecimal) (n : Int) :
    (a.mul (ofInt n)).scale = 0 ∨ (a.mul (ofInt n)).scale = a.scale := by
  unfold mul
  split
  · exact .inl rfl
  · split
    · exact .inr rfl
    · exact .inr (Int.add_zero _)

theorem scale_trimZeros (fuel : Nat) (a : BigDecimal) : (trimZeros fuel a).scale ≤ a.scale := by
  induction fuel generalizing a with
  | zero => exact le_refl _
  | succ fuel ih =>
    unfold trimZeros
    split
    · exact le_trans (ih _) (Int.sub_le_self _ (by decide))
    · exact le_refl _

theorem scale_normalized (a : BigDecimal) : a.normalized.scale ≤ max a.scale 0 := by
  unfold normalized
  split
  · exact le_max_right _ _
  · exact le_trans (scale_trimZeros _ a) (le_max_left _ _)

theorem scale_mulRef_ofInt (a : BigDecimal) (n : Int) : (a.mulRef (ofInt n)).scale ≤ max a.scale 0 := by
  unfold mulRef
  split
  · exact le_trans (scale_normalized _) (max_le (le_max_right _ _) (le_max_right _ _))
  · split
    · exact scale_normalized a
    · show a.scale + 0 ≤ _
      rw [Int.add_zero]
      exact le_max_left _ _

@[simp] theorem align_self (n scale : Int) : align ⟨n, scale⟩ scale = n := by
  simp [align]

@[simp] theorem align_zero (scale scale' : Int) : align ⟨0, scale⟩ scale' = 0 := by
  simp [align]

theorem withScaleRound_scale (a : BigDecimal) (scale : Int) :
    a.withScaleRound scale = ⟨(a.withScaleRound scale).digits, scale⟩ := by
  unfold withScaleRound
  split
  · rfl
  · rfl

@[simp] theorem withScale_self (n scale : Int) : withScale ⟨n, scale⟩ scale = ⟨n, scale⟩ := by
  simp [withScale]

/-! ## Rounding by value -/

/-- Rounding depends on the value alone. -/
theorem withScaleRound_digits (a : BigDecimal) (scale : Int) :
    (a.withScaleRound scale).digits = halfAway (a.toRat * (10 : ℚ) ^ scale) := by
  unfold withScaleRound
  split
  · rename_i hle
    rw [← align_cast a hle, halfAway_intCast]
  · have hpow : (0 : Nat) < 10 ^ (a.scale - scale).toNat := Nat.pow_pos (by decide)
    have hvalue : a.toRat * (10 : ℚ) ^ scale = a.digits / ((10 ^ (a.scale - scale).toNat : Nat) : ℚ) := by
      have hscale : (((a.scale - scale).toNat : Nat) : Int) = a.scale - scale := by omega
      rw [toRat, mul_assoc, ← zpow_add₀ (by norm_num), div_eq_mul_inv, Nat.cast_pow, Nat.cast_ofNat,
        ← zpow_natCast, hscale, ← zpow_neg]
      congr 2
      omega
    rw [hvalue]
    show a.digits.sign * ((2 * a.digits.natAbs + 10 ^ (a.scale - scale).toNat) /
      (2 * 10 ^ (a.scale - scale).toNat) : Nat) = _
    rcases Int.lt_trichotomy a.digits 0 with hneg | hzero | hpos
    · have hdigits : (a.digits : ℚ) = -(a.digits.natAbs : ℚ) := by
        rw [← Int.cast_natCast, ← Int.cast_neg]
        congr 1
        omega
      rw [Int.sign_eq_neg_one_of_neg hneg, hdigits, neg_div, halfAway_neg, halfAway_div _ hpow]
      omega
    · simp [hzero]
    · have hdigits : (a.digits : ℚ) = (a.digits.natAbs : ℚ) := by
        rw [← Int.cast_natCast, Int.natAbs_of_nonneg hpos.le]
      rw [Int.sign_eq_one_of_pos hpos, hdigits, halfAway_div _ hpow]
      omega

theorem withScaleRound_mono {a b : BigDecimal} (h : a.toRat ≤ b.toRat) (scale : Int) :
    (a.withScaleRound scale).digits ≤ (b.withScaleRound scale).digits := by
  rw [withScaleRound_digits, withScaleRound_digits]
  exact halfAway_mono (mul_le_mul_of_nonneg_right h (by positivity))

/-! ## Minor units -/

@[simp] theorem add_minor (n m : Int) : add ⟨n, 2⟩ ⟨m, 2⟩ = ⟨n + m, 2⟩ := by
  simp [add]

@[simp] theorem sub_minor (n m : Int) : sub ⟨n, 2⟩ ⟨m, 2⟩ = ⟨n - m, 2⟩ := by
  simp [sub]

/-- Numbers of two places are equal when their minor units are. -/
theorem cmp_minor (n m : Int) : cmp ⟨n, 2⟩ ⟨m, 2⟩ = .eq ↔ n = m := by
  rw [cmp_eq_eq, ← align_eq_iff]
  simp

theorem toRat_minor (n : Int) : toRat ⟨n, 2⟩ = n / 100 := by
  have hpow : (10 : ℚ) ^ (-2 : Int) = (100 : ℚ)⁻¹ := by norm_num
  rw [toRat, hpow, div_eq_mul_inv]

theorem hundred_toRat (n : Int) : 100 * toRat ⟨n, 2⟩ = n := by
  rw [toRat_minor]
  exact mul_div_cancel₀ _ (by norm_num)

/-- The number as integer minor units, rounded to them. -/
def minor (a : BigDecimal) : Int := (a.withScaleRound 2).digits

theorem minor_of_toRat {a : BigDecimal} {n : Int} (h : a.toRat = n / 100) : a.minor = n := by
  have hunits : (n : ℚ) / 100 * (10 : ℚ) ^ (2 : Int) = n := by
    norm_num
  rw [minor, withScaleRound_digits, h, hunits, halfAway_intCast]

theorem withScaleRound_of_toRat {a : BigDecimal} {n : Int} (h : a.toRat = n / 100) :
    a.withScaleRound 2 = ⟨n, 2⟩ := by
  rw [withScaleRound_scale, ← minor, minor_of_toRat h]

/-- The number is `n` minor units, written with two places or fewer. -/
structure IsMinor (a : BigDecimal) (n : Int) : Prop where
  places : 0 ≤ a.scale ∧ a.scale ≤ 2
  value : a.toRat = n / 100

namespace IsMinor

variable {a a' : BigDecimal} {n n' : Int}

theorem two (n : Int) : IsMinor ⟨n, 2⟩ n := ⟨⟨zero_le_two, le_refl _⟩, toRat_minor n⟩

theorem zero : IsMinor (ofInt 0) 0 := ⟨⟨by decide, by decide⟩, by simp [toRat_ofInt]⟩

theorem rounded (a : BigDecimal) : IsMinor (a.withScaleRound 2) a.minor := by
  rw [withScaleRound_scale]
  exact two _

theorem minor (h : IsMinor a n) : a.minor = n := minor_of_toRat h.value

theorem self (h : IsMinor a n) : IsMinor a a.minor := by
  rwa [h.minor]

theorem add (h : IsMinor a n) (h' : IsMinor a' n') : IsMinor (a.add a') (n + n') where
  places := ⟨le_trans h.places.1 (le_max_left _ _), max_le h.places.2 h'.places.2⟩
  value := by
    rw [toRat_add, h.value, h'.value]
    push_cast
    ring

theorem sub (h : IsMinor a n) (h' : IsMinor a' n') : IsMinor (a.sub a') (n - n') where
  places := ⟨le_trans h.places.1 (le_max_left _ _), max_le h.places.2 h'.places.2⟩
  value := by
    rw [toRat_sub, h.value, h'.value]
    push_cast
    ring

theorem addAssign (h : IsMinor a n) (h' : IsMinor a' n') : IsMinor (a.addAssign a') (n + n') where
  places := ⟨le_trans (le_min h.places.1 h'.places.1) (scale_addAssign a a').1,
    le_trans (scale_addAssign a a').2 (max_le h.places.2 h'.places.2)⟩
  value := by
    rw [toRat_addAssign, h.value, h'.value]
    push_cast
    ring

theorem mul (h : IsMinor a n) (m : Int) : IsMinor (a.mul (ofInt m)) (n * m) where
  places := by
    rcases scale_mul_ofInt a m with hscale | hscale
    · rw [hscale]
      exact ⟨le_refl _, by decide⟩
    · rw [hscale]
      exact h.places
  value := by
    rw [toRat_mul_ofInt, h.value]
    push_cast
    ring

theorem neg (h : IsMinor a n) : IsMinor a.neg (-n) where
  places := h.places
  value := by
    rw [toRat_neg, h.value]
    push_cast
    ring

theorem digits_le (h : IsMinor a n) : a.digits.natAbs ≤ n.natAbs := by
  have hcast : (a.align 2 : ℚ) = n := by
    rw [align_cast a h.places.2, h.value]
    norm_num
  have halign : a.digits * 10 ^ (2 - a.scale).toNat = n := by
    exact_mod_cast hcast
  rw [← halign, Int.natAbs_mul, Int.natAbs_pow]
  exact Nat.le_mul_of_pos_right _ (Nat.pow_pos (by decide))

theorem cmp (h : IsMinor a n) (h' : IsMinor a' n') : a.cmp a' = .eq ↔ n = n' := by
  rw [cmp_eq_eq, h.value, h'.value, div_left_inj' (by norm_num), Int.cast_inj]

theorem isNegative (h : IsMinor a n) : a.isNegative = true ↔ n < 0 := by
  rw [isNegative_iff, h.value, div_lt_iff₀ (by norm_num), zero_mul, Int.cast_lt_zero]

end IsMinor

end BigDecimal

end ShaponTravels
