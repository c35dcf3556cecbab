import Mathlib.Data.List.TakeWhile
import ShaponTravels.Json
import ShaponTravels.Pricing.Arithmetic

/-!
# Texts — how decimals are written and read

The decimal parser reads a text of digits back, with a point, with an exponent or without.
-/

namespace ShaponTravels

namespace BigDecimal

/-! ## Digits -/

theorem isAsciiDigit_digitChar {n : Nat} (h : n < 10) : isAsciiDigit (Nat.digitChar n) := by
  apply isAsciiDigit_toDigits (n := n)
  rw [Nat.toDigits_of_lt_base h]
  exact List.mem_singleton_self _

/-- No digit is a point, a sign, an underscore or the letter of an exponent. -/
theorem digit_ne {c : Char} (h : isAsciiDigit c) :
    c ≠ '.' ∧ c ≠ '-' ∧ c ≠ '+' ∧ c ≠ '_' ∧ c ≠ 'e' ∧ c ≠ 'E' := by
  refine ⟨?_, ?_, ?_, ?_, ?_, ?_⟩
  all_goals
    rintro rfl
    exact absurd h (by decide)

/-- The last `k` digits of `n`. -/
def fraction : Nat → Nat → List Char
  | 0, _ => []
  | k + 1, n => fraction k (n / 10) ++ [Nat.digitChar (n % 10)]

@[simp] theorem length_fraction (k n : Nat) : (fraction k n).length = k := by
  induction k generalizing n with
  | zero => rfl
  | succ k ih => rw [fraction, List.length_append, ih, List.length_singleton]

theorem isAsciiDigit_fraction {k n : Nat} {c : Char} (h : c ∈ fraction k n) : isAsciiDigit c := by
  induction k generalizing n with
  | zero => cases h
  | succ k ih =>
    rcases List.mem_append.mp h with h | h
    · exact ih h
    · rw [List.mem_singleton.mp h]
      exact isAsciiDigit_digitChar (Nat.mod_lt _ (by decide))

theorem ofDigitChars_fraction (k n m : Nat) :
    Nat.ofDigitChars 10 (fraction k n) m = 10 ^ k * m + n % 10 ^ k := by
  induction k generalizing n with
  | zero => simp [fraction, Nat.mod_one]
  | succ k ih =>
    rw [fraction, Nat.ofDigitChars_append, ih,
      Nat.ofDigitChars_cons_digitChar_of_lt_ten (Nat.mod_lt _ (by decide)), Nat.ofDigitChars_nil,
      Nat.pow_succ', Nat.mod_mul]
    ring

/-- The whole digits and the fraction are the digits of the number. -/
theorem ofDigitChars_whole (k n : Nat) :
    Nat.ofDigitChars 10 (Nat.toDigits 10 (n / 10 ^ k) ++ fraction k n) 0 = n := by
  rw [Nat.ofDigitChars_append, Nat.ofDigitChars_ten_toDigits, ofDigitChars_fraction]
  exact Nat.div_add_mod n (10 ^ k)

/-! ## Reading -/

theorem unsigned_digits {ds : List Char} (hne : ds ≠ []) (h : ∀ c ∈ ds, isAsciiDigit c) :
    parseInteger.unsigned ds = some (Nat.ofDigitChars 10 ds 0 : Int) := by
  rw [parseInteger.unsigned, if_pos ⟨hne, List.all_eq_true.mpr h⟩]

theorem parseInteger_digits {ds : List Char} (hne : ds ≠ []) (h : ∀ c ∈ ds, isAsciiDigit c) :
    parseInteger ds = some (Nat.ofDigitChars 10 ds 0 : Int) := by
  rw [← unsigned_digits hne h]
  cases ds with
  | nil => exact absurd rfl hne
  | cons c ds =>
    have hc := digit_ne (h c List.mem_cons_self)
    unfold parseInteger
    split
    · rename_i heq
      exact absurd (List.cons.inj heq).1 hc.2.1
    · rename_i heq
      exact absurd (List.cons.inj heq).1 hc.2.2.1
    · rfl

/-- The sign of a number that is written with one. -/
def sign (n : Int) : List Char := if n < 0 then ['-'] else []

theorem parseBigInt_digits {n : Int} {ds : List Char} (hne : ds ≠ []) (h : ∀ c ∈ ds, isAsciiDigit c)
    (hn : Nat.ofDigitChars 10 ds 0 = n.natAbs) : parseBigInt (sign n ++ ds) = some n := by
  have hfilter : ds.filter (fun c => c ≠ '_') = ds :=
    List.filter_eq_self.mpr fun c hc => decide_eq_true (digit_ne (h c hc)).2.2.2.1
  have hall : ds.all fun c => isAsciiDigit c ∨ c = '_' :=
    List.all_eq_true.mpr fun c hc => decide_eq_true (.inl (h c hc))
  have hhead : ds.head? ≠ some '_' :=
    fun heq => (digit_ne (h '_' (List.mem_of_head? heq))).2.2.2.1 rfl
  have hunsigned : parseBigInt.unsigned ds = some (n.natAbs : Int) := by
    rw [parseBigInt.unsigned, if_pos ⟨hne, hhead, hall⟩, hfilter, hn]
  unfold sign
  split
  · rw [List.singleton_append, parseBigInt, hunsigned, Option.map_some, Option.some.injEq]
    omega
  · have hsigned : parseBigInt ds = parseBigInt.unsigned ds := by
      cases ds with
      | nil => exact absurd rfl hne
      | cons c ds =>
        have hc := digit_ne (h c List.mem_cons_self)
        unfold parseBigInt
        split
        · rename_i heq
          exact absurd (List.cons.inj heq).1 hc.2.1
        · rename_i heq
          exact absurd (List.cons.inj heq).1 hc.2.2.1
        · rfl
    rw [List.nil_append, hsigned, hunsigned, Option.some.injEq]
    omega

/-- The digits after the point, if there are any. -/
def point (trail : List Char) : List Char := if trail = [] then [] else '.' :: trail

/-- An exponent, if there is one. -/
inductive Exponent : List Char → Int → Prop where
  | none : Exponent [] 0
  | some {c : Char} {text : List Char} {e : Int} : c = 'e' ∨ c = 'E' → parseInteger text = some e →
      Exponent (c :: text) e

variable {n e : Int} {lead trail rest : List Char}

/-- A text of digits is read as its digits, with the places after the point less the exponent. -/
theorem parse_text (hlead : lead ≠ []) (hl : ∀ c ∈ lead, isAsciiDigit c) (ht : ∀ c ∈ trail, isAsciiDigit c)
    (hrest : Exponent rest e) (hn : Nat.ofDigitChars 10 (lead ++ trail) 0 = n.natAbs) :
    parse (String.ofList (sign n ++ lead ++ point trail ++ rest)) =
      (i64? (trail.length - e)).map fun scale => ⟨n, scale⟩ := by
  have hdigits : ∀ c ∈ lead ++ trail, isAsciiDigit c := by
    intro c hc
    rcases List.mem_append.mp hc with hc | hc
    · exact hl c hc
    · exact ht c hc
  have hsign : ∀ c ∈ sign n, c = '-' := by
    intro c hc
    unfold sign at hc
    split at hc
    · exact List.mem_singleton.mp hc
    · cases hc
  have hbase : ∀ c ∈ sign n ++ lead ++ point trail, ¬ (c = 'e' ∨ c = 'E') := by
    intro c hc
    rw [List.mem_append, List.mem_append] at hc
    have hdigit : isAsciiDigit c → ¬ (c = 'e' ∨ c = 'E') := fun h =>
      not_or.mpr ⟨(digit_ne h).2.2.2.2.1, (digit_ne h).2.2.2.2.2⟩
    rcases hc with (hc | hc) | hc
    · rw [hsign c hc]
      decide
    · exact hdigit (hl c hc)
    · unfold point at hc
      split at hc
      · cases hc
      · rcases List.mem_cons.mp hc with rfl | hc
        · decide
        · exact hdigit (ht c hc)
  -- the parser cuts the text at the exponent first, then what is before it at the point
  have hexponent : rest.takeWhile (fun c => ¬ (c = 'e' ∨ c = 'E')) = [] ∧
      rest.dropWhile (fun c => ¬ (c = 'e' ∨ c = 'E')) = rest := by
    cases hrest with
    | none => exact ⟨rfl, rfl⟩
    | some hc htext =>
      exact ⟨List.takeWhile_cons_of_neg (by simp [hc]), List.dropWhile_cons_of_neg (by simp [hc])⟩
  have hpoint : ∀ c ∈ sign n ++ lead, decide (c ≠ '.') = true := by
    intro c hc
    rcases List.mem_append.mp hc with hc | hc
    · rw [hsign c hc]
      decide
    · exact decide_eq_true (digit_ne (hl c hc)).1
  have hsplit : (sign n ++ lead ++ point trail).takeWhile (fun c => c ≠ '.') = sign n ++ lead ∧
      ((sign n ++ lead ++ point trail).dropWhile (fun c => c ≠ '.')).drop 1 = trail := by
    rw [List.takeWhile_append_of_pos hpoint, List.dropWhile_append_of_pos hpoint]
    unfold point
    split
    · rename_i hnil
      simp [hnil]
    · simp
  have hcount : trail.countP (fun c => c ≠ '_') = trail.length :=
    List.countP_eq_length.mpr fun c hc => decide_eq_true (digit_ne (ht c hc)).2.2.2.1
  have hvalue : parseBigInt (sign n ++ (lead ++ trail)) = some n :=
    parseBigInt_digits (by simp [hlead]) hdigits hn
  simp only [parse, String.toList_ofList]
  rw [List.takeWhile_append_of_pos fun c hc => decide_eq_true (hbase c hc),
    List.dropWhile_append_of_pos fun c hc => decide_eq_true (hbase c hc), hexponent.1, hexponent.2,
    List.append_nil, hsplit.1, hsplit.2, hcount, List.append_assoc, hvalue]
  cases hrest with
  | none => rfl
  | some hc htext => simp only [htext]

/-! ## Two places -/

/-- The digits of the cents. -/
abbrev cents (n : Nat) : List Char := fraction 2 n

/-- The text of `n` minor units. -/
def twoPlaces (n : Int) : String :=
  String.ofList (sign n ++ Nat.toDigits 10 (n.natAbs / 100) ++ '.' :: cents n.natAbs)

example : twoPlaces 403305 = "4033.05" ∧ twoPlaces (-7) = "-0.07" ∧ twoPlaces 0 = "0.00" := by
  decide

theorem toList_twoPlaces (n : Int) : (twoPlaces n).toList =
    (if n < 0 then ['-'] else []) ++ (Nat.toDigits 10 (n.natAbs / 100) ++ '.' :: cents n.natAbs) := by
  simp only [twoPlaces, String.toList_ofList, sign, List.append_assoc]

/-- The decimal parser reads the text of two places back. -/
theorem parse_twoPlaces (n : Int) : parse (twoPlaces n) = some ⟨n, 2⟩ := by
  have hread := parse_text (n := n) Nat.toDigits_ne_nil (fun c hc => isAsciiDigit_toDigits hc)
    (fun c hc => isAsciiDigit_fraction hc) .none (ofDigitChars_whole 2 n.natAbs)
  have hpoint : point (cents n.natAbs) = '.' :: cents n.natAbs := if_neg (by simp [fraction])
  have hscale : i64? (((cents n.natAbs).length : Int) - 0) = some 2 := by
    rw [length_fraction]
    decide
  rw [hpoint, List.append_nil, hscale] at hread
  exact hread

/-- How the crate writes numbers of two places or fewer.  Plain, they are read back, without an exponent where
they have none; the format `.2` writes both places. -/
structure Decimals.Plain (d : Decimals) : Prop where
  reads : ∀ (a : BigDecimal) (n : Int), a.scale ≤ 2 → a.toRat = n / 100 →
    ∃ x, parse (d.display a) = some x ∧ x.toRat = n / 100
  places : ∀ (n : Int) (x : BigDecimal), parse (d.display ⟨n, 2⟩) = some x → 0 ≤ x.scale ∧ x.scale ≤ 2
  fixed : ∀ a n, IsMinor a n → d.fixed a = twoPlaces n

theorem Decimals.Plain.display {d : Decimals} (hd : d.Plain) (n : Int) :
    ∃ x, parse (d.display ⟨n, 2⟩) = some x ∧ IsMinor x n := by
  obtain ⟨x, hx, hvalue⟩ := hd.reads ⟨n, 2⟩ n (le_refl _) (toRat_minor n)
  exact ⟨x, hx, hd.places n x hx, hvalue⟩

/-! ## Texts with an exponent or without -/

/-- The text of `m` with its last `k` digits behind the point. -/
def decimalText (k m : Nat) : List Char := Nat.toDigits 10 (m / 10 ^ k) ++ point (fraction k m)

/-- A number that is not negative, with two places or fewer, is written out in digits unless its text has an
exponent. -/
def Decimals.WritesOut (d : Decimals) : Prop :=
  ∀ (a : BigDecimal) (n : Nat), a.scale ≤ 2 → a.toRat = n / 100 → 'e' ∉ (d.display a).toList →
    ∃ k m, k ≤ 2 ∧ m * 10 ^ (2 - k) = n ∧ d.display a = String.ofList (decimalText k m)

theorem parse_decimalText {k : Nat} (hk : (k : Int) ≤ bigintMax) (n : Int) :
    parse (String.ofList (sign n ++ decimalText k n.natAbs)) = some ⟨n, k⟩ := by
  have hread := parse_text (n := n) Nat.toDigits_ne_nil (fun c hc => isAsciiDigit_toDigits hc)
    (fun c hc => isAsciiDigit_fraction hc) .none (ofDigitChars_whole k n.natAbs)
  have hscale : i64? (((fraction k n.natAbs).length : Int) - 0) = some (k : Int) := by
    rw [length_fraction, Int.sub_zero, i64?_eq_some]
    refine ⟨⟨?_, hk⟩, rfl⟩
    have hnonneg := Int.natCast_nonneg k
    unfold bigintMax
    omega
  rw [hscale, List.append_nil, List.append_assoc] at hread
  exact hread

/-- The text of a number as the crate's `Display` writes it, where the scale fits an `i64`: more than fifteen zeros
at its end or more than five at its front are written as an exponent. -/
def written (a : BigDecimal) : String :=
  let digits := Nat.toDigits 10 a.digits.natAbs
  if a.digits = 0 then "0"
  else String.ofList (sign a.digits ++
    if -bigintMax ≤ a.scale ∧ a.scale < -15 then digits ++ 'e' :: '+' :: Nat.toDigits 10 a.scale.natAbs
    else if a.scale ≤ 0 then decimalText 0 (a.digits.natAbs * 10 ^ a.scale.natAbs)
    else if digits.length + 5 < a.scale then
      digits.take 1 ++ point (digits.drop 1) ++
        'E' :: '-' :: Nat.toDigits 10 (a.scale - digits.length + 1).natAbs
    else decimalText a.scale.toNat a.digits.natAbs)

example : written ⟨25010, 2⟩ = "250.10" ∧ written ⟨-5, 1⟩ = "-0.5" ∧ written ⟨574900, 2⟩ = "5749.00" ∧
    written ⟨1, -16⟩ = "1e+16" ∧ written ⟨12, -3⟩ = "12000" ∧ written ⟨12, 9⟩ = "1.2E-8" ∧
    written ⟨0, 2⟩ = "0" := by decide

theorem exponent_plus (n : Nat) : Exponent ('e' :: '+' :: Nat.toDigits 10 n) n := by
  have hdigits := unsigned_digits (@Nat.toDigits_ne_nil n 10) fun c hc => isAsciiDigit_toDigits hc
  rw [Nat.ofDigitChars_ten_toDigits] at hdigits
  exact .some (.inl rfl) hdigits

theorem exponent_minus (n : Nat) : Exponent ('E' :: '-' :: Nat.toDigits 10 n) (-n) := by
  have hdigits := unsigned_digits (@Nat.toDigits_ne_nil n 10) fun c hc => isAsciiDigit_toDigits hc
  rw [Nat.ofDigitChars_ten_toDigits] at hdigits
  exact .some (.inr rfl) (by rw [parseInteger, hdigits, Option.map_some])

/-- A text whose places less its exponent are those of a number, and whose digits are its digits. -/
theorem parse_exact {a : BigDecimal} (h : -bigintMax ≤ a.scale ∧ a.scale ≤ bigintMax) (hlead : lead ≠ [])
    (hdigits : lead ++ trail = Nat.toDigits 10 a.digits.natAbs) (hrest : Exponent rest e)
    (hscale : (trail.length : Int) - e = a.scale) :
    parse (String.ofList (sign a.digits ++ lead ++ point trail ++ rest)) = some a := by
  have hmem : ∀ c ∈ lead ++ trail, isAsciiDigit c := fun c hc => isAsciiDigit_toDigits (hdigits ▸ hc)
  have hn : Nat.ofDigitChars 10 (lead ++ trail) 0 = a.digits.natAbs := by
    rw [hdigits, Nat.ofDigitChars_ten_toDigits]
  rw [parse_text hlead (fun c hc => hmem c (List.mem_append_left _ hc))
    (fun c hc => hmem c (List.mem_append_right _ hc)) hrest hn, hscale, i64?,
    if_pos ⟨by omega, h.2⟩, Option.map_some]

/-- The crate reads back what it writes, with no more places or zeros. -/
theorem parse_written {a : BigDecimal} (h : a.scale ≤ bigintMax) :
    ∃ x, parse (written a) = some x ∧ x.toRat = a.toRat ∧ x.scale.natAbs ≤ a.scale.natAbs := by
  unfold written
  by_cases hzero : a.digits = 0
  · rw [if_pos hzero, toRat_eq_zero.mpr hzero]
    exact ⟨ofInt 0, by decide, by simp [toRat_ofInt], Nat.zero_le _⟩
  rw [if_neg hzero]
  -- the zeros at the end go into an exponent
  by_cases hlong : -bigintMax ≤ a.scale ∧ a.scale < -15
  · have hread := parse_exact ⟨hlong.1, h⟩ Nat.toDigits_ne_nil (List.append_nil _) (exponent_plus a.scale.natAbs)
      (by rw [List.length_nil]; omega)
    have htext : sign a.digits ++ Nat.toDigits 10 a.digits.natAbs ++ point [] ++
        'e' :: '+' :: Nat.toDigits 10 a.scale.natAbs = sign a.digits ++ (Nat.toDigits 10 a.digits.natAbs ++
        'e' :: '+' :: Nat.toDigits 10 a.scale.natAbs) := by simp [point]
    rw [htext] at hread
    rw [if_pos hlong]
    exact ⟨a, hread, rfl, le_refl _⟩
  rw [if_neg hlong]
  -- the zeros at the end are written out, so the number is read back without places
  by_cases hwhole : a.scale ≤ 0
  · have hsign : sign (a.digits * 10 ^ a.scale.natAbs) = sign a.digits := by
      have hpow : (0 : Int) < 10 ^ a.scale.natAbs := by positivity
      have hiff : a.digits * 10 ^ a.scale.natAbs < 0 ↔ a.digits < 0 := by
        rw [← Int.sign_eq_neg_one_iff_neg, Int.sign_mul, Int.sign_eq_one_of_pos hpow, Int.mul_one,
          Int.sign_eq_neg_one_iff_neg]
      unfold sign
      simp only [hiff]
    have hread := parse_decimalText (k := 0) (by decide) (a.digits * 10 ^ a.scale.natAbs)
    rw [hsign, Int.natAbs_mul, Int.natAbs_pow] at hread
    rw [if_pos hwhole]
    refine ⟨_, hread, ?_, Nat.zero_le _⟩
    have hscale : -a.scale = (a.scale.natAbs : Int) := by omega
    rw [toRat, toRat, hscale, zpow_natCast]
    push_cast
    rw [mul_one]
  rw [if_neg hwhole]
  -- the zeros at the front go into an exponent, behind the first digit
  by_cases hsmall : (Nat.toDigits 10 a.digits.natAbs).length + 5 < a.scale
  · have hsplit : (Nat.toDigits 10 a.digits.natAbs).take 1 ++ (Nat.toDigits 10 a.digits.natAbs).drop 1 =
        Nat.toDigits 10 a.digits.natAbs := List.take_append_drop 1 _
    have hfirst : (Nat.toDigits 10 a.digits.natAbs).take 1 ≠ [] := by
      rw [Ne, List.take_eq_nil_iff, not_or]
      exact ⟨by decide, Nat.toDigits_ne_nil⟩
    have hpos : 0 < (Nat.toDigits 10 a.digits.natAbs).length := List.length_pos_iff.mpr Nat.toDigits_ne_nil
    have hread := parse_exact ⟨by unfold bigintMax; omega, h⟩ hfirst hsplit
      (exponent_minus (a.scale - (Nat.toDigits 10 a.digits.natAbs).length + 1).natAbs)
      (by rw [List.length_drop]; omega)
    rw [if_pos hsmall]
    simp only [List.append_assoc] at hread ⊢
    exact ⟨a, hread, rfl, le_refl _⟩
  · have hscale : ((a.scale.toNat : Nat) : Int) = a.scale := Int.toNat_of_nonneg (by omega)
    have hread := parse_decimalText (k := a.scale.toNat) (by rw [hscale]; exact h) a.digits
    rw [if_neg hsmall]
    rw [hscale] at hread
    exact ⟨a, hread, rfl, le_refl _⟩

/-- A number of two places is written out with them, or as zero. -/
theorem written_two {n : Int} {x : BigDecimal} (hx : parse (written ⟨n, 2⟩) = some x) :
    0 ≤ x.scale ∧ x.scale ≤ 2 := by
  by_cases hzero : n = 0
  · subst hzero
    have hread : parse (written ⟨0, 2⟩) = some (ofInt 0) := by decide
    rw [hread, Option.some.injEq] at hx
    rw [← hx]
    decide
  · have hlong : ¬ (-bigintMax ≤ (2 : Int) ∧ (2 : Int) < -15) := by decide
    have hwhole : ¬ (2 : Int) ≤ 0 := by decide
    have hsmall : ¬ (Nat.toDigits 10 n.natAbs).length + 5 < (2 : Int) := by omega
    have hread := parse_decimalText (k := 2) (by decide) n
    rw [written, if_neg hzero, if_neg hlong, if_neg hwhole, if_neg hsmall] at hx
    rw [← Option.some.inj (hread.symm.trans hx)]
    exact ⟨zero_le_two, le_refl _⟩

/-- Only a text with an exponent is not written out. -/
theorem written_decimalText {a : BigDecimal} {n : Nat} (hplaces : a.scale ≤ 2) (hvalue : a.toRat = n / 100)
    (htext : 'e' ∉ (written a).toList) :
    ∃ k m, k ≤ 2 ∧ m * 10 ^ (2 - k) = n ∧ written a = String.ofList (decimalText k m) := by
  unfold written at htext ⊢
  by_cases hzero : a.digits = 0
  · rw [toRat_eq_zero.mpr hzero, eq_comm, div_eq_zero_iff] at hvalue
    rw [if_pos hzero]
    refine ⟨0, 0, by decide, ?_, by decide⟩
    have hn : n = 0 := by exact_mod_cast hvalue.resolve_right (by norm_num)
    rw [hn, Nat.zero_mul]
  rw [if_neg hzero] at htext ⊢
  have hpos : 0 < a.digits := by
    have hnonneg : (0 : ℚ) ≤ a.toRat := by
      rw [hvalue]
      positivity
    rw [toRat, mul_nonneg_iff_of_pos_right (zpow_pos (by norm_num) _), Int.cast_nonneg_iff] at hnonneg
    omega
  have hsign : sign a.digits = [] := if_neg (by omega)
  rw [hsign, List.nil_append] at htext ⊢
  -- a text of many trailing zeros is the one with an exponent
  by_cases hlong : -bigintMax ≤ a.scale ∧ a.scale < -15
  · rw [if_pos hlong] at htext
    exact absurd (by simp) htext
  rw [if_neg hlong] at htext ⊢
  have hdigits : (a.digits : ℚ) = a.digits.natAbs := by
    rw [← Int.cast_natCast, Int.natAbs_of_nonneg hpos.le]
  -- zeros follow the digits of a whole amount, a point stands in front of the last ones otherwise
  by_cases hwhole : a.scale ≤ 0
  · have hscale : -a.scale = (a.scale.natAbs : Int) := by omega
    rw [toRat, hscale, zpow_natCast, hdigits] at hvalue
    rw [if_pos hwhole]
    refine ⟨0, _, by decide, ?_, rfl⟩
    have hcast : ((a.digits.natAbs * 10 ^ a.scale.natAbs * 10 ^ (2 - 0) : Nat) : ℚ) = n := by
      push_cast
      rw [hvalue]
      norm_num
    exact_mod_cast hcast
  · have hsmall : ¬ (Nat.toDigits 10 a.digits.natAbs).length + 5 < a.scale := by omega
    have hplus : ((a.scale.toNat : Nat) : Int) = a.scale := Int.toNat_of_nonneg (by omega)
    rw [if_neg hwhole, if_neg hsmall]
    refine ⟨a.scale.toNat, _, by omega, ?_, rfl⟩
    have hpow : (10 : ℚ) ^ (-a.scale) * 100 = 10 ^ (2 - a.scale.toNat) := by
      have hexponent : ((2 - a.scale.toNat : Nat) : Int) = -a.scale + 2 := by omega
      rw [← zpow_natCast, hexponent, zpow_add₀ (by norm_num)]
      norm_num
    have hcast : ((a.digits.natAbs * 10 ^ (2 - a.scale.toNat) : Nat) : ℚ) = n := by
      push_cast
      rw [← hpow, ← mul_assoc, ← hdigits, ← toRat, hvalue]
      field_simp
    exact_mod_cast hcast

end BigDecimal

namespace Pricing

open BigDecimal

/-- The texts of the crate, and quotients by a hundred, the only ones there are. -/
def sampleDecimals : Decimals where
  display := written
  fixed a := twoPlaces a.minor
  quotient a _ := ⟨a.digits, a.scale + 2⟩

theorem sampleDecimals_plain : sampleDecimals.Plain where
  reads a n hplaces hvalue := by
    obtain ⟨x, hx, hread, -⟩ := parse_written (le_trans hplaces (by decide : (2 : Int) ≤ bigintMax))
    exact ⟨x, hx, hread.trans hvalue⟩
  places _ _ := written_two
  fixed _ _ h := congrArg twoPlaces h.minor

theorem sampleDecimals_writesOut : sampleDecimals.WritesOut := fun _ _ => written_decimalText

end Pricing

end ShaponTravels
