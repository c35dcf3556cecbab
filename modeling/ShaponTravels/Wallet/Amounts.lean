import ShaponTravels.Library.Outcome
import ShaponTravels.Pricing.Texts
import ShaponTravels.Wallet.Money

/-!
# Amounts — the texts the wallet reads as money

What `major_to_minor` accepts, and that it reads every text of minor units back.
-/

namespace ShaponTravels.Wallet

open BigDecimal (twoPlaces toList_twoPlaces cents fraction length_fraction ofDigitChars_fraction
  isAsciiDigit_fraction digit_ne decimalText point)

/-- The number a text of digits stands for. -/
def digitsValue (ds : List Char) : Nat := Nat.ofDigitChars 10 ds 0

/-- The texts of an amount with its minor units: one or more digits, then perhaps a point and one or
two digits. -/
inductive Amount : List Char → Nat → Prop where
  | whole (w : List Char) : w ≠ [] → w.all isAsciiDigit → Amount w (digitsValue w * 100)
  | fraction (w f : List Char) : w ≠ [] → w.all isAsciiDigit → f.length = 1 ∨ f.length = 2 →
      f.all isAsciiDigit → Amount (w ++ '.' :: f) (digitsValue w * 100 + digitsValue f * 10 ^ (2 - f.length))

/-- `format!("{}.{:02}", n / 100, n % 100)`. -/
def majorText (n : Nat) : String :=
  toString (n / 100) ++ "." ++ (if n % 100 < 10 then "0" else "") ++ toString (n % 100)

variable {value : String} {w f : List Char} {n : Int}

theorem point_not_mem (h : w.all isAsciiDigit) : '.' ∉ w :=
  fun hmem => (digit_ne (List.all_eq_true.mp h '.' hmem)).1 rfl

theorem foldl_digits (ds : List Char) (k : Nat) :
    ds.foldl (fun (n : Int) c => n * 10 + (c.toNat - '0'.toNat : Nat)) (k : Int) =
      (Nat.ofDigitChars 10 ds k : Int) := by
  induction ds generalizing k with
  | nil => simp
  | cons c ds ih =>
    have hstep : (k : Int) * 10 + ((c.toNat - '0'.toNat : Nat) : Int) =
        ((10 * k + (c.toNat - '0'.toNat) : Nat) : Int) := by
      push_cast
      omega
    rw [List.foldl_cons, Nat.ofDigitChars_cons, ← ih, hstep]

theorem parseDigits_eq (ds : List Char) : parseDigits ds = i64? (digitsValue ds : Int) := by
  have hfold := foldl_digits ds 0
  rw [Nat.cast_zero] at hfold
  rw [parseDigits, hfold, digitsValue]

/-- The checks at the limit of `i64` fail exactly when the sum is out of range. -/
theorem checked_minor (m t : Nat) :
    (((i64? (m : Int)).bind fun n => i64? (n * 100)).bind fun n => i64? (n + (t : Int))) =
      i64? ((m * 100 + t : Nat) : Int) := by
  have hcast : ((m * 100 + t : Nat) : Int) = (m : Int) * 100 + t := by push_cast; rfl
  rw [hcast]
  unfold i64? bigintMax
  by_cases hm : (m : Int) ≤ 9223372036854775807
  · rw [if_pos ⟨by omega, hm⟩, Option.bind_some]
    by_cases hscaled : (m : Int) * 100 ≤ 9223372036854775807
    · rw [if_pos ⟨by omega, hscaled⟩, Option.bind_some]
    · rw [if_neg (by omega), Option.bind_none, if_neg (by omega)]
  · rw [if_neg (by omega), Option.bind_none, Option.bind_none, if_neg (by omega)]

theorem digit_lt {c : Char} (h : isAsciiDigit c) : c.toNat - '0'.toNat < 10 := by
  simp only [isAsciiDigit, Bool.and_eq_true, decide_eq_true_eq] at h
  have hle : c.toNat ≤ '9'.toNat := h.2
  have hnine : '9'.toNat = 57 := rfl
  have hzero : '0'.toNat = 48 := rfl
  omega

/-- A fraction of one or two digits does not overflow. -/
theorem fraction_minor (hlength : f.length = 1 ∨ f.length = 2) (hf : f.all isAsciiDigit) :
    (parseDigits f).map (· * if f.length = 1 then 10 else 1) =
      some ((digitsValue f * 10 ^ (2 - f.length) : Nat) : Int) := by
  rw [parseDigits_eq]
  match f with
  | [] => simp at hlength
  | [c] =>
    have hc := digit_lt (List.all_eq_true.mp hf c List.mem_cons_self)
    have hvalue : digitsValue [c] = c.toNat - '0'.toNat := by
      rw [digitsValue, Nat.ofDigitChars_cons, Nat.ofDigitChars_nil, Nat.mul_zero, Nat.zero_add]
    have hrange : i64? (digitsValue [c] : Int) = some (digitsValue [c] : Int) := by
      rw [i64?_eq_some]
      unfold bigintMax
      omega
    rw [hrange]
    simp
  | [c, c'] =>
    have hc := digit_lt (List.all_eq_true.mp hf c List.mem_cons_self)
    have hc' := digit_lt (List.all_eq_true.mp hf c' (by simp))
    have hvalue : digitsValue [c, c'] = 10 * (c.toNat - '0'.toNat) + (c'.toNat - '0'.toNat) := by
      rw [digitsValue, Nat.ofDigitChars_cons, Nat.ofDigitChars_cons, Nat.ofDigitChars_nil, Nat.mul_zero,
        Nat.zero_add]
    have hrange : i64? (digitsValue [c, c'] : Int) = some (digitsValue [c, c'] : Int) := by
      rw [i64?_eq_some]
      unfold bigintMax
      omega
    rw [hrange]
    simp
  | _ :: _ :: _ :: _ => simp at hlength

/-- What `major_to_minor` returns for the text of an amount. -/
theorem majorToMinor_amount {m : Nat} (h : Amount value.toList m) :
    majorToMinor value = Library.fetch (i64? m) (invalid "INVALID_WALLET_AMOUNT") := by
  generalize htext : value.toList = text at h
  cases h with
  | whole _ hne hdigits =>
    have hsplit : value.toList.splitOn '.' = [text] := by
      rw [htext, List.splitOn_eq_singleton (point_not_mem hdigits)]
    have hparse := checked_minor (digitsValue text) 0
    rw [← parseDigits_eq, Nat.add_zero, Nat.cast_zero] at hparse
    simp only [majorToMinor, hsplit, hne, hdigits, List.length_nil, not_true_eq_false, false_or,
      Nat.reduceLeDiff, if_false, hparse]
    cases i64? ((digitsValue text * 100 : Nat) : Int) <;> rfl
  | fraction w f hne hdigits hlength hf =>
    have hsplit : value.toList.splitOn '.' = [w, f] := by
      rw [htext, List.splitOn_append_cons_self_of_not_mem (point_not_mem hdigits),
        List.splitOn_eq_singleton (point_not_mem hf)]
    have hparse := checked_minor (digitsValue w) (digitsValue f * 10 ^ (2 - f.length))
    rw [← parseDigits_eq] at hparse
    have htail := fraction_minor hlength hf
    simp only [majorToMinor, hsplit, hne, hdigits, hlength, hf, htail, List.length_singleton,
      not_true_eq_false, false_or, Nat.reduceLeDiff, if_false, and_self, if_true, hparse]
    cases i64? ((digitsValue w * 100 + digitsValue f * 10 ^ (2 - f.length) : Nat) : Int) <;> rfl

/-- Only the text of an amount is accepted. -/
theorem amount_of_majorToMinor (h : majorToMinor value = .ok n) : ∃ m, Amount value.toList m := by
  have htext : ['.'].intercalate (value.toList.splitOn '.') = value.toList :=
    List.intercalate_splitOn '.'
  unfold majorToMinor at h
  generalize value.toList.splitOn '.' = parts at h htext
  rw [← htext]
  match parts with
  | [] => cases h
  | whole :: rest =>
    dsimp only at h
    by_cases hguard : whole = [] ∨ ¬ whole.all isAsciiDigit ∨ 2 ≤ rest.length
    · rw [if_pos hguard] at h
      cases h
    · rw [not_or, not_or, Decidable.not_not] at hguard
      obtain ⟨hne, hdigits, hrest⟩ := hguard
      match rest with
      | [] => exact ⟨_, by rw [List.intercalate_singleton]; exact .whole whole hne hdigits⟩
      | [f] =>
        rw [if_neg (by simp [hne, hdigits])] at h
        by_cases hfraction : (f.length = 1 ∨ f.length = 2) ∧ f.all isAsciiDigit
        · have htext : ['.'].intercalate [whole, f] = whole ++ '.' :: f := by simp [List.intercalate]
          exact ⟨_, by rw [htext]; exact .fraction whole f hne hdigits hfraction.1 hfraction.2⟩
        · simp only [if_neg hfraction] at h
          cases h
      | _ :: _ :: _ => exact absurd (by simp) hrest

theorem majorToMinor_error {e : ApiError} (h : majorToMinor value = .error e) :
    e = invalid "INVALID_WALLET_AMOUNT" := by
  unfold majorToMinor at h
  cases hparts : value.toList.splitOn '.' with
  | nil => exact absurd hparts (List.splitOn_ne_nil _ _)
  | cons whole rest =>
    rw [hparts] at h
    dsimp only at h
    by_cases hguard : whole = [] ∨ ¬ whole.all isAsciiDigit ∨ 2 ≤ rest.length
    · rw [if_pos hguard] at h
      cases h
      rfl
    · rw [if_neg hguard] at h
      split at h
      · cases h
        rfl
      · split at h
        · cases h
        · cases h
          rfl

theorem majorText_eq (n : Nat) : majorText n = twoPlaces n := by
  have hlow : (if n % 100 < 10 then "0" else "").toList ++ Nat.toDigits 10 (n % 100) =
      [Nat.digitChar (n / 10 % 10), Nat.digitChar (n % 10)] := by
    by_cases hsmall : n % 100 < 10
    · have hzero : n / 10 % 10 = 0 := by omega
      have hone : n % 100 = n % 10 := by omega
      rw [if_pos hsmall, Nat.toDigits_of_lt_base hsmall, hzero, hone]
      rfl
    · have hten : n % 100 / 10 = n / 10 % 10 := by omega
      have hone : n % 100 % 10 = n % 10 := by omega
      rw [if_neg hsmall, Nat.toDigits_of_base_le (by decide) (by omega), hten, hone,
        Nat.toDigits_of_lt_base (by omega)]
      rfl
  have hsign : ¬ (n : Int) < 0 := not_lt.mpr (Int.natCast_nonneg n)
  have hcents : cents n = [Nat.digitChar (n / 10 % 10), Nat.digitChar (n % 10)] := rfl
  apply String.toList_inj.mp
  rw [majorText, toList_twoPlaces, if_neg hsign, Int.natAbs_natCast, hcents, ← hlow]
  simp [String.toList_append]

/-- A text of digits with two places or fewer is the text of its minor units. -/
theorem amount_decimalText {k : Nat} (hk : k ≤ 2) (m : Nat) : Amount (decimalText k m) (m * 10 ^ (2 - k)) := by
  have hwhole : digitsValue (Nat.toDigits 10 (m / 10 ^ k)) = m / 10 ^ k := Nat.ofDigitChars_ten_toDigits
  have hdigits : (Nat.toDigits 10 (m / 10 ^ k)).all isAsciiDigit :=
    List.all_eq_true.mpr fun c hc => isAsciiDigit_toDigits hc
  by_cases hzero : k = 0
  · subst hzero
    have hamount := Amount.whole _ Nat.toDigits_ne_nil hdigits
    rw [hwhole, Nat.pow_zero, Nat.div_one] at hamount
    simpa [decimalText, point, fraction] using hamount
  · have hne : fraction k m ≠ [] := by
      rw [Ne, ← List.length_eq_zero_iff, length_fraction]
      exact hzero
    have hfraction : digitsValue (fraction k m) = m % 10 ^ k := by
      rw [digitsValue, ofDigitChars_fraction, Nat.mul_zero, Nat.zero_add]
    have hamount := Amount.fraction _ (fraction k m) Nat.toDigits_ne_nil hdigits
      (by rw [length_fraction]; omega) (List.all_eq_true.mpr fun c hc => isAsciiDigit_fraction hc)
    have hvalue : m / 10 ^ k * 100 + m % 10 ^ k * 10 ^ (2 - k) = m * 10 ^ (2 - k) := by
      have hpow : (100 : Nat) = 10 ^ k * 10 ^ (2 - k) := by
        rw [← Nat.pow_add, Nat.add_sub_cancel' hk]
      rw [hpow, ← Nat.mul_assoc, ← Nat.add_mul, Nat.div_add_mod']
    rw [hwhole, hfraction, length_fraction, hvalue] at hamount
    rwa [decimalText, point, if_neg hne]

/-- The text of minor units is the text of their amount. -/
theorem amount_twoPlaces (n : Nat) : Amount (twoPlaces n).toList n := by
  have hamount := amount_decimalText (k := 2) (le_refl 2) n
  have hsign : ¬ (n : Int) < 0 := not_lt.mpr (Int.natCast_nonneg n)
  rw [toList_twoPlaces, if_neg hsign, Int.natAbs_natCast, List.nil_append]
  simpa [decimalText, point, fraction] using hamount

/-- The wallet reads the text of an amount in its range back as its minor units. -/
theorem majorToMinor_twoPlaces (hn : 0 ≤ n) (hmax : n ≤ bigintMax) : majorToMinor (twoPlaces n) = .ok n := by
  obtain ⟨m, rfl⟩ := Int.eq_ofNat_of_zero_le hn
  rw [majorToMinor_amount (amount_twoPlaces m), Library.fetch_eq_ok, i64?_eq_some]
  refine ⟨⟨?_, hmax⟩, rfl⟩
  unfold bigintMax
  omega

/-- The decimal parser reads digits, with a point and two more or fewer. -/
theorem parse_point {lead trail : List Char} (hne : lead ≠ []) (hlead : lead.all isAsciiDigit)
    (htrail : trail.all isAsciiDigit) (hlength : trail.length ≤ 2) :
    BigDecimal.parse (String.ofList (lead ++ point trail)) =
      some ⟨10 ^ trail.length * digitsValue lead + digitsValue trail, trail.length⟩ := by
  have hdigits : Nat.ofDigitChars 10 (lead ++ trail) 0 =
      10 ^ trail.length * digitsValue lead + digitsValue trail := by
    rw [Nat.ofDigitChars_append, Nat.ofDigitChars_eq_ofDigitChars_zero]
    rfl
  have hparse := BigDecimal.parse_text
    (n := (10 ^ trail.length * digitsValue lead + digitsValue trail : Nat)) hne
    (fun c hc => List.all_eq_true.mp hlead c hc) (fun c hc => List.all_eq_true.mp htrail c hc) .none hdigits
  have hscale : i64? ((trail.length : Int) - 0) = some (trail.length : Int) := by
    rw [Int.sub_zero, i64?_eq_some]
    unfold bigintMax
    omega
  have hsign : BigDecimal.sign ((10 ^ trail.length * digitsValue lead + digitsValue trail : Nat) : Int) = [] :=
    if_neg (by omega)
  rw [hsign, List.nil_append, List.append_nil, hscale, Option.map_some] at hparse
  rw [hparse]
  push_cast
  rfl

/-- The decimal parser reads the text of an amount as its minor units. -/
theorem Amount.toRat {m : Nat} {a : BigDecimal} (h : Amount value.toList m) (ha : BigDecimal.parse value = some a) :
    a.toRat = m / 100 := by
  have hread : ∀ lead trail : List Char, lead ≠ [] → lead.all isAsciiDigit → trail.all isAsciiDigit →
      trail.length ≤ 2 → value.toList = lead ++ point trail →
      a = ⟨10 ^ trail.length * digitsValue lead + digitsValue trail, trail.length⟩ := by
    intro lead trail hne hlead htrail hlength htext
    have hparse := parse_point hne hlead htrail hlength
    rw [← htext, String.ofList_toList, ha] at hparse
    exact Option.some.inj hparse
  generalize htext : value.toList = text at h
  cases h with
  | whole _ hne hdigits =>
    rw [hread text [] hne hdigits rfl (Nat.zero_le _) (htext.trans (by simp [point]))]
    simp [BigDecimal.toRat, digitsValue]
  | fraction w f hne hdigits hlength hf =>
    have hnonempty : f ≠ [] := by
      rintro rfl
      simp at hlength
    rw [hread w f hne hdigits hf (by omega) (by rw [htext, point, if_neg hnonempty])]
    rcases hlength with hone | htwo
    · rw [BigDecimal.toRat, hone]
      push_cast
      norm_num
      ring
    · rw [BigDecimal.toRat, htwo]
      push_cast
      norm_num
      ring

/-- What the wallet reads of a text is what the decimal parser reads. -/
theorem toRat_of_majorToMinor {a : BigDecimal} (h : majorToMinor value = .ok n)
    (ha : BigDecimal.parse value = some a) : a.toRat = n / 100 := by
  obtain ⟨m, hm⟩ := amount_of_majorToMinor h
  rw [majorToMinor_amount hm, Library.fetch_eq_ok, i64?_eq_some] at h
  rw [hm.toRat ha, ← h.2, Int.cast_natCast]

/-- `major_to_minor` succeeds exactly on the texts of amounts in the range of `i64`, with their minor
units, refuses every other text with its one error, and reads the text of minor units back. -/
theorem majorToMinor_iff (value : String) :
    (∀ n, majorToMinor value = .ok n ↔
      ∃ m : Nat, Amount value.toList m ∧ (m : Int) ≤ bigintMax ∧ n = m) ∧
    (∀ e, majorToMinor value = .error e ↔ e = invalid "INVALID_WALLET_AMOUNT" ∧
      ¬ ∃ m : Nat, Amount value.toList m ∧ (m : Int) ≤ bigintMax) ∧
    ∀ n : Nat, (n : Int) ≤ bigintMax → majorToMinor (majorText n) = .ok n := by
  have hok : ∀ n, majorToMinor value = .ok n ↔
      ∃ m : Nat, Amount value.toList m ∧ (m : Int) ≤ bigintMax ∧ n = m := by
    intro n
    constructor
    · intro h
      obtain ⟨m, hm⟩ := amount_of_majorToMinor h
      rw [majorToMinor_amount hm, Library.fetch_eq_ok, i64?_eq_some] at h
      exact ⟨m, hm, h.1.2, h.2.symm⟩
    · rintro ⟨m, hm, hmax, rfl⟩
      have hrange : -bigintMax - 1 ≤ (m : Int) := by
        unfold bigintMax
        omega
      rw [majorToMinor_amount hm, Library.fetch_eq_ok, i64?_eq_some]
      exact ⟨⟨hrange, hmax⟩, rfl⟩
  refine ⟨hok, ?_, ?_⟩
  · intro e
    constructor
    · intro h
      refine ⟨majorToMinor_error h, ?_⟩
      rintro ⟨m, hm, hmax⟩
      rw [(hok m).mpr ⟨m, hm, hmax, rfl⟩] at h
      cases h
    · rintro ⟨rfl, hnone⟩
      cases hresult : majorToMinor value with
      | ok n =>
        obtain ⟨m, hm, hmax, -⟩ := (hok n).mp hresult
        exact absurd ⟨m, hm, hmax⟩ hnone
      | error e => rw [majorToMinor_error hresult]
  · intro n hmax
    rw [majorText_eq]
    exact majorToMinor_twoPlaces (Int.natCast_nonneg n) hmax

end ShaponTravels.Wallet
