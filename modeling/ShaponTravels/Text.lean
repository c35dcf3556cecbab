import Mathlib.Tactic.Common
import Mathlib.Algebra.Group.Nat.Defs

/-!
# Text — characters, trimming and identifier text

The character classes and the text of an identifier as the standard library and the `uuid`
crate give them.
-/

namespace ShaponTravels

/-! ## Characters -/

/-- `char::is_control`: the code points of general category Cc. -/
def isControl (c : Char) : Bool :=
  c.toNat < 0x20 || (0x7f ≤ c.toNat && c.toNat < 0xa0)

/-- `char::is_whitespace`: the code points with the property White_Space. -/
def isWhitespace (c : Char) : Bool :=
  (0x09 ≤ c.toNat && c.toNat ≤ 0x0d) || c.toNat == 0x20 || c.toNat == 0x85 || c.toNat == 0xa0 ||
    c.toNat == 0x1680 || (0x2000 ≤ c.toNat && c.toNat ≤ 0x200a) || c.toNat == 0x2028 ||
    c.toNat == 0x2029 || c.toNat == 0x202f || c.toNat == 0x205f || c.toNat == 0x3000

/-- `str::trim`. -/
def trim (s : String) : String :=
  String.ofList ((s.toList.dropWhile isWhitespace).reverse.dropWhile isWhitespace).reverse

/-- `char::is_ascii_digit`. -/
def isAsciiDigit (c : Char) : Bool := '0' ≤ c && c ≤ '9'

/-- `str::to_ascii_uppercase`. -/
def toAsciiUppercase (s : String) : String := String.ofList (s.toList.map Char.toUpper)

/-- `str::to_ascii_lowercase`. -/
def toAsciiLowercase (s : String) : String := String.ofList (s.toList.map Char.toLower)

/-- `u8::is_ascii_graphic` of a character of the text. -/
def isAsciiGraphic (c : Char) : Bool := '!' ≤ c && c ≤ '~'

/-- `str::starts_with`. -/
def startsWith (s start : String) : Bool := start.toList.isPrefixOf s.toList

/-- `str::contains` with a text. -/
def containsText (s part : String) : Bool := s.toList.tails.any part.toList.isPrefixOf

/-- `str::parse::<u64>`: an optional plus sign and at least one digit, in range. -/
def parseU64 (s : String) : Option Nat :=
  let digits := match s.toList with
    | '+' :: digits => digits
    | digits => digits
  if digits ≠ [] ∧ digits.all isAsciiDigit ∧ Nat.ofDigitChars 10 digits 0 < 2 ^ 64 then
    some (Nat.ofDigitChars 10 digits 0)
  else none

theorem parseU64_lt {s : String} {n : Nat} (h : parseU64 s = some n) : n < 2 ^ 64 := by
  simp only [parseU64, Option.ite_none_right_eq_some] at h
  obtain ⟨⟨-, -, hlt⟩, hn⟩ := h
  cases hn
  exact hlt

theorem isAsciiDigit_of_isDigit {c : Char} (h : c.isDigit) : isAsciiDigit c := by
  simp only [Char.isDigit, Bool.and_eq_true, decide_eq_true_eq] at h
  simp only [isAsciiDigit, Bool.and_eq_true, decide_eq_true_eq]
  exact h

theorem isAsciiDigit_toDigits {n : Nat} {c : Char} (h : c ∈ Nat.toDigits 10 n) : isAsciiDigit c :=
  isAsciiDigit_of_isDigit (Nat.isDigit_of_mem_toDigits (by decide) (by decide) h)

/-- A number of 64 bits reads back from its digits. -/
theorem parseU64_repr {n : Nat} (h : n < 2 ^ 64) : parseU64 (toString (n : Int)) = some n := by
  have htext : (toString (n : Int)).toList = Nat.toDigits 10 n := by
    show (Nat.repr n).toList = _
    rw [Nat.repr, String.toList_ofList]
  have hdigits : ∀ c ∈ Nat.toDigits 10 n, isAsciiDigit c := fun c hc => isAsciiDigit_toDigits hc
  have hplus : (match Nat.toDigits 10 n with
      | '+' :: digits => digits
      | digits => digits) = Nat.toDigits 10 n := by
    split
    · rename_i hcons
      rw [hcons] at hdigits
      exact absurd (hdigits '+' List.mem_cons_self) (by decide)
    · rfl
  simp only [parseU64, htext]
  rw [hplus, Nat.ofDigitChars_ten_toDigits,
    if_pos ⟨Nat.toDigits_ne_nil, List.all_eq_true.mpr hdigits, h⟩]

/-! ## Identifiers -/

abbrev Uuid := BitVec 128

instance : LawfulBEq Uuid := instLawfulBEq

/-- The last `w` hexadecimal digits of `n`, most significant first. -/
def hexDigits : Nat → Nat → List Char
  | 0, _ => []
  | w + 1, n => hexDigits w (n / 16) ++ [Nat.digitChar (n % 16)]

/-- The hyphenated lower-case text of an identifier. -/
def Uuid.text (u : Uuid) : String :=
  String.ofList (hexDigits 8 (u.toNat / 16 ^ 24) ++ '-' :: hexDigits 4 (u.toNat / 16 ^ 20) ++
    '-' :: hexDigits 4 (u.toNat / 16 ^ 16) ++ '-' :: hexDigits 4 (u.toNat / 16 ^ 12) ++
    '-' :: hexDigits 12 u.toNat)

theorem digitChar_inj {a b : Nat} (ha : a < 16) (hb : b < 16)
    (h : Nat.digitChar a = Nat.digitChar b) : a = b := by
  have hall : ∀ a < 16, ∀ b < 16, Nat.digitChar a = Nat.digitChar b → a = b := by decide
  exact hall a ha b hb h

theorem digitChar_ne_hyphen {a : Nat} (ha : a < 16) : Nat.digitChar a ≠ '-' := by
  have hall : ∀ a < 16, Nat.digitChar a ≠ '-' := by decide
  exact hall a ha

theorem hexDigits_add (a b n : Nat) :
    hexDigits (a + b) n = hexDigits a (n / 16 ^ b) ++ hexDigits b n := by
  induction b generalizing n with
  | zero => simp [hexDigits]
  | succ b ih =>
    have hdiv : n / 16 / 16 ^ b = n / 16 ^ (b + 1) := by
      rw [Nat.div_div_eq_div_mul, Nat.pow_succ, Nat.mul_comm]
    rw [show a + (b + 1) = (a + b) + 1 from rfl]
    simp only [hexDigits, ih, hdiv, List.append_assoc]

theorem hexDigits_inj (w : Nat) {m n : Nat} (hm : m < 16 ^ w) (hn : n < 16 ^ w)
    (h : hexDigits w m = hexDigits w n) : m = n := by
  induction w generalizing m n with
  | zero => simp at hm hn; omega
  | succ w ih =>
    simp only [hexDigits] at h
    obtain ⟨hinit, hlast⟩ := List.append_inj' h rfl
    have hdigit : m % 16 = n % 16 :=
      digitChar_inj (Nat.mod_lt _ (by decide)) (Nat.mod_lt _ (by decide)) (by simpa using hlast)
    have hquot : m / 16 = n / 16 := by
      apply ih _ _ hinit
      · rw [Nat.pow_succ] at hm; omega
      · rw [Nat.pow_succ] at hn; omega
    omega

theorem hyphen_not_mem_hexDigits (w n : Nat) : '-' ∉ hexDigits w n := by
  induction w generalizing n with
  | zero => simp [hexDigits]
  | succ w ih =>
    simp only [hexDigits, List.mem_append, List.mem_singleton, not_or]
    exact ⟨ih _, fun h => digitChar_ne_hyphen (Nat.mod_lt _ (by decide)) h.symm⟩

theorem filter_hexDigits (w n : Nat) :
    (hexDigits w n).filter (fun c => c ≠ '-') = hexDigits w n := by
  rw [List.filter_eq_self]
  intro c hc
  have hne : c ≠ '-' := fun h => hyphen_not_mem_hexDigits w n (h ▸ hc)
  simpa using hne

/-- Without its hyphens the text of an identifier is its thirty-two digits. -/
theorem Uuid.filter_text (u : Uuid) :
    u.text.toList.filter (fun c => c ≠ '-') = hexDigits 32 u.toNat := by
  have h8 : hexDigits 32 u.toNat = hexDigits 8 (u.toNat / 16 ^ 24) ++ hexDigits 24 u.toNat :=
    hexDigits_add 8 24 _
  have h12 : hexDigits 24 u.toNat = hexDigits 4 (u.toNat / 16 ^ 20) ++ hexDigits 20 u.toNat :=
    hexDigits_add 4 20 _
  have h16 : hexDigits 20 u.toNat = hexDigits 4 (u.toNat / 16 ^ 16) ++ hexDigits 16 u.toNat :=
    hexDigits_add 4 16 _
  have h20 : hexDigits 16 u.toNat = hexDigits 4 (u.toNat / 16 ^ 12) ++ hexDigits 12 u.toNat :=
    hexDigits_add 4 12 _
  have hhyphen : ∀ cs : List Char, ('-' :: cs).filter (fun c => c ≠ '-') =
      cs.filter (fun c => c ≠ '-') := by
    intro cs
    simp
  rw [h8, h12, h16, h20, Uuid.text, String.toList_ofList]
  simp only [List.filter_append, hhyphen, List.append_assoc, filter_hexDigits]

theorem Uuid.text_inj {u v : Uuid} (h : u.text = v.text) : u = v := by
  have hdigits : hexDigits 32 u.toNat = hexDigits 32 v.toNat := by
    rw [← Uuid.filter_text, ← Uuid.filter_text, h]
  have hbound : ∀ w : Uuid, w.toNat < 16 ^ 32 := fun w => w.isLt
  exact BitVec.eq_of_toNat_eq (hexDigits_inj 32 (hbound u) (hbound v) hdigits)

end ShaponTravels
