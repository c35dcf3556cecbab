import Mathlib.Tactic.Common
import ShaponTravels.Text

/-!
# Trimmed — texts that trimming leaves alone

`str::trim` leaves a text that neither starts nor ends with white space, and such a text keeps its ends
when the case of its ASCII letters is changed.
-/

namespace ShaponTravels

/-- Neither end of the text is white space. -/
def Trimmed (s : String) : Prop :=
  (∀ c ∈ s.toList.head?, isWhitespace c = false) ∧ ∀ c ∈ s.toList.getLast?, isWhitespace c = false

/-! ## Trimming -/

theorem head?_dropWhile (cs : List Char) :
    ∀ c ∈ (cs.dropWhile isWhitespace).head?, isWhitespace c = false := by
  induction cs with
  | nil => exact fun c hc => by cases hc
  | cons d cs ih =>
    rw [List.dropWhile_cons]
    by_cases hd : isWhitespace d = true
    · rwa [if_pos hd]
    · rw [if_neg hd]
      intro c hc
      cases hc
      exact Bool.not_eq_true _ ▸ hd

theorem dropWhile_of_head? {cs : List Char} (h : ∀ c ∈ cs.head?, isWhitespace c = false) :
    cs.dropWhile isWhitespace = cs := by
  cases cs with
  | nil => rfl
  | cons c cs =>
    rw [List.dropWhile_cons, if_neg]
    rw [h c rfl]
    decide

theorem trimmed_trim (s : String) : Trimmed (trim s) := by
  have hlast := head?_dropWhile (s.toList.dropWhile isWhitespace).reverse
  have hhead := head?_dropWhile s.toList
  rw [Trimmed, trim, String.toList_ofList]
  constructor
  · intro c hc
    rw [List.head?_reverse] at hc
    have hne : ((s.toList.dropWhile isWhitespace).reverse.dropWhile isWhitespace) ≠ [] := by
      intro hnil
      rw [hnil] at hc
      cases hc
    -- What is cut from the end leaves the first character in place.
    obtain ⟨cut, hcut⟩ := List.dropWhile_suffix isWhitespace (l := (s.toList.dropWhile isWhitespace).reverse)
    apply hhead
    rw [← List.reverse_reverse (s.toList.dropWhile isWhitespace), List.head?_reverse, ← hcut,
      List.getLast?_append]
    rw [Option.mem_def] at hc ⊢
    rw [hc]
    rfl
  · intro c hc
    rw [List.getLast?_reverse] at hc
    exact hlast c hc

theorem trim_of_trimmed {s : String} (h : Trimmed s) : trim s = s := by
  have hlast : ∀ c ∈ s.toList.reverse.head?, isWhitespace c = false := by
    rw [List.head?_reverse]
    exact h.2
  rw [trim, dropWhile_of_head? h.1, dropWhile_of_head? hlast, List.reverse_reverse, String.ofList_toList]

theorem trim_trim (s : String) : trim (trim s) = trim s := trim_of_trimmed (trimmed_trim s)

/-! ## Changing the case -/

/-- What holds of the code points of a range holds of its characters. -/
theorem forall_range {P : Char → Prop} (low : Nat) (h : ∀ n ∈ List.range' low 26, P (Char.ofNat n))
    {c : Char} (hc : low ≤ c.val.toNat ∧ c.val.toNat ≤ low + 25) : P c := by
  have hmem : c.toNat ∈ List.range' low 26 := by
    rw [List.mem_range'_1]
    show low ≤ c.val.toNat ∧ c.val.toNat < low + 26
    omega
  have hP := h c.toNat hmem
  rwa [Char.ofNat_toNat] at hP

/-- A fact about changing a letter to upper case, checked letter by letter; nothing else is changed. -/
theorem toUpper_cases {P : Char → Char → Prop} (hsame : ∀ c, P c c)
    (h : ∀ n ∈ List.range' 97 26, P (Char.ofNat n) (Char.ofNat n).toUpper) (c : Char) : P c c.toUpper := by
  by_cases hc : 'a'.val ≤ c.val ∧ c.val ≤ 'z'.val
  · exact forall_range (P := fun c => P c c.toUpper) 97 h
      ⟨UInt32.le_iff_toNat_le.mp hc.1, UInt32.le_iff_toNat_le.mp hc.2⟩
  · have hkept : c.toUpper = c := dif_neg hc
    rw [hkept]
    exact hsame c

theorem toLower_cases {P : Char → Char → Prop} (hsame : ∀ c, P c c)
    (h : ∀ n ∈ List.range' 65 26, P (Char.ofNat n) (Char.ofNat n).toLower) (c : Char) : P c c.toLower := by
  by_cases hc : c.val ≥ 'A'.val ∧ c.val ≤ 'Z'.val
  · exact forall_range (P := fun c => P c c.toLower) 65 h
      ⟨UInt32.le_iff_toNat_le.mp hc.1, UInt32.le_iff_toNat_le.mp hc.2⟩
  · have hkept : c.toLower = c := dif_neg hc
    rw [hkept]
    exact hsame c

theorem isWhitespace_toUpper (c : Char) : isWhitespace c.toUpper = isWhitespace c :=
  toUpper_cases (P := fun c d => isWhitespace d = isWhitespace c) (fun _ => rfl) (by decide) c

theorem isWhitespace_toLower (c : Char) : isWhitespace c.toLower = isWhitespace c :=
  toLower_cases (P := fun c d => isWhitespace d = isWhitespace c) (fun _ => rfl) (by decide) c

theorem Trimmed.map {s : String} (h : Trimmed s) {f : Char → Char}
    (hf : ∀ c, isWhitespace (f c) = isWhitespace c) : Trimmed (String.ofList (s.toList.map f)) := by
  rw [Trimmed, String.toList_ofList, List.head?_map, List.getLast?_map]
  constructor
  · intro c hc
    obtain ⟨d, hd, rfl⟩ := Option.map_eq_some_iff.mp hc
    rw [hf, h.1 d hd]
  · intro c hc
    obtain ⟨d, hd, rfl⟩ := Option.map_eq_some_iff.mp hc
    rw [hf, h.2 d hd]

theorem Trimmed.toAsciiUppercase {s : String} (h : Trimmed s) : Trimmed (toAsciiUppercase s) :=
  h.map isWhitespace_toUpper

theorem Trimmed.toAsciiLowercase {s : String} (h : Trimmed s) : Trimmed (toAsciiLowercase s) :=
  h.map isWhitespace_toLower

theorem toAsciiUppercase_idem (s : String) : toAsciiUppercase (toAsciiUppercase s) = toAsciiUppercase s := by
  have hchar : ∀ c : Char, c.toUpper.toUpper = c.toUpper := fun c =>
    toUpper_cases (P := fun c d => d.toUpper = c.toUpper) (fun _ => rfl) (by decide) c
  rw [toAsciiUppercase, toAsciiUppercase, String.toList_ofList, List.map_map]
  congr 1
  exact List.map_congr_left fun c _ => hchar c

theorem toAsciiLowercase_idem (s : String) : toAsciiLowercase (toAsciiLowercase s) = toAsciiLowercase s := by
  have hchar : ∀ c : Char, c.toLower.toLower = c.toLower := fun c =>
    toLower_cases (P := fun c d => d.toLower = c.toLower) (fun _ => rfl) (by decide) c
  rw [toAsciiLowercase, toAsciiLowercase, String.toList_ofList, List.map_map]
  congr 1
  exact List.map_congr_left fun c _ => hchar c

end ShaponTravels
