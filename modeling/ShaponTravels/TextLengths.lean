import ShaponTravels.Text

/-!
# TextLengths — how long a rendered id is
-/

namespace ShaponTravels

theorem length_hexDigits (w n : Nat) : (hexDigits w n).length = w := by
  induction w generalizing n with
  | zero => rfl
  | succ w ih =>
    show (hexDigits w (n / 16) ++ [_]).length = w + 1
    rw [List.length_append, ih]
    rfl

theorem Uuid.length_text (u : Uuid) : u.text.toList.length = 36 := by
  unfold Uuid.text
  rw [String.toList_ofList]
  simp only [List.length_append, List.length_cons, length_hexDigits]

end ShaponTravels
