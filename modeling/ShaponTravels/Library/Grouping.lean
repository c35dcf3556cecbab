import Mathlib.Tactic.Ring
import ShaponTravels.Library.Table

/-!
# Grouping — sums over the members of groups

Members belong to groups by a key.  What the groups of the members weigh adds up to the weights of the
groups, each as often as it has members.
-/

namespace Library

variable {α β κ : Type} [DecidableEq κ]

/-- Summing over the members what their groups weigh is summing over the groups, each as often as it has
members. -/
theorem sum_by_key (key : α → κ) (group : β → κ) (weight : β → Int) (members : List α) (groups : List β) :
    (members.map fun a => (groups.map fun b => if group b = key a then weight b else 0).sum).sum =
      (groups.map fun b => (members.countP fun a => group b = key a : Int) * weight b).sum := by
  induction members with
  | nil =>
    rw [List.map_nil, List.sum_nil]
    refine (List.sum_eq_zero fun n hn => ?_).symm
    obtain ⟨b, -, rfl⟩ := List.mem_map.mp hn
    simp
  | cons a members ih =>
    rw [List.map_cons, List.sum_cons, ih, ← List.sum_map_add]
    congr 1
    refine List.map_congr_left fun b _ => ?_
    rw [List.countP_cons]
    by_cases h : group b = key a
    · have hp : decide (group b = key a) = true := decide_eq_true h
      rw [if_pos h, if_pos hp]
      push_cast
      ring
    · have hp : ¬ decide (group b = key a) = true := fun hd => h (of_decide_eq_true hd)
      rw [if_neg h, if_neg hp, Int.zero_add, Nat.add_zero]

/-- A group weighs what the one row with its key does. -/
theorem KeyUnique.sum_key {group : β → κ} {groups : List β} (hu : KeyUnique group groups) {b : β}
    (hb : b ∈ groups) (weight : β → Int) :
    (groups.map fun c => if group c = group b then weight c else 0).sum = weight b := by
  induction groups with
  | nil => cases hb
  | cons c groups ih =>
    obtain ⟨hc, hu⟩ := keyUnique_cons.mp hu
    rw [List.map_cons, List.sum_cons]
    rcases List.mem_cons.mp hb with rfl | hmem
    · have hrest : ∀ n ∈ groups.map (fun c => if group c = group b then weight c else 0), n = 0 := by
        intro n hn
        obtain ⟨c, hmem, rfl⟩ := List.mem_map.mp hn
        exact if_neg (hc c hmem)
      rw [if_pos rfl, List.sum_eq_zero hrest, Int.add_zero]
    · rw [if_neg fun h => hc b hmem h.symm, Int.zero_add, ih hu hmem]

end Library
