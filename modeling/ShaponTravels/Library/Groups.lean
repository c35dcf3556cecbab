import Mathlib.Data.List.Sort
import Mathlib.Tactic.Common
import ShaponTravels.Library.Grouping

/-!
# Groups — ordered maps from keys to their members, and ordered sets

A pair enters the group of its key behind the members that are there.  What the groups are in the end does
not depend on the order of the pairs, the order of their members does.
-/

namespace Library

variable {κ α : Type} [LinearOrder κ]

/-! ## Ordered sets -/

/-- Insert an element in order, once. -/
def insertOnce (k : κ) : List κ → List κ
  | [] => [k]
  | k' :: ks => if k = k' then k' :: ks else if k < k' then k :: k' :: ks else k' :: insertOnce k ks

theorem mem_insertOnce {k x : κ} {ks : List κ} : x ∈ insertOnce k ks ↔ x = k ∨ x ∈ ks := by
  induction ks with
  | nil => simp [insertOnce]
  | cons k' ks ih =>
    rw [insertOnce]
    split
    · rename_i heq
      simp [heq]
    · split
      · simp
      · rw [List.mem_cons, ih, List.mem_cons]
        exact or_left_comm

theorem ascending_insertOnce {k : κ} {ks : List κ} (h : ks.Pairwise (· < ·)) :
    (insertOnce k ks).Pairwise (· < ·) := by
  induction ks with
  | nil => exact List.pairwise_singleton _ _
  | cons k' ks ih =>
    obtain ⟨hhead, htail⟩ := List.pairwise_cons.mp h
    rw [insertOnce]
    split
    · exact h
    · rename_i hne
      split
      · rename_i hlt
        refine List.pairwise_cons.mpr ⟨?_, h⟩
        intro x hx
        rcases List.mem_cons.mp hx with rfl | hx
        · exact hlt
        · exact lt_trans hlt (hhead x hx)
      · rename_i hnot
        refine List.pairwise_cons.mpr ⟨?_, ih htail⟩
        intro x hx
        rcases mem_insertOnce.mp hx with rfl | hx
        · exact lt_of_le_of_ne (not_lt.mp hnot) (Ne.symm hne)
        · exact hhead x hx

/-- An ascending list is determined by its members. -/
theorem ascending_ext {ks ks' : List κ} (h : ks.Pairwise (· < ·)) (h' : ks'.Pairwise (· < ·))
    (hmem : ∀ k, k ∈ ks ↔ k ∈ ks') : ks = ks' := by
  have hperm : ks.Perm ks' :=
    (List.perm_ext_iff_of_nodup (h.imp ne_of_lt) (h'.imp ne_of_lt)).mpr hmem
  refine hperm.eq_of_pairwise ?_ (h.imp le_of_lt) (h'.imp le_of_lt)
  exact fun k k' _ _ hle hge => le_antisymm hle hge

/-! ## Groups -/

/-- Enter an element into the group of its key. -/
def enter (k : κ) (x : α) : List (κ × List α) → List (κ × List α)
  | [] => [(k, [x])]
  | g :: groups =>
    if k = g.1 then (g.1, g.2 ++ [x]) :: groups
    else if k < g.1 then (k, [x]) :: g :: groups
    else g :: enter k x groups

/-- The groups of a list of pairs: one for each key, in order, with its members as they come. -/
structure Grouped (pairs : List (κ × α)) (groups : List (κ × List α)) : Prop where
  ascending : (groups.map Prod.fst).Pairwise (· < ·)
  keys : ∀ k, k ∈ groups.map Prod.fst ↔ k ∈ pairs.map Prod.fst
  members : ∀ g ∈ groups, g.2 = (pairs.filter fun p => p.1 = g.1).map Prod.snd

theorem keys_enter (k : κ) (x : α) (groups : List (κ × List α)) :
    (enter k x groups).map Prod.fst = insertOnce k (groups.map Prod.fst) := by
  induction groups with
  | nil => rfl
  | cons g groups ih =>
    rw [enter, List.map_cons, insertOnce]
    split
    · rfl
    · split
      · rfl
      · rw [List.map_cons, ih]

/-- A group after an element has entered: another one as it was, or the one it entered. -/
theorem mem_enter {k : κ} {x : α} {groups : List (κ × List α)} (h : (groups.map Prod.fst).Pairwise (· < ·))
    {g : κ × List α} (hg : g ∈ enter k x groups) :
    (g.1 ≠ k ∧ g ∈ groups) ∨ (∃ xs, (k, xs) ∈ groups ∧ g = (k, xs ++ [x])) ∨
      (k ∉ groups.map Prod.fst ∧ g = (k, [x])) := by
  induction groups with
  | nil => exact .inr (.inr ⟨by simp, List.mem_singleton.mp hg⟩)
  | cons g' groups ih =>
    rw [List.map_cons, List.pairwise_cons] at h
    rw [enter] at hg
    split at hg
    · rename_i heq
      rcases List.mem_cons.mp hg with rfl | hg
      · exact .inr (.inl ⟨g'.2, by rw [heq]; exact List.mem_cons_self, by rw [heq]⟩)
      · exact .inl ⟨heq ▸ ne_of_gt (h.1 g.1 (List.mem_map_of_mem hg)), List.mem_cons_of_mem _ hg⟩
    · rename_i hne
      split at hg
      · rename_i hlt
        have hnew : k ∉ (g' :: groups).map Prod.fst := by
          intro hk
          rcases List.mem_cons.mp hk with hk | hk
          · exact hne hk
          · exact lt_asymm hlt (h.1 k hk)
        rcases List.mem_cons.mp hg with rfl | hg
        · exact .inr (.inr ⟨hnew, rfl⟩)
        · exact .inl ⟨fun heq => hnew (heq ▸ List.mem_map_of_mem hg), hg⟩
      · rcases List.mem_cons.mp hg with rfl | hg
        · exact .inl ⟨Ne.symm hne, List.mem_cons_self⟩
        · rcases ih h.2 hg with ⟨hother, hmem⟩ | ⟨xs, hmem, rfl⟩ | ⟨hnew, rfl⟩
          · exact .inl ⟨hother, List.mem_cons_of_mem _ hmem⟩
          · exact .inr (.inl ⟨xs, List.mem_cons_of_mem _ hmem, rfl⟩)
          · exact .inr (.inr ⟨by simp only [List.map_cons, List.mem_cons, not_or]; exact ⟨hne, hnew⟩, rfl⟩)

namespace Grouped

variable {pairs pairs' : List (κ × α)} {groups groups' : List (κ × List α)}

theorem nil : Grouped ([] : List (κ × α)) [] :=
  ⟨.nil, fun _ => Iff.rfl, fun _ h => absurd h List.not_mem_nil⟩

/-- The step: one more pair enters its group. -/
theorem enter (h : Grouped pairs groups) (k : κ) (x : α) : Grouped (pairs ++ [(k, x)]) (enter k x groups) := by
  refine ⟨?_, ?_, ?_⟩
  · rw [keys_enter]
    exact ascending_insertOnce h.ascending
  · intro k'
    rw [keys_enter, mem_insertOnce, h.keys, List.map_append, List.mem_append, List.map_singleton, List.mem_singleton]
    exact or_comm
  · intro g hg
    rw [List.filter_append, List.map_append]
    rcases mem_enter h.ascending hg with ⟨hne, hmem⟩ | ⟨xs, hmem, rfl⟩ | ⟨hnew, rfl⟩
    · rw [h.members g hmem, List.filter_cons_of_neg (by simpa using Ne.symm hne), List.filter_nil, List.map_nil,
        List.append_nil]
    · have hxs := h.members _ hmem
      dsimp only at hxs ⊢
      rw [hxs]
      simp
    · have hnone : pairs.filter (fun p => p.1 = k) = [] := by
        rw [List.filter_eq_nil_iff]
        intro p hp hpk
        exact hnew ((h.keys k).mpr (of_decide_eq_true hpk ▸ List.mem_map_of_mem hp))
      dsimp only
      rw [hnone]
      simp

/-- The members of the groups are as many as the pairs. -/
theorem sum_length (h : Grouped pairs groups) : (groups.map fun g => (g.2.length : Int)).sum = pairs.length := by
  have hunique : KeyUnique Prod.fst groups := h.ascending.imp ne_of_lt
  have hgroups : (groups.map fun g => (g.2.length : Int)) =
      groups.map fun g => (pairs.countP fun p => g.1 = p.1 : Int) * 1 := by
    apply List.map_congr_left
    intro g hg
    rw [h.members g hg, List.length_map, mul_one, List.countP_eq_length_filter]
    congr 2
    exact List.filter_congr fun p _ => by simp [eq_comm]
  have hone : (pairs.map fun p => (groups.map fun g => if g.1 = p.1 then (1 : Int) else 0).sum) =
      pairs.map fun _ => (1 : Int) := by
    apply List.map_congr_left
    intro p hp
    obtain ⟨g, hg, hkey⟩ := List.mem_map.mp ((h.keys p.1).mpr (List.mem_map_of_mem hp))
    rw [← hkey]
    exact hunique.sum_key hg fun _ => 1
  rw [hgroups, ← sum_by_key Prod.fst Prod.fst (fun _ => 1) pairs groups, hone]
  simp

/-- The groups of the same pairs in another order: the same keys, with the same members. -/
theorem perm (h : Grouped pairs groups) (h' : Grouped pairs' groups') (hperm : pairs.Perm pairs') :
    List.Forall₂ (fun g g' => g.1 = g'.1 ∧ g.2.Perm g'.2) groups groups' := by
  have hkeys : groups.map Prod.fst = groups'.map Prod.fst := by
    refine ascending_ext h.ascending h'.ascending fun k => ?_
    rw [h.keys, h'.keys]
    exact (hperm.map _).mem_iff
  have hmembers : ∀ g ∈ groups, ∀ g' ∈ groups', g.1 = g'.1 → g.2.Perm g'.2 := by
    intro g hg g' hg' heq
    rw [h.members g hg, h'.members g' hg', heq]
    exact (hperm.filter _).map _
  have hlength : groups.length = groups'.length := by
    simpa using congrArg List.length hkeys
  refine List.forall₂_iff_get.mpr ⟨hlength, ?_⟩
  intro i hi hi'
  have hkey : (groups.get ⟨i, hi⟩).1 = (groups'.get ⟨i, hi'⟩).1 := by
    have hget := congrArg (fun ks : List κ => ks[i]?) hkeys
    simpa [List.getElem?_eq_getElem hi, List.getElem?_eq_getElem hi'] using hget
  exact ⟨hkey, hmembers _ (List.get_mem _ _) _ (List.get_mem _ _) hkey⟩

end Grouped

end Library
