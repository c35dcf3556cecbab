import Mathlib.Data.List.Basic
import Mathlib.Data.Set.Function

/-!
# Choices — an input made up of one word from each group

The words of an input are chosen group by group.  A greedy reader that goes on only where a single word
fits finds the one choice there is, and renaming the letters does not change what it chooses.
-/

namespace Library

variable {α β : Type}

/-- The input is a word of each group, one after the other, and a rest.  A member of a group may be no
word. -/
inductive Chosen : List (List (Option (List α))) → List α → List Nat → List α → Prop where
  | nil {rest : List α} : Chosen [] rest [] rest
  | cons {options : List (Option (List α))} {groups : List (List (Option (List α)))}
      {input rest word : List α} {i : Nat} {choice : List Nat} :
      options[i]? = some (some word) →
      Chosen groups input choice rest → Chosen (options :: groups) (word ++ input) (i :: choice) rest

/-- As `Chosen`, and at every group a single word fits. -/
inductive Forced : List (List (Option (List α))) → List α → List Nat → List α → Prop where
  | nil {rest : List α} : Forced [] rest [] rest
  | cons {options : List (Option (List α))} {groups : List (List (Option (List α)))}
      {input rest word : List α} {i : Nat} {choice : List Nat} :
      options[i]? = some (some word) →
      (∀ (j : Nat) (other : List α), options[j]? = some (some other) → other <+: word ++ input → j = i) →
      Forced groups input choice rest → Forced (options :: groups) (word ++ input) (i :: choice) rest

variable {groups : List (List (Option (List α)))} {input rest rest' : List α} {choice choice' : List Nat}

theorem Forced.chosen (h : Forced groups input choice rest) : Chosen groups input choice rest := by
  induction h with
  | nil => exact .nil
  | cons hword _ _ ih => exact .cons hword ih

/-- A forced choice is the only one. -/
theorem Forced.unique (h : Forced groups input choice rest) (h' : Chosen groups input choice' rest') :
    choice' = choice ∧ rest' = rest := by
  induction h generalizing choice' rest' with
  | nil =>
    cases h'
    exact ⟨rfl, rfl⟩
  | @cons options groups input rest word i choice hword honly _ ih =>
    generalize hwhole : word ++ input = whole at h'
    cases h' with
    | @cons _ _ input' _ word' j choice'' hword' htail =>
      obtain rfl : j = i := honly j word' hword' (hwhole ▸ List.prefix_append _ _)
      rw [hword, Option.some.injEq, Option.some.injEq] at hword'
      obtain rfl := hword'
      obtain rfl := List.append_cancel_left hwhole
      obtain ⟨rfl, rfl⟩ := ih htail
      exact ⟨rfl, rfl⟩

/-- A choice makes up one input. -/
theorem Chosen.input_unique {input' : List α} (h : Chosen groups input choice [])
    (h' : Chosen groups input' choice []) : input' = input := by
  generalize hend : ([] : List α) = rest at h
  induction h generalizing input' with
  | nil =>
    cases h'
    exact hend
  | @cons options groups input rest word i choice hword _ ih =>
    cases h' with
    | @cons _ _ input'' _ word' _ _ hword' htail =>
      rw [hword, Option.some.injEq, Option.some.injEq] at hword'
      rw [hword', ih htail hend]

/-- The letters of the words of the groups. -/
def Letters (groups : List (List (Option (List α)))) (a : α) : Prop :=
  ∃ options ∈ groups, ∃ word, some word ∈ options ∧ a ∈ word

theorem prefix_of_map {f : α → β} {S : Set α} (hf : S.InjOn f) {xs ys : List α}
    (hxs : ∀ a ∈ xs, a ∈ S) (hys : ∀ a ∈ ys, a ∈ S) (h : xs.map f <+: ys.map f) : xs <+: ys := by
  induction xs generalizing ys with
  | nil => exact List.nil_prefix
  | cons x xs ih =>
    cases ys with
    | nil => exact absurd (List.prefix_nil.mp h) (List.cons_ne_nil _ _)
    | cons y ys =>
      rw [List.forall_mem_cons] at hxs hys
      rw [List.map_cons, List.map_cons, List.cons_prefix_cons] at h
      rw [hf hxs.1 hys.1 h.1, List.cons_prefix_cons]
      exact ⟨rfl, ih hxs.2 hys.2 h.2⟩

/-- Renaming the letters one to one forces the same choice. -/
theorem Forced.map {f : α → β} {S : Set α} (hf : S.InjOn f) (hgroups : ∀ a, Letters groups a → a ∈ S)
    (hrest : ∀ a ∈ rest, a ∈ S) (h : Forced groups input choice rest) :
    (∀ a ∈ input, a ∈ S) ∧ Forced (groups.map fun options => options.map (Option.map (List.map f)))
      (input.map f) choice (rest.map f) := by
  induction h with
  | nil => exact ⟨hrest, .nil⟩
  | @cons options groups input rest word i choice hword honly _ ih =>
    have hletters : ∀ other, some other ∈ options → ∀ a ∈ other, a ∈ S :=
      fun other hother a ha => hgroups a ⟨options, List.mem_cons_self, other, hother, ha⟩
    have htail : ∀ a, Letters groups a → a ∈ S := by
      rintro a ⟨options', hoptions', other, hother, ha⟩
      exact hgroups a ⟨options', List.mem_cons_of_mem _ hoptions', other, hother, ha⟩
    obtain ⟨hinput, hforced⟩ := ih htail hrest
    have hwhole : ∀ a ∈ word ++ input, a ∈ S := by
      rw [List.forall_mem_append]
      exact ⟨hletters word (List.mem_of_getElem? hword), hinput⟩
    refine ⟨hwhole, ?_⟩
    rw [List.map_append]
    refine .cons ?_ ?_ hforced
    · rw [List.getElem?_map, hword]
      rfl
    · intro j other hj hfits
      rw [List.getElem?_map] at hj
      obtain ⟨member, hmember, hother⟩ := Option.map_eq_some_iff.mp hj
      obtain ⟨source, rfl, rfl⟩ := Option.map_eq_some_iff.mp hother
      rw [← List.map_append] at hfits
      exact honly j source hmember (prefix_of_map hf
        (hletters source (List.mem_of_getElem? hmember)) hwhole hfits)

end Library
