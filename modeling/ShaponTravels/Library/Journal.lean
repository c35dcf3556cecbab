import Mathlib.Tactic.Common
import Mathlib.Algebra.Ring.Int.Defs
import Mathlib.Data.List.Chain

/-!
# Journal — entries that carry the state before and after them

Each entry of a journal says from which state to which state it leads.  `Journal` says that the
entries fit together; replaying the effect of each entry then gives the last state.
-/

namespace Library

variable {σ ε : Type}

/-- `Journal before after s es s'`: the entries `es`, oldest first, lead from `s` to `s'`, each
starting in the state the one before it ended in. -/
inductive Journal (before after : ε → σ) : σ → List ε → σ → Prop where
  | nil (s : σ) : Journal before after s [] s
  | snoc {s s' : σ} {es : List ε} {e : ε} :
      Journal before after s es s' → before e = s' → Journal before after s (es ++ [e]) (after e)

namespace Journal

variable {before after : ε → σ} {s s' : σ} {es : List ε}

theorem after_of_last (h : Journal before after s es s') {e : ε} (hlast : e ∈ es.getLast?) :
    after e = s' := by
  cases h with
  | nil => cases hlast
  | snoc _ _ =>
    rw [List.getLast?_concat, Option.mem_some_iff] at hlast
    rw [hlast]

/-- Consecutive entries chain. -/
theorem isChain (h : Journal before after s es s') :
    es.IsChain (fun e e' => before e' = after e) := by
  induction h with
  | nil => exact List.IsChain.nil
  | @snoc _ es e hj hb ih =>
    rw [List.isChain_append]
    refine ⟨ih, List.IsChain.singleton _, ?_⟩
    intro x hx y hy
    have hy' : e = y := by simpa using hy
    rw [← hy', hb, hj.after_of_last hx]

/-- The last state is the fold of what the entries do. -/
theorem foldl_eq (h : Journal before after s es s') {apply : σ → ε → σ}
    (happly : ∀ e ∈ es, after e = apply (before e) e) : s' = es.foldl apply s := by
  induction h with
  | nil => rfl
  | snoc _ hb ih =>
    have hinit := ih (fun e he => happly e (List.mem_append_left _ he))
    rw [List.foldl_append, ← hinit, ← hb]
    exact happly _ (List.mem_append_right _ (List.mem_singleton_self _))

/-- A journal leads to one state. -/
theorem unique {s'' : σ} (h : Journal before after s es s') (h' : Journal before after s es s'') :
    s' = s'' := by
  cases h with
  | nil =>
    generalize hes : ([] : List ε) = es at h'
    cases h' with
    | nil => rfl
    | snoc _ _ => exact absurd hes.symm (List.append_ne_nil_of_right_ne_nil _ (List.cons_ne_nil _ _))
  | snoc _ _ => exact h'.after_of_last (List.getLast?_concat)

/-- A journal splits where its list does. -/
theorem split {es' : List ε} (h : Journal before after s (es ++ es') s') :
    ∃ m, Journal before after s es m ∧ Journal before after m es' s' := by
  generalize hall : es ++ es' = all at h
  induction h generalizing es' with
  | nil =>
    rw [List.append_eq_nil_iff] at hall
    rw [hall.1, hall.2]
    exact ⟨_, .nil _, .nil _⟩
  | @snoc s' all e hj hb ih =>
    rcases List.eq_nil_or_concat es' with rfl | ⟨init, last, rfl⟩
    · rw [List.append_nil] at hall
      rw [hall]
      exact ⟨_, hj.snoc hb, .nil _⟩
    · rw [List.concat_eq_append, ← List.append_assoc] at hall
      obtain ⟨hinit, hlast⟩ := List.append_inj' hall rfl
      obtain ⟨m, hes, hrest⟩ := ih hinit
      rw [List.concat_eq_append, List.singleton_inj.mp hlast]
      exact ⟨m, hes, hrest.snoc hb⟩

/-- What the entries of a journal change adds up to the difference of its ends. -/
theorem telescope (h : Journal before after s es s') (φ : σ → Int) :
    φ s + (es.map fun e => φ (after e) - φ (before e)).sum = φ s' := by
  induction h with
  | nil => simp
  | snoc _ hb ih =>
    rw [List.map_append, List.sum_append, ← Int.add_assoc, ih, List.map_singleton, List.sum_singleton, hb]
    omega

end Journal

end Library
