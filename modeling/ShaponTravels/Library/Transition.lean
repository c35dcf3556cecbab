import Mathlib.Tactic.Common
import Mathlib.Algebra.BigOperators.Group.List.Basic
import Mathlib.Algebra.Order.Group.Int
import Mathlib.Algebra.Ring.Int.Defs
import Mathlib.Data.List.Induction

/-!
# Transition — labelled transition systems, runs and invariants

A `Machine` is a set of initial states and a labelled step relation.  A `Run` records every
transition it takes, so a property can speak about one state, about two states of one run, or
about the sum of what the transitions of a run contributed.
-/

namespace Library

/-- A labelled transition system. -/
structure Machine (σ ι : Type) where
  init : σ → Prop
  step : σ → ι → σ → Prop

/-- One transition of a run. -/
structure Transition (σ ι : Type) where
  before : σ
  label : ι
  after : σ

namespace Machine

variable {σ ι : Type}

/-- `Run M s t s'`: the transitions `t`, oldest first, lead from `s` to `s'`. -/
inductive Run (M : Machine σ ι) : σ → List (Transition σ ι) → σ → Prop where
  | nil (s : σ) : Run M s [] s
  | snoc {s s' s'' : σ} {t : List (Transition σ ι)} {i : ι} :
      Run M s t s' → M.step s' i s'' → Run M s (t ++ [⟨s', i, s''⟩]) s''

/-- A state some run from an initial state ends in. -/
def Reachable (M : Machine σ ι) (s : σ) : Prop := ∃ s₀ t, M.init s₀ ∧ M.Run s₀ t s

variable {M : Machine σ ι}

theorem Reachable.of_init {s : σ} (h : M.init s) : M.Reachable s := ⟨s, [], h, .nil s⟩

theorem Reachable.step {s s' : σ} {i : ι} (h : M.Reachable s) (hs : M.step s i s') :
    M.Reachable s' := by
  obtain ⟨s₀, t, h₀, hr⟩ := h
  exact ⟨s₀, _, h₀, hr.snoc hs⟩

theorem Reachable.run {s s' : σ} {t : List (Transition σ ι)} (h : M.Reachable s)
    (hr : M.Run s t s') : M.Reachable s' := by
  induction hr with
  | nil => exact h
  | snoc _ hs ih => exact ih.step hs

/-- The invariant rule: what holds initially and is kept by every step holds always. -/
theorem Reachable.invariant {I : σ → Prop} (hinit : ∀ s, M.init s → I s)
    (hstep : ∀ s i s', I s → M.step s i s' → I s') {s : σ} (h : M.Reachable s) : I s := by
  obtain ⟨s₀, t, h₀, hr⟩ := h
  have hI : I s₀ := hinit s₀ h₀
  clear h₀
  induction hr with
  | nil => exact hI
  | snoc _ hs ih => exact hstep _ _ _ ih hs

theorem Run.invariant {I : σ → Prop} (hstep : ∀ s i s', I s → M.step s i s' → I s')
    {s s' : σ} {t : List (Transition σ ι)} (hr : M.Run s t s') (hI : I s) : I s' := by
  induction hr with
  | nil => exact hI
  | snoc _ hs ih => exact hstep _ _ _ ih hs

/-- Every transition of a run is a step from a state an earlier part of the run leads to. -/
theorem Run.mem {s s' : σ} {t : List (Transition σ ι)} (hr : M.Run s t s') {r : Transition σ ι}
    (h : r ∈ t) : (∃ t', M.Run s t' r.before) ∧ M.step r.before r.label r.after := by
  induction hr with
  | nil => cases h
  | snoc hr hs ih =>
    rcases List.mem_append.mp h with h | h
    · exact ih h
    · rw [List.mem_singleton.mp h]
      exact ⟨⟨_, hr⟩, hs⟩

theorem Run.cons {s s' s'' : σ} {t : List (Transition σ ι)} {i : ι} (hs : M.step s i s')
    (hr : M.Run s' t s'') : M.Run s (⟨s, i, s'⟩ :: t) s'' := by
  induction hr with
  | nil => exact (Run.nil s).snoc hs
  | snoc _ hlast ih => exact ih.snoc hlast

theorem Run.trans {s s' s'' : σ} {t t' : List (Transition σ ι)} (hr : M.Run s t s')
    (hr' : M.Run s' t' s'') : M.Run s (t ++ t') s'' := by
  induction hr' with
  | nil =>
    rw [List.append_nil]
    exact hr
  | snoc _ hs ih =>
    rw [← List.append_assoc]
    exact ih.snoc hs

/-- A run splits at every one of its transitions. -/
theorem Run.split {s s' : σ} {t : List (Transition σ ι)} (hr : M.Run s t s') {r : Transition σ ι}
    (h : r ∈ t) : ∃ t₁ t₂, t = t₁ ++ r :: t₂ ∧ M.Run s t₁ r.before ∧
      M.step r.before r.label r.after ∧ M.Run r.after t₂ s' := by
  induction hr with
  | nil => cases h
  | @snoc s₁ s₂ t i hr hs ih =>
    rcases List.mem_append.mp h with h | h
    · obtain ⟨t₁, t₂, rfl, hbefore, hstep, hafter⟩ := ih h
      exact ⟨t₁, t₂ ++ [⟨s₁, i, s₂⟩], by simp, hbefore, hstep, hafter.snoc hs⟩
    · rw [List.mem_singleton.mp h]
      exact ⟨t, [], rfl, hr, hs, .nil _⟩

/-- A reflexive, transitive relation that every step respects relates the ends of a run. -/
theorem Run.relates {I : σ → Prop} {R : σ → σ → Prop} (hrefl : ∀ s, R s s)
    (htrans : ∀ a b c, R a b → R b c → R a c)
    (hI : ∀ s i s', I s → M.step s i s' → I s')
    (hstep : ∀ s i s', I s → M.step s i s' → R s s')
    {s s' : σ} {t : List (Transition σ ι)} (hr : M.Run s t s') (h : I s) : R s s' := by
  induction hr with
  | nil => exact hrefl _
  | snoc hr hs ih => exact htrans _ _ _ ih (hstep _ _ _ (hr.invariant hI h) hs)

/-- A function of states and labels that maps steps to steps maps runs to runs. -/
theorem Run.map {σ' ι' : Type} {M' : Machine σ' ι'} {f : σ → σ'} {g : ι → ι'}
    (hstep : ∀ s i s', M.step s i s' → M'.step (f s) (g i) (f s'))
    {s s' : σ} {t : List (Transition σ ι)} (hr : M.Run s t s') :
    M'.Run (f s) (t.map fun r => ⟨f r.before, g r.label, f r.after⟩) (f s') := by
  induction hr with
  | nil => exact .nil _
  | snoc _ hs ih =>
    rw [List.map_append]
    exact ih.snoc (hstep _ _ _ hs)

/-- A kind of step that sets a barrier, which no step removes and no such step passes, is taken at
most once. -/
theorem Run.once {I B : σ → Prop} {p : ι → Bool}
    (hI : ∀ s i s', I s → M.step s i s' → I s')
    (hkeep : ∀ s i s', I s → M.step s i s' → B s → B s')
    (hset : ∀ s i s', I s → M.step s i s' → p i → ¬ B s ∧ B s')
    {s s' : σ} {t : List (Transition σ ι)} (hr : M.Run s t s') (h : I s) :
    t.countP (fun r => p r.label) ≤ 1 := by
  suffices hcount : t.countP (fun r => p r.label) = 0 ∨
      (t.countP (fun r => p r.label) = 1 ∧ B s') by omega
  induction hr with
  | nil => exact .inl rfl
  | @snoc s₁ s₂ t i hr hs ih =>
    have hI' := hr.invariant hI h
    rw [List.countP_append, List.countP_singleton]
    cases hp : p i with
    | false =>
      rcases ih with hzero | ⟨hone, hB⟩
      · exact .inl (by simp [hzero])
      · exact .inr ⟨by simp [hone], hkeep _ _ _ hI' hs hB⟩
    | true =>
      obtain ⟨hnot, hB⟩ := hset _ _ _ hI' hs hp
      rcases ih with hzero | ⟨-, hbefore⟩
      · exact .inr ⟨by simp [hzero], hB⟩
      · exact absurd hbefore hnot

theorem Run.last {s s' : σ} {t : List (Transition σ ι)} {r : Transition σ ι} (hr : M.Run s (t ++ [r]) s') :
    M.Run s t r.before ∧ M.step r.before r.label r.after ∧ r.after = s' := by
  generalize ht : t ++ [r] = t' at hr
  cases hr with
  | nil => exact absurd ht (by simp)
  | snoc hbefore hs =>
    obtain ⟨rfl, hlast⟩ := List.append_inj' ht rfl
    obtain rfl := List.singleton_inj.mp hlast
    exact ⟨hbefore, hs, rfl⟩

/-- A run is a run of its first part and of the rest. -/
theorem Run.cut {s s' : σ} {t t' : List (Transition σ ι)} (hr : M.Run s (t ++ t') s') :
    ∃ s₁, M.Run s t s₁ ∧ M.Run s₁ t' s' := by
  induction t' using List.reverseRecOn generalizing s' with
  | nil => exact ⟨s', by simpa using hr, .nil s'⟩
  | append_singleton t' r ih =>
    rw [← List.append_assoc] at hr
    obtain ⟨hbefore, hs, rfl⟩ := hr.last
    obtain ⟨s₁, hfirst, hrest⟩ := ih hbefore
    exact ⟨s₁, hfirst, hrest.snoc hs⟩

theorem Run.first {s s' : σ} {t : List (Transition σ ι)} {r : Transition σ ι} (hr : M.Run s (r :: t) s') :
    s = r.before := by
  obtain ⟨s₁, hone, -⟩ := Run.cut (t := [r]) hr
  obtain ⟨hnil, -⟩ := Run.last (t := []) hone
  generalize ht : [] = t' at hnil
  cases hnil with
  | nil => rfl
  | snoc => exact absurd ht (by simp)

/-- What holds at the end of a run and not at its start began with one of its transitions, and has
held in every state since. -/
theorem Run.since {P : σ → Prop} {s s' : σ} {t : List (Transition σ ι)} (hr : M.Run s t s')
    (hstart : ¬ P s) (hend : P s') : ∃ t₁ r t₂, t = t₁ ++ r :: t₂ ∧ M.Run s t₁ r.before ∧
      M.step r.before r.label r.after ∧ M.Run r.after t₂ s' ∧ ¬ P r.before ∧ P r.after ∧
      ∀ q ∈ t₂, P q.after := by
  induction hr with
  | nil => exact absurd hend hstart
  | @snoc s₁ s₂ t i hr hs ih =>
    by_cases h : P s₁
    · obtain ⟨t₁, r, t₂, rfl, hbefore, hstep, hafter, hnot, hP, hall⟩ := ih h
      refine ⟨t₁, r, t₂ ++ [⟨s₁, i, s₂⟩], by simp, hbefore, hstep, hafter.snoc hs, hnot, hP, ?_⟩
      intro q hq
      rcases List.mem_append.mp hq with hq | hq
      · exact hall q hq
      · rw [List.mem_singleton.mp hq]
        exact hend
    · exact ⟨t, ⟨s₁, i, s₂⟩, [], rfl, hr, hs, .nil _, h, hend, fun q hq => absurd hq List.not_mem_nil⟩

/-- Where the steps are those of a function, inputs it accepts one after the other are a run. -/
theorem Run.foldlM_labels {ε : Type} {f : σ → ι → Except ε σ}
    (hf : ∀ s i s', f s i = .ok s' → M.step s i s') {is : List ι} {s₀ s s' : σ}
    {t : List (Transition σ ι)} (hr : M.Run s₀ t s) (h : is.foldlM f s = .ok s') :
    ∃ t', M.Run s₀ (t ++ t') s' ∧ t'.map Transition.label = is := by
  induction is generalizing s t with
  | nil =>
    cases h
    exact ⟨[], by rwa [List.append_nil], rfl⟩
  | cons i is ih =>
    rw [List.foldlM_cons] at h
    cases hstep : f s i with
    | error e =>
      rw [hstep] at h
      cases h
    | ok s₁ =>
      rw [hstep] at h
      obtain ⟨t', hr', hlabels⟩ := ih (hr.snoc (hf _ _ _ hstep)) h
      refine ⟨⟨s, i, s₁⟩ :: t', ?_, by rw [List.map_cons, hlabels]⟩
      rwa [List.append_assoc] at hr'

theorem Run.foldlM {ε : Type} {f : σ → ι → Except ε σ}
    (hf : ∀ s i s', f s i = .ok s' → M.step s i s') {is : List ι} {s₀ s s' : σ}
    {t : List (Transition σ ι)} (hr : M.Run s₀ t s) (h : is.foldlM f s = .ok s') :
    ∃ t', M.Run s₀ t' s' := by
  obtain ⟨t', hr', -⟩ := hr.foldlM_labels hf h
  exact ⟨t ++ t', hr'⟩

end Machine

end Library
