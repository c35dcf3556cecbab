import Mathlib.Tactic.Common
import Mathlib.Data.List.Range
import ShaponTravels.Library.Table
import ShaponTravels.Library.Transition

/-!
# Versions — live rows beside the log of what they were

A row carries its version.  Creating it writes version 1 to the log, revising it the next version
with a view of the new row; deleting it writes nothing.  A closed row is neither revised nor deleted.
-/

namespace Library

structure Entry (κ α : Type) where
  key : κ
  version : Nat
  value : α

structure Versions (κ α β : Type) where
  live : List (Entry κ α)
  log : List (Entry κ β)

namespace Versions

variable {κ α β : Type} [DecidableEq κ]

/-- The versions the log holds of a key, oldest first. -/
def versionsOf (s : Versions κ α β) (k : κ) : List Nat :=
  (s.log.filter fun l => l.key = k).map Entry.version

/-- What is logged of a row. -/
def logged (view : α → β) (e : Entry κ α) : Entry κ β := ⟨e.key, e.version, view e.value⟩

section Machine

variable (closed : α → Prop) (view : α → β)

/-- One step; its label is the row and the version of it that is revised or deleted. -/
inductive Edit (s : Versions κ α β) : Option (κ × Nat) → Versions κ α β → Prop
  | stay : Edit s none s
  | create (k : κ) (a : α) :
      (∀ e ∈ s.live, e.key ≠ k) → (∀ l ∈ s.log, ¬ (l.key = k ∧ l.version = 1)) →
      Edit s none ⟨s.live ++ [⟨k, 1, a⟩], s.log ++ [⟨k, 1, view a⟩]⟩
  | revise (e : Entry κ α) (a : α) :
      e ∈ s.live → ¬ closed e.value →
      Edit s (some (e.key, e.version))
        ⟨modify Entry.key e.key (fun _ => ⟨e.key, e.version + 1, a⟩) s.live,
          s.log ++ [⟨e.key, e.version + 1, view a⟩]⟩
  | delete (e : Entry κ α) :
      e ∈ s.live → ¬ closed e.value →
      Edit s (some (e.key, e.version)) ⟨s.live.filter fun e' => e'.key ≠ e.key, s.log⟩

/-- Versioned rows from an empty table. -/
def machine : Machine (Versions κ α β) (Option (κ × Nat)) where
  init s := s = ⟨[], []⟩
  step := Edit closed view

/-- The log numbers the versions of every key from 1, and knows every live row as it stands. -/
structure Sound (s : Versions κ α β) : Prop where
  unique : KeyUnique Entry.key s.live
  recorded : ∀ e ∈ s.live, logged view e ∈ s.log
  numbered : ∀ e ∈ s.live, s.versionsOf e.key = List.range' 1 e.version
  gapless : ∀ k, ∃ n, s.versionsOf k = List.range' 1 n

/-- What no step undoes. -/
structure Kept (s s' : Versions κ α β) : Prop where
  log : s.log <+: s'.log
  /-- A deleted row does not come back, and nothing is logged of it any more. -/
  gone : ∀ k, (∃ l ∈ s.log, l.key = k) → (∀ e ∈ s.live, e.key ≠ k) →
    (∀ e ∈ s'.live, e.key ≠ k) ∧ s'.versionsOf k = s.versionsOf k
  /-- A closed row stays as it is. -/
  closed : ∀ e ∈ s.live, closed e.value → e ∈ s'.live

end Machine

variable {closed : α → Prop} {view : α → β} {s s' : Versions κ α β} {label : Option (κ × Nat)}

theorem versionsOf_concat (live : List (Entry κ α)) (log : List (Entry κ β)) (l : Entry κ β) (k : κ) :
    versionsOf ⟨live, log ++ [l]⟩ k =
      versionsOf ⟨live, log⟩ k ++ if l.key = k then [l.version] else [] := by
  simp only [versionsOf, List.filter_append, List.map_append, List.filter_cons, List.filter_nil]
  by_cases h : l.key = k
  · simp [h]
  · simp [h]

theorem range'_succ_concat (n : Nat) : List.range' 1 (n + 1) = List.range' 1 n ++ [n + 1] := by
  rw [List.range'_concat, Nat.one_mul, Nat.add_comm 1 n]

theorem mem_versionsOf {k : κ} {v : Nat} :
    v ∈ s.versionsOf k ↔ ∃ l ∈ s.log, l.key = k ∧ l.version = v := by
  simp only [versionsOf, List.mem_map, List.mem_filter, decide_eq_true_eq, and_assoc]

/-- Without its first version nothing of a key is logged. -/
theorem Sound.unlogged (hs : s.Sound view) {k : κ}
    (h : ∀ l ∈ s.log, ¬ (l.key = k ∧ l.version = 1)) : s.versionsOf k = [] := by
  obtain ⟨n, hn⟩ := hs.gapless k
  cases n with
  | zero => exact hn
  | succ n =>
    have hone : 1 ∈ s.versionsOf k := by
      rw [hn, List.mem_range'_1]
      omega
    obtain ⟨l, hl, hlog⟩ := mem_versionsOf.mp hone
    exact absurd hlog (h l hl)

theorem Sound.empty : Sound view (⟨[], []⟩ : Versions κ α β) where
  unique := KeyUnique.nil
  recorded := by simp
  numbered := by simp
  gapless k := ⟨0, rfl⟩

/-- Logging the next version of one key keeps every key numbered without gaps. -/
theorem Sound.gapless_concat (hs : s.Sound view) {live : List (Entry κ α)} {k : κ} {n : Nat} {b : β}
    (hk : s.versionsOf k = List.range' 1 n) (k' : κ) :
    ∃ m, versionsOf ⟨live, s.log ++ [⟨k, n + 1, b⟩]⟩ k' = List.range' 1 m := by
  rw [versionsOf_concat]
  show ∃ m, s.versionsOf k' ++ _ = _
  by_cases hkk : k = k'
  · subst hkk
    exact ⟨n + 1, by rw [hk, if_pos rfl, range'_succ_concat]⟩
  · obtain ⟨m, hm⟩ := hs.gapless k'
    exact ⟨m, by rw [hm, if_neg hkk, List.append_nil]⟩

theorem Sound.create (hs : s.Sound view) {k : κ} {a : α} (hlive : ∀ e ∈ s.live, e.key ≠ k)
    (hlog : ∀ l ∈ s.log, ¬ (l.key = k ∧ l.version = 1)) :
    Sound view ⟨s.live ++ [⟨k, 1, a⟩], s.log ++ [⟨k, 1, view a⟩]⟩ := by
  have hnone := hs.unlogged hlog
  constructor
  case unique => exact keyUnique_concat.mpr ⟨hs.unique, hlive⟩
  case recorded =>
    intro e he
    rcases List.mem_append.mp he with he | he
    · exact List.mem_append_left _ (hs.recorded e he)
    · rw [List.mem_singleton.mp he]
      exact List.mem_append_right _ (List.mem_singleton_self _)
  case numbered =>
    intro e he
    rw [versionsOf_concat]
    rcases List.mem_append.mp he with he | he
    · rw [if_neg (hlive e he).symm, List.append_nil]
      exact hs.numbered e he
    · rw [List.mem_singleton.mp he, if_pos rfl]
      show s.versionsOf k ++ _ = _
      rw [hnone]
      rfl
  case gapless => exact hs.gapless_concat (n := 0) hnone

theorem Sound.revise (hs : s.Sound view) {e : Entry κ α} {a : α} (he : e ∈ s.live) :
    Sound view ⟨modify Entry.key e.key (fun _ => ⟨e.key, e.version + 1, a⟩) s.live,
      s.log ++ [⟨e.key, e.version + 1, view a⟩]⟩ := by
  constructor
  case unique =>
    -- the rewrite keeps the key of the one row it rewrites
    have hkeys : (modify Entry.key e.key (fun _ => ⟨e.key, e.version + 1, a⟩) s.live).map
        Entry.key = s.live.map Entry.key := by
      rw [modify, List.map_map]
      apply List.map_congr_left
      intro e' _
      simp only [Function.comp]
      split
      · rename_i hk
        exact hk.symm
      · rfl
    rw [KeyUnique, hkeys]
    exact hs.unique
  case recorded =>
    intro e' he'
    rcases modify_cases he' with ⟨he', -⟩ | ⟨_, -, -, rfl⟩
    · exact List.mem_append_left _ (hs.recorded e' he')
    · exact List.mem_append_right _ (List.mem_singleton_self _)
  case numbered =>
    intro e' he'
    rw [versionsOf_concat]
    rcases modify_cases he' with ⟨he', hne⟩ | ⟨_, -, -, rfl⟩
    · rw [if_neg (Ne.symm hne), List.append_nil]
      exact hs.numbered e' he'
    · rw [if_pos rfl, range'_succ_concat]
      exact congrArg (· ++ [e.version + 1]) (hs.numbered e he)
  case gapless => exact hs.gapless_concat (hs.numbered e he)

theorem Sound.delete (hs : s.Sound view) (k : κ) :
    Sound view ⟨s.live.filter fun e' => e'.key ≠ k, s.log⟩ where
  unique := hs.unique.sublist (List.filter_sublist.map _)
  recorded e he := hs.recorded e (List.mem_of_mem_filter he)
  numbered e he := hs.numbered e (List.mem_of_mem_filter he)
  gapless := hs.gapless

theorem Sound.step (hs : s.Sound view) (h : Edit closed view s label s') : s'.Sound view := by
  cases h with
  | stay => exact hs
  | create k a hlive hlog => exact hs.create hlive hlog
  | revise e a he => exact hs.revise he
  | delete e => exact hs.delete e.key

/-! ## What no step undoes -/

theorem Kept.refl (s : Versions κ α β) : Kept closed s s where
  log := List.prefix_refl _
  gone _ _ hlive := ⟨hlive, rfl⟩
  closed _ he _ := he

theorem Kept.trans {s₁ s₂ s₃ : Versions κ α β} (h : Kept closed s₁ s₂) (h' : Kept closed s₂ s₃) :
    Kept closed s₁ s₃ where
  log := h.log.trans h'.log
  gone k hlog hlive := by
    obtain ⟨hlive₂, hsame₂⟩ := h.gone k hlog hlive
    obtain ⟨l, hl, hk⟩ := hlog
    obtain ⟨hlive₃, hsame₃⟩ := h'.gone k ⟨l, h.log.subset hl, hk⟩ hlive₂
    exact ⟨hlive₃, hsame₃.trans hsame₂⟩
  closed e he hclosed := h'.closed e (h.closed e he hclosed) hclosed

theorem Kept.step (hs : s.Sound view) (h : Edit closed view s label s') : Kept closed s s' := by
  cases h with
  | stay => exact .refl s
  | create k a hlive hlog =>
    constructor
    case log => exact List.prefix_append _ _
    case closed =>
      intro e he _
      exact List.mem_append_left _ he
    case gone =>
      -- a key the log knows has its first version there
      intro k' ⟨l, hl, hk'⟩ hgone
      have hne : k ≠ k' := by
        rintro rfl
        have hmem : l.version ∈ s.versionsOf k := mem_versionsOf.mpr ⟨l, hl, hk', rfl⟩
        rw [hs.unlogged hlog] at hmem
        cases hmem
      constructor
      · intro e he
        rcases List.mem_append.mp he with he | he
        · exact hgone e he
        · rw [List.mem_singleton.mp he]
          exact hne
      · rw [versionsOf_concat, if_neg hne, List.append_nil]
        rfl
  | revise e a he hopen =>
    constructor
    case log => exact List.prefix_append _ _
    case closed =>
      intro e' he' hclosed
      refine mem_modify_of_ne he' (fun hk => hopen ?_)
      rwa [← hs.unique.eq_of_key he' he hk]
    case gone =>
      intro k' _ hgone
      have hne : e.key ≠ k' := hgone e he
      constructor
      · intro e' he'
        rcases modify_cases he' with ⟨he', -⟩ | ⟨_, -, -, rfl⟩
        · exact hgone e' he'
        · exact hne
      · rw [versionsOf_concat, if_neg hne, List.append_nil]
        rfl
  | delete e he hopen =>
    constructor
    case log => exact List.prefix_refl _
    case closed =>
      intro e' he' hclosed
      refine List.mem_filter.mpr ⟨he', decide_eq_true fun hk => hopen ?_⟩
      rwa [← hs.unique.eq_of_key he' he hk]
    case gone =>
      intro k' _ hgone
      exact ⟨fun e' he' => hgone e' (List.mem_of_mem_filter he'), rfl⟩

/-- Nothing is logged of a row by the step that removes it. -/
theorem log_of_removed (h : Edit closed view s label s') {e : Entry κ α} (he : e ∈ s.live)
    (hgone : ∀ e' ∈ s'.live, e'.key ≠ e.key) : s'.log = s.log := by
  cases h with
  | stay => exact absurd rfl (hgone e he)
  | create k a => exact absurd rfl (hgone e (List.mem_append_left _ he))
  | revise e₁ a he₁ =>
    by_cases hk : e.key = e₁.key
    · exact absurd hk.symm (hgone ⟨e₁.key, e₁.version + 1, a⟩ (mem_modify_of_mem he hk))
    · exact absurd rfl (hgone e (mem_modify_of_ne he hk))
  | delete => rfl

/-! ## Over a run -/

variable {t : List (Transition (Versions κ α β) (Option (κ × Nat)))}

theorem run_sound (h : (machine closed view).Run s t s') (hs : s.Sound view) : s'.Sound view :=
  h.invariant (fun _ _ _ hs hstep => hs.step hstep) hs

theorem run_kept (h : (machine closed view).Run s t s') (hs : s.Sound view) : Kept closed s s' :=
  h.relates (I := Sound view) Kept.refl (fun _ _ _ => Kept.trans)
    (fun _ _ _ hs hstep => hs.step hstep) (fun _ _ _ hs hstep => Kept.step hs hstep) hs

/-- What is logged on a run is a row as it stood after some transition. -/
theorem run_logged (h : (machine closed view).Run s t s') {l : Entry κ β} (hl : l ∈ s'.log) :
    l ∈ s.log ∨ ∃ r ∈ t, ∃ e ∈ r.after.live, l = logged view e := by
  induction h with
  | nil => exact .inl hl
  | @snoc s₁ s₂ t i _ hstep ih =>
    have hearlier : l ∈ s₁.log → l ∈ s.log ∨ ∃ r ∈ t ++ [⟨s₁, i, s₂⟩], ∃ e ∈ r.after.live,
        l = logged view e := by
      intro hl
      rcases ih hl with hl | ⟨r, hr, hlogged⟩
      · exact .inl hl
      · exact .inr ⟨r, List.mem_append_left _ hr, hlogged⟩
    have hlast : (∃ e ∈ s₂.live, l = logged view e) →
        l ∈ s.log ∨ ∃ r ∈ t ++ [⟨s₁, i, s₂⟩], ∃ e ∈ r.after.live, l = logged view e :=
      fun hlogged => .inr ⟨_, List.mem_append_right _ (List.mem_singleton_self _), hlogged⟩
    cases hstep with
    | stay => exact hearlier hl
    | delete => exact hearlier hl
    | create k a =>
      rcases List.mem_append.mp hl with hl | hl
      · exact hearlier hl
      · exact hlast ⟨_, List.mem_append_right _ (List.mem_singleton_self _), List.mem_singleton.mp hl⟩
    | revise e a he =>
      rcases List.mem_append.mp hl with hl | hl
      · exact hearlier hl
      · exact hlast ⟨_, mem_modify_of_mem he rfl, List.mem_singleton.mp hl⟩

/-- The version is history: nothing with the key is live at it or below. -/
def Passed (k : κ) (v : Nat) (s : Versions κ α β) : Prop :=
  (∃ l ∈ s.log, l.key = k) ∧ ∀ e ∈ s.live, e.key = k → v < e.version

theorem Passed.step (hs : s.Sound view) {k : κ} {v : Nat} (hp : Passed k v s)
    (h : Edit closed view s label s') : Passed k v s' := by
  obtain ⟨⟨l, hl, hk⟩, hlive⟩ := hp
  refine ⟨⟨l, (Kept.step hs h).log.subset hl, hk⟩, ?_⟩
  cases h with
  | stay => exact hlive
  | create k' a _ hlog =>
    intro e he hek
    rcases List.mem_append.mp he with he | he
    · exact hlive e he hek
    · -- the key is logged already, so it is not created again
      rw [List.mem_singleton.mp he] at hek
      have hmem : l.version ∈ s.versionsOf k' := mem_versionsOf.mpr ⟨l, hl, hk.trans hek.symm, rfl⟩
      rw [hs.unlogged hlog] at hmem
      cases hmem
  | revise e a he =>
    intro e' he' hek
    rcases modify_cases he' with ⟨he', -⟩ | ⟨_, -, -, rfl⟩
    · exact hlive e' he' hek
    · have hlt := hlive e he hek
      show v < e.version + 1
      omega
  | delete e =>
    intro e' he' hek
    exact hlive e' (List.mem_of_mem_filter he') hek

/-- An edit is refused once its version is history, and makes it history. -/
theorem passed_edit (hs : s.Sound view) {k : κ} {v : Nat}
    (h : Edit closed view s (some (k, v)) s') : ¬ Passed k v s ∧ Passed k v s' := by
  cases h with
  | revise e a he =>
    constructor
    · intro hp
      have hlt := hp.2 e he rfl
      omega
    · refine ⟨⟨_, List.mem_append_left _ (hs.recorded e he), rfl⟩, ?_⟩
      intro e' he' hek
      rcases modify_cases he' with ⟨-, hne⟩ | ⟨_, -, -, rfl⟩
      · exact absurd hek hne
      · exact Nat.lt_succ_self _
  | delete e he =>
    constructor
    · intro hp
      have hlt := hp.2 e he rfl
      omega
    · refine ⟨⟨_, hs.recorded e he, rfl⟩, ?_⟩
      intro e' he' hek
      exact absurd hek (by simpa using (List.mem_filter.mp he').2)

/-- Of the edits of one version of a row at most one is made. -/
theorem run_edit_once (h : (machine closed view).Run s t s') (hs : s.Sound view) (k : κ) (v : Nat) :
    t.countP (fun r => r.label = some (k, v)) ≤ 1 := by
  refine h.once (I := Sound view) (B := Passed k v) (p := fun label => label = some (k, v))
    (fun _ _ _ hs hstep => hs.step hstep) (fun _ _ _ hs hstep hp => hp.step hs hstep) ?_ hs
  intro s label s' hs hstep hlabel
  rw [of_decide_eq_true hlabel] at hstep
  exact passed_edit hs hstep

end Versions

end Library
