import ShaponTravels.Identity.Deletions
import ShaponTravels.Library.Fenced

/-!
# Lanes — the attempts of every row of a journal

Effects, creations and deletions share one protocol: a row, and the table of the attempts on it.
`Lanes` says that every row's log is sound; it is kept by each way the two tables change.
-/

namespace ShaponTravels.Identity

open Library
open Library.Fenced (Phase Sound Agrees)

def Attempt.entry (a : Attempt) : Fenced.Entry Uuid AttemptOutcome :=
  ⟨a.claimToken, a.kind = .dispatch, a.outcome⟩

/-- The attempts on one row, oldest first. -/
def attemptLog (attempts : List Attempt) (id : Uuid) : List (Fenced.Entry Uuid AttemptOutcome) :=
  (attempts.filter fun a => a.parentId = id).map Attempt.entry

section Logs

variable {attempts : List Attempt} {id : Uuid}

theorem mem_attemptLog {e : Fenced.Entry Uuid AttemptOutcome} :
    e ∈ attemptLog attempts id ↔ ∃ a ∈ attempts, a.parentId = id ∧ a.entry = e := by
  simp [attemptLog, and_assoc]

theorem attemptLog_concat_self {a : Attempt} (h : a.parentId = id) :
    attemptLog (attempts ++ [a]) id = attemptLog attempts id ++ [a.entry] := by
  simp [attemptLog, h]

theorem attemptLog_concat_ne {a : Attempt} (h : a.parentId ≠ id) :
    attemptLog (attempts ++ [a]) id = attemptLog attempts id := by
  simp [attemptLog, h]

theorem attemptLog_recordOutcome (token : Uuid) (outcome : AttemptOutcome) :
    attemptLog (recordOutcome token outcome attempts) id =
      Fenced.record token outcome (attemptLog attempts id) := by
  simp only [attemptLog, recordOutcome, Fenced.record, Library.modify, List.filter_map, List.map_map]
  have hsame : (fun a : Attempt => decide (a.parentId = id)) ∘ (fun a =>
      if a.claimToken = token then
        (if a.outcome = none then { a with outcome := some outcome } else a) else a) =
      fun a => decide (a.parentId = id) := by
    funext a
    simp only [Function.comp]
    split
    · split <;> rfl
    · rfl
  rw [hsame]
  apply List.map_congr_left
  intro a _
  by_cases htoken : a.claimToken = token
  · by_cases hopen : a.outcome = none
    · simp [htoken, hopen, Attempt.entry]
    · simp [htoken, hopen, Attempt.entry]
  · simp [htoken, Attempt.entry]

theorem attemptLog_fresh {token : Uuid} (h : ∀ a ∈ attempts, a.claimToken ≠ token) :
    ∀ e ∈ attemptLog attempts id, e.token ≠ token := by
  intro e he
  obtain ⟨a, ha, -, rfl⟩ := mem_attemptLog.mp he
  exact h a ha

theorem attemptLog_eq_nil (h : ∀ a ∈ attempts, a.parentId ≠ id) : attemptLog attempts id = [] := by
  rw [attemptLog, List.filter_eq_nil_iff.mpr (fun a ha => by simpa using h a ha)]
  rfl

end Logs

/-! ## What is never taken back -/

/-- The columns of an attempt that no update writes. -/
def Attempt.fixed (a : Attempt) : Attempt := { a with outcome := none }

theorem Attempt.of_fixed {a a' : Attempt} (h : a.fixed = a'.fixed) :
    a.claimToken = a'.claimToken ∧ a.parentId = a'.parentId ∧ a.fence = a'.fence ∧
      a.kind = a'.kind := by
  simp only [Attempt.fixed, Attempt.mk.injEq] at h
  tauto

theorem recordOutcome_extends (token : Uuid) (outcome : AttemptOutcome) {attempts : List Attempt}
    {a : Attempt} (ha : a ∈ attempts) : ∃ a' ∈ recordOutcome token outcome attempts,
      a'.fixed = a.fixed ∧ ∀ o, a.outcome = some o → a'.outcome = some o := by
  refine ⟨_, mem_modify.mpr ⟨a, ha, rfl⟩, ?_⟩
  split
  · split
    · rename_i hopen
      exact ⟨rfl, fun o ho => by rw [hopen] at ho; cases ho⟩
    · exact ⟨rfl, fun _ ho => ho⟩
  · exact ⟨rfl, fun _ ho => ho⟩

theorem recordOutcome_fixed {token : Uuid} {outcome : AttemptOutcome} {attempts : List Attempt}
    {a' : Attempt} (ha' : a' ∈ recordOutcome token outcome attempts) :
    ∃ a ∈ attempts, a.fixed = a'.fixed := by
  obtain ⟨a, ha, rfl⟩ := mem_modify.mp ha'
  refine ⟨a, ha, ?_⟩
  split
  · split <;> rfl
  · rfl

/-- An outcome that is recorded for an attempt is the recorded one or was there before. -/
theorem recordOutcome_traced {token : Uuid} {outcome o : AttemptOutcome} {attempts : List Attempt}
    {a' : Attempt} (ha' : a' ∈ recordOutcome token outcome attempts) (ho : a'.outcome = some o) :
    ∃ a ∈ attempts, a'.fixed = a.fixed ∧
      (a.outcome = some o ∨ a.claimToken = token ∧ a.outcome = none ∧ o = outcome) := by
  rcases modify_cases ha' with ⟨ha, -⟩ | ⟨a, ha, htoken, rfl⟩
  · exact ⟨a', ha, rfl, .inl ho⟩
  · refine ⟨a, ha, ?_⟩
    split at ho
    · rename_i hopen
      rw [if_pos hopen]
      exact ⟨rfl, .inr ⟨htoken, hopen, (Option.some.inj ho).symm⟩⟩
    · rename_i hclosed
      rw [if_neg hclosed]
      exact ⟨rfl, .inl ho⟩

/-- Attempts stay, an outcome stays, and a row with an outcome other than that nothing was sent is not
dispatched any more. -/
structure AttemptsExtend (attempts attempts' : List Attempt) : Prop where
  kept : ∀ a ∈ attempts, ∃ a' ∈ attempts', a'.fixed = a.fixed ∧
    ∀ o, a.outcome = some o → a'.outcome = some o
  writes : ∀ a ∈ attempts, ∀ o, a.outcome = some o → o ≠ .notSent → ∀ a' ∈ attempts',
    a'.parentId = a.parentId → a'.kind = .dispatch → ∃ b ∈ attempts, b.fixed = a'.fixed

namespace AttemptsExtend

variable {attempts attempts' attempts'' : List Attempt}

theorem refl (attempts : List Attempt) : AttemptsExtend attempts attempts where
  kept a ha := ⟨a, ha, rfl, fun _ ho => ho⟩
  writes _ _ _ _ _ a' ha' _ _ := ⟨a', ha', rfl⟩

theorem trans (h : AttemptsExtend attempts attempts') (h' : AttemptsExtend attempts' attempts'') :
    AttemptsExtend attempts attempts'' := by
  constructor
  · intro a ha
    obtain ⟨a₁, ha₁, hfixed₁, ho₁⟩ := h.kept a ha
    obtain ⟨a₂, ha₂, hfixed₂, ho₂⟩ := h'.kept a₁ ha₁
    exact ⟨a₂, ha₂, hfixed₂.trans hfixed₁, fun o ho => ho₂ o (ho₁ o ho)⟩
  · intro a ha o ho hsent a'' ha'' hparent hkind
    obtain ⟨a₁, ha₁, hfixed₁, ho₁⟩ := h.kept a ha
    have hparent₁ := (Attempt.of_fixed hfixed₁).2.1
    obtain ⟨b₁, hb₁, hfixed₂⟩ :=
      h'.writes a₁ ha₁ o (ho₁ o ho) hsent a'' ha'' (hparent.trans hparent₁.symm) hkind
    obtain ⟨-, hparent₂, -, hkind₂⟩ := Attempt.of_fixed hfixed₂
    obtain ⟨b, hb, hfixed⟩ :=
      h.writes a ha o ho hsent b₁ hb₁ (hparent₂.trans hparent) (hkind₂.trans hkind)
    exact ⟨b, hb, hfixed.trans hfixed₂⟩

/-- A token that is new afterwards was new before. -/
theorem fresh (h : AttemptsExtend attempts attempts') {token : Uuid}
    (hfresh : ∀ a ∈ attempts', a.claimToken ≠ token) : ∀ a ∈ attempts, a.claimToken ≠ token := by
  intro a ha heq
  obtain ⟨a', ha', hfixed, -⟩ := h.kept a ha
  exact hfresh a' ha' ((Attempt.of_fixed hfixed).1.trans heq)

/-- An outcome is recorded. -/
theorem record (token : Uuid) (outcome : AttemptOutcome) (attempts : List Attempt) :
    AttemptsExtend attempts (recordOutcome token outcome attempts) where
  kept _ ha := recordOutcome_extends token outcome ha
  writes _ _ _ _ _ _ ha' _ _ := recordOutcome_fixed ha'

/-- An attempt is added; when it is a dispatch, all attempts on its row were spent. -/
theorem concat {a : Attempt} (hspent : a.kind = .dispatch → ∀ b ∈ attempts, b.parentId = a.parentId →
    b.outcome = some .notSent) : AttemptsExtend attempts (attempts ++ [a]) where
  kept b hb := ⟨b, List.mem_append_left _ hb, rfl, fun _ ho => ho⟩
  writes b hb o ho hsent a' ha' hparent hkind := by
    rcases List.mem_append.mp ha' with hmem | hmem
    · exact ⟨a', hmem, rfl⟩
    · rw [List.mem_singleton.mp hmem] at hparent hkind
      have hnot := hspent hkind b hb hparent.symm
      rw [ho] at hnot
      exact absurd (Option.some.inj hnot) hsent

end AttemptsExtend

/-- Every row's log is sound, agrees with the state of the row and with its count of writes. -/
structure Lanes {ρ : Type} (key : ρ → Uuid) (phase : ρ → Phase Uuid) (writes : ρ → Nat)
    (rows : List ρ) (attempts : List Attempt) : Prop where
  keys : KeyUnique key rows
  tokens : KeyUnique Attempt.claimToken attempts
  parents : ∀ a ∈ attempts, ∃ r ∈ rows, key r = a.parentId
  sound : ∀ r ∈ rows, Sound .notSent 5 (attemptLog attempts (key r))
  agrees : ∀ r ∈ rows, Agrees .notSent (phase r) (attemptLog attempts (key r))
  counts : ∀ r ∈ rows, (attemptLog attempts (key r)).countP Fenced.Entry.write = writes r

namespace Lanes

variable {ρ : Type} {key : ρ → Uuid} {phase : ρ → Phase Uuid} {writes : ρ → Nat} {rows : List ρ}
  {attempts : List Attempt}

theorem empty : Lanes key phase writes [] [] :=
  ⟨.nil, .nil, by simp, by simp, by simp, by simp⟩

/-- A new row starts with an empty log. -/
theorem insert (h : Lanes key phase writes rows attempts) {r : ρ} (hnew : ∀ r' ∈ rows, key r' ≠ key r)
    (hphase : phase r = .idle) (hwrites : writes r = 0) :
    Lanes key phase writes (rows ++ [r]) attempts := by
  have hnil : attemptLog attempts (key r) = [] := by
    apply attemptLog_eq_nil
    intro a ha heq
    obtain ⟨r', hr', hkey⟩ := h.parents a ha
    exact hnew r' hr' (hkey.trans heq)
  refine ⟨keyUnique_concat.mpr ⟨h.keys, hnew⟩, h.tokens, ?_, ?_, ?_, ?_⟩
  · intro a ha
    obtain ⟨r', hr', hkey⟩ := h.parents a ha
    exact ⟨r', List.mem_append_left _ hr', hkey⟩
  · intro r' hr'
    rcases List.mem_append.mp hr' with hr' | hr'
    · exact h.sound r' hr'
    · rw [List.mem_singleton.mp hr', hnil]
      exact Fenced.sound_nil
  · intro r' hr'
    rcases List.mem_append.mp hr' with hr' | hr'
    · exact h.agrees r' hr'
    · rw [List.mem_singleton.mp hr', hnil, hphase]
      exact Fenced.agrees_nil
  · intro r' hr'
    rcases List.mem_append.mp hr' with hr' | hr'
    · exact h.counts r' hr'
    · rw [List.mem_singleton.mp hr', hnil, hwrites]
      rfl

section Rewrite

variable {f : ρ → ρ} {id : Uuid}

/-- One row and its log change together; every other log stays. -/
theorem rewrite (h : Lanes key phase writes rows attempts) {attempts' : List Attempt}
    (hkey : ∀ r, key (f r) = key r)
    (htokens : KeyUnique Attempt.claimToken attempts')
    (hparents : ∀ a ∈ attempts', ∃ r ∈ rows, key r = a.parentId)
    (hother : ∀ i ≠ id, attemptLog attempts' i = attemptLog attempts i)
    (hself : ∀ r ∈ rows, key r = id →
      Sound .notSent 5 (attemptLog attempts' id) ∧ Agrees .notSent (phase (f r)) (attemptLog attempts' id) ∧
        (attemptLog attempts' id).countP Fenced.Entry.write = writes (f r)) :
    Lanes key phase writes (modify key id f rows) attempts' := by
  have hrow : ∀ r' ∈ modify key id f rows, Sound .notSent 5 (attemptLog attempts' (key r')) ∧
      Agrees .notSent (phase r') (attemptLog attempts' (key r')) ∧
      (attemptLog attempts' (key r')).countP Fenced.Entry.write = writes r' := by
    intro r' hr'
    rcases modify_cases hr' with ⟨hmem, hne⟩ | ⟨r, hr, rfl, rfl⟩
    · rw [hother _ hne]
      exact ⟨h.sound r' hmem, h.agrees r' hmem, h.counts r' hmem⟩
    · rw [hkey r]
      exact hself r hr rfl
  refine ⟨h.keys.modify hkey, htokens, ?_, fun r hr => (hrow r hr).1, fun r hr => (hrow r hr).2.1,
    fun r hr => (hrow r hr).2.2⟩
  intro a ha
  obtain ⟨r, hr, hk⟩ := hparents a ha
  refine ⟨if key r = id then f r else r, mem_modify.mpr ⟨r, hr, rfl⟩, ?_⟩
  split
  · rw [hkey r]
    exact hk
  · exact hk

/-- A claim: the log of the row gets an open attempt. -/
theorem claim (h : Lanes key phase writes rows attempts) {r₀ : ρ} (hmem : r₀ ∈ rows) {token : Uuid}
    {fence : Int} {kind : AttemptKind} (hkey : ∀ r, key (f r) = key r)
    (hfresh : ∀ a ∈ attempts, a.claimToken ≠ token)
    (hself : (kind = .dispatch ∧ phase r₀ = .idle ∧ writes r₀ < 5 ∧ phase (f r₀) = .writing token ∧
        writes (f r₀) = writes r₀ + 1) ∨
      (kind = .reconcile ∧ phase r₀ = .closed ∧ phase (f r₀) = .reading token ∧
        writes (f r₀) = writes r₀)) :
    Lanes key phase writes (modify key (key r₀) f rows)
      (attempts ++ [⟨token, key r₀, fence, kind, none⟩]) := by
  have hsound := h.sound r₀ hmem
  have hagrees := h.agrees r₀ hmem
  have hcount := h.counts r₀ hmem
  have hnew := @attemptLog_fresh _ (key r₀) _ hfresh
  refine h.rewrite hkey (keyUnique_concat.mpr ⟨h.tokens, hfresh⟩) ?_ ?_ ?_
  · intro a ha
    rcases List.mem_append.mp ha with ha | ha
    · exact h.parents a ha
    · rw [List.mem_singleton.mp ha]
      exact ⟨r₀, hmem, rfl⟩
  · intro i hi
    exact attemptLog_concat_ne (Ne.symm hi)
  · intro r hr hrid
    obtain rfl : r = r₀ := h.keys.eq_of_key hr hmem hrid
    rw [attemptLog_concat_self rfl]
    rcases hself with ⟨rfl, hidle, hlt, hphase, hwrites⟩ | ⟨rfl, hclosed, hphase, hwrites⟩
    · rw [hidle] at hagrees
      have hstep : Fenced.Step AttemptOutcome.notSent 5 _ _ := .write token _ hnew
        (by rw [hcount]; exact hlt)
      obtain ⟨hs, ha⟩ := hstep.sound hsound hagrees
      rw [hphase, hwrites, ← hcount]
      exact ⟨hs, ha, by simp [Attempt.entry, List.countP_append]⟩
    · rw [hclosed] at hagrees
      have hstep : Fenced.Step AttemptOutcome.notSent 5 _ _ := .read token _ hnew
      obtain ⟨hs, ha⟩ := hstep.sound hsound hagrees
      rw [hphase, hwrites, ← hcount]
      exact ⟨hs, ha, by simp [Attempt.entry, List.countP_append]⟩

/-- The open attempt of a row that is worked on. -/
theorem open_parent (h : Lanes key phase writes rows attempts) {r₀ : ρ} (hmem : r₀ ∈ rows)
    {token : Uuid} (hphase : phase r₀ = .writing token ∨ phase r₀ = .reading token) :
    ∃ a ∈ attempts, a.claimToken = token ∧ a.parentId = key r₀ ∧ a.outcome = none := by
  have hagrees := h.agrees r₀ hmem
  obtain ⟨w, l, hl⟩ : ∃ w l, attemptLog attempts (key r₀) = l ++ [⟨token, w, none⟩] := by
    rcases hphase with hp | hp
    · rw [hp] at hagrees
      exact ⟨true, hagrees⟩
    · rw [hp] at hagrees
      exact ⟨false, hagrees⟩
  have hlast : (⟨token, w, none⟩ : Fenced.Entry Uuid AttemptOutcome) ∈ attemptLog attempts (key r₀) := by
    rw [hl]
    simp
  obtain ⟨a, ha, hparent, hentry⟩ := mem_attemptLog.mp hlast
  refine ⟨a, ha, congrArg Fenced.Entry.token hentry, hparent, congrArg Fenced.Entry.outcome hentry⟩

/-- The end of an attempt: the open attempt of the row gets its outcome. -/
theorem settle (h : Lanes key phase writes rows attempts) {r₀ : ρ} (hmem : r₀ ∈ rows) {token : Uuid}
    {outcome : AttemptOutcome} (hkey : ∀ r, key (f r) = key r) (hwrites : writes (f r₀) = writes r₀)
    (hphase : phase r₀ = .writing token ∨ phase r₀ = .reading token)
    (hself : phase (f r₀) = .closed ∨
      phase (f r₀) = .idle ∧ phase r₀ = .writing token ∧ outcome = .notSent) :
    Lanes key phase writes (modify key (key r₀) f rows) (recordOutcome token outcome attempts) := by
  obtain ⟨a₀, ha₀, htoken₀, hparent₀, -⟩ := h.open_parent hmem hphase
  have hsound := h.sound r₀ hmem
  have hagrees := h.agrees r₀ hmem
  have hcount := h.counts r₀ hmem
  refine h.rewrite hkey (h.tokens.modify fun a => by split <;> rfl) ?_ ?_ ?_
  · intro a ha
    obtain ⟨b, hb, rfl⟩ := mem_modify.mp ha
    obtain ⟨r, hr, hk⟩ := h.parents b hb
    refine ⟨r, hr, hk.trans ?_⟩
    split
    · split <;> rfl
    · rfl
  · intro i hi
    rw [attemptLog_recordOutcome]
    apply modify_of_absent
    intro e he heq
    obtain ⟨b, hb, hparent, rfl⟩ := mem_attemptLog.mp he
    obtain rfl : b = a₀ := h.tokens.eq_of_key hb ha₀ (heq.trans htoken₀.symm)
    exact hi (hparent.symm.trans hparent₀)
  · intro r hr hrid
    obtain rfl : r = r₀ := h.keys.eq_of_key hr hmem hrid
    rw [attemptLog_recordOutcome]
    have hlog : (Fenced.record token outcome (attemptLog attempts (key r))).countP Fenced.Entry.write =
        writes (f r) := by
      rw [Fenced.countP_write_record, hcount, hwrites]
    rcases hself with hclosed | ⟨hidle, hwriting, rfl⟩
    · have hstep : Fenced.Step AttemptOutcome.notSent 5 _ _ :=
        .answer (phase r) token outcome (attemptLog attempts (key r)) hphase
      obtain ⟨hs, ha⟩ := hstep.sound hsound hagrees
      rw [hclosed]
      exact ⟨hs, ha, hlog⟩
    · rw [hwriting] at hagrees
      have hstep : Fenced.Step AttemptOutcome.notSent 5 _ _ :=
        .spend token (attemptLog attempts (key r))
      obtain ⟨hs, ha⟩ := hstep.sound hsound hagrees
      rw [hidle]
      exact ⟨hs, ha, hlog⟩

/-- A change of a row that its log does not see. -/
theorem relabel (h : Lanes key phase writes rows attempts) (hkey : ∀ r, key (f r) = key r)
    (hself : ∀ r ∈ rows, key r = id → writes (f r) = writes r ∧
      (phase (f r) = phase r ∨ phase r = .idle ∧ phase (f r) = .closed)) :
    Lanes key phase writes (modify key id f rows) attempts := by
  refine h.rewrite hkey h.tokens h.parents (fun _ _ => rfl) ?_
  rintro r hr rfl
  obtain ⟨hwrites, hphase⟩ := hself r hr rfl
  have hagrees := h.agrees r hr
  refine ⟨h.sound r hr, ?_, (h.counts r hr).trans hwrites.symm⟩
  rcases hphase with hsame | ⟨hidle, hclosed⟩
  · rw [hsame]
    exact hagrees
  · rw [hclosed]
    rw [hidle] at hagrees
    exact fun e he => Fenced.Entry.isSome_of_spent (hagrees e he)

end Rewrite

/-- The attempts on a row that is idle all ended with nothing sent. -/
theorem spent_of_idle (h : Lanes key phase writes rows attempts) {r : ρ} (hr : r ∈ rows)
    (hidle : phase r = .idle) {a : Attempt} (ha : a ∈ attempts) (hparent : a.parentId = key r) :
    a.kind = .dispatch ∧ a.outcome = some .notSent := by
  have hagrees := h.agrees r hr
  rw [hidle] at hagrees
  have hspent := hagrees a.entry (mem_attemptLog.mpr ⟨a, ha, hparent, rfl⟩)
  obtain ⟨hwrite, houtcome⟩ := Fenced.Entry.spent_iff.mp hspent
  exact ⟨of_decide_eq_true hwrite, houtcome⟩

end Lanes

/-! ## What an event leaves of a journal -/

/-- Rows go on or are new, attempts stay, and an outcome is an old one, the one a lost lease leaves, or
one that the event closes its attempt with. -/
structure Grows {ρ : Type} (next : ρ → ρ → Prop) (fresh : ρ → Prop)
    (closes : Uuid → AttemptOutcome → Prop) (rows rows' : List ρ) (attempts attempts' : List Attempt) :
    Prop extends Follows next fresh rows rows' where
  extend : AttemptsExtend attempts attempts'
  recorded : ∀ a' ∈ attempts', ∀ o, a'.outcome = some o →
    (∃ a ∈ attempts, a.claimToken = a'.claimToken ∧ a.outcome = some o) ∨ o = .unknown ∨
      closes a'.claimToken o

namespace Grows

variable {ρ : Type} {next : ρ → ρ → Prop} {fresh : ρ → Prop} {closes : Uuid → AttemptOutcome → Prop}
  {rows rows' rows'' : List ρ} {attempts attempts' attempts'' : List Attempt}

/-- The rows change, and no attempt. -/
theorem relabel (h : Follows next fresh rows rows') :
    Grows next fresh closes rows rows' attempts attempts :=
  ⟨h, .refl _, fun a ha _ ho => .inl ⟨a, ha, rfl, ho⟩⟩

theorem refl (hrefl : ∀ r, next r r) : Grows next fresh closes rows rows attempts attempts :=
  .relabel (.refl hrefl rows)

theorem trans (htrans : ∀ r r' r'', next r r' → next r' r'' → next r r'')
    (h : Grows next fresh closes rows rows' attempts attempts')
    (h' : Grows next fresh closes rows' rows'' attempts' attempts'') :
    Grows next fresh closes rows rows'' attempts attempts'' := by
  refine ⟨h.toFollows.trans htrans h'.toFollows, h.extend.trans h'.extend, fun a'' ha'' o ho => ?_⟩
  rcases h'.recorded a'' ha'' o ho with ⟨a', ha', htoken', ho'⟩ | hrest
  · rcases h.recorded a' ha' o ho' with ⟨a, ha, htoken, hbefore⟩ | hunknown | hcloses
    · exact .inl ⟨a, ha, htoken.trans htoken', hbefore⟩
    · exact .inr (.inl hunknown)
    · exact .inr (.inr (htoken' ▸ hcloses))
  · exact .inr hrest

/-- A claim adds an open attempt. -/
theorem claim (h : Follows next fresh rows rows') {a : Attempt} (hopen : a.outcome = none)
    (hspent : a.kind = .dispatch → ∀ b ∈ attempts, b.parentId = a.parentId → b.outcome = some .notSent) :
    Grows next fresh closes rows rows' attempts (attempts ++ [a]) := by
  refine ⟨h, .concat hspent, fun a' ha' o ho => ?_⟩
  rcases List.mem_append.mp ha' with hmem | hnew
  · exact .inl ⟨a', hmem, rfl, ho⟩
  · rw [List.mem_singleton.mp hnew, hopen] at ho
    cases ho

/-- The open attempt under a token gets its outcome. -/
theorem record (h : Follows next fresh rows rows') {token : Uuid} {outcome : AttemptOutcome}
    (hcloses : outcome = .unknown ∨ closes token outcome) :
    Grows next fresh closes rows rows' attempts (recordOutcome token outcome attempts) := by
  refine ⟨h, .record _ _ _, fun a' ha' o ho => ?_⟩
  obtain ⟨a, ha, hfixed, hsame | ⟨htoken, -, rfl⟩⟩ := recordOutcome_traced ha' ho
  · exact .inl ⟨a, ha, (Attempt.of_fixed hfixed).1.symm, hsame⟩
  · rw [(Attempt.of_fixed hfixed).1, htoken]
    exact .inr hcloses

end Grows

/-! ## Claims that were handed out -/

/-- The attempt under a token is recorded as not sent. -/
def Unsent (attempts : List Attempt) (token : Uuid) : Prop :=
  ∃ a ∈ attempts, a.claimToken = token ∧ a.outcome = some .notSent

/-- Every claim has its attempt, and one that writes was handed out when all before it on its row were
not sent. -/
structure Handed {α : Type} (token parent : α → Uuid) (reads : α → Bool) (claims : List α)
    (attempts : List Attempt) : Prop where
  tokens : KeyUnique token claims
  recorded : ∀ c ∈ claims, ∃ a ∈ attempts, a.claimToken = token c ∧ a.parentId = parent c ∧
    a.kind = if reads c then .reconcile else .dispatch
  ordered : claims.Pairwise fun c c' => parent c = parent c' → reads c' = false →
    Unsent attempts (token c)

theorem Unsent.extend {attempts attempts' : List Attempt} {token : Uuid} (h : Unsent attempts token)
    (hext : AttemptsExtend attempts attempts') : Unsent attempts' token := by
  obtain ⟨a, ha, htoken, ho⟩ := h
  obtain ⟨a', ha', hfixed, hkept⟩ := hext.kept a ha
  exact ⟨a', ha', (Attempt.of_fixed hfixed).1.trans htoken, hkept _ ho⟩

namespace Handed

variable {α : Type} {token parent : α → Uuid} {reads : α → Bool} {claims : List α}
  {attempts attempts' : List Attempt}

theorem empty : Handed token parent reads [] attempts :=
  ⟨.nil, fun _ h => absurd h List.not_mem_nil, .nil⟩

theorem extend (h : Handed token parent reads claims attempts)
    (hext : AttemptsExtend attempts attempts') : Handed token parent reads claims attempts' := by
  refine ⟨h.tokens, fun c hc => ?_,
    h.ordered.imp fun hspent hparent hwrites => (hspent hparent hwrites).extend hext⟩
  obtain ⟨a, ha, htoken, hparent, hkind⟩ := h.recorded c hc
  obtain ⟨a', ha', hfixed, -⟩ := hext.kept a ha
  obtain ⟨htoken', hparent', -, hkind'⟩ := Attempt.of_fixed hfixed
  exact ⟨a', ha', htoken'.trans htoken, hparent'.trans hparent, hkind'.trans hkind⟩

/-- A claim is handed out under a new token; one that writes, when all attempts on its row are spent. -/
theorem grant (h : Handed token parent reads claims attempts) (hext : AttemptsExtend attempts attempts')
    {c : α} (hfresh : ∀ a ∈ attempts, a.claimToken ≠ token c)
    (hattempt : ∃ a ∈ attempts', a.claimToken = token c ∧ a.parentId = parent c ∧
      a.kind = if reads c then .reconcile else .dispatch)
    (hspent : reads c = false → ∀ a ∈ attempts, a.parentId = parent c →
      a.outcome = some .notSent) :
    Handed token parent reads (claims ++ [c]) attempts' := by
  have hold := h.extend hext
  refine ⟨keyUnique_concat.mpr ⟨h.tokens, fun c' hc' heq => ?_⟩, fun c' hc' => ?_, ?_⟩
  · obtain ⟨a, ha, htoken, -⟩ := h.recorded c' hc'
    exact hfresh a ha (htoken.trans heq)
  · rcases List.mem_append.mp hc' with hc' | hc'
    · exact hold.recorded c' hc'
    · rw [List.mem_singleton.mp hc']
      exact hattempt
  · refine List.pairwise_append.mpr ⟨hold.ordered, List.pairwise_singleton _ _, fun c' hc' x hx => ?_⟩
    rw [List.mem_singleton.mp hx]
    intro hparent hwrites
    obtain ⟨a, ha, htoken, hparent', -⟩ := h.recorded c' hc'
    exact Unsent.extend ⟨a, ha, htoken, hspent hwrites a ha (hparent'.trans hparent)⟩ hext

/-- At most five claims that write are handed out on one row. -/
theorem limited {ρ : Type} {key : ρ → Uuid} {phase : ρ → Phase Uuid} {writes : ρ → Nat} {rows : List ρ}
    (h : Handed token parent reads claims attempts) (hlanes : Lanes key phase writes rows attempts)
    (id : Uuid) : (claims.filter fun c => parent c = id ∧ reads c = false).length ≤ 5 := by
  let written := claims.filter fun c => parent c = id ∧ reads c = false
  by_cases hempty : written = []
  · show written.length ≤ 5
    rw [hempty]
    exact Nat.zero_le _
  have hrecorded : ∀ c ∈ written, ∃ a ∈ attempts, a.claimToken = token c ∧ a.parentId = id ∧
      a.kind = .dispatch := by
    intro c hc
    obtain ⟨hmem, hwrites⟩ := List.mem_filter.mp hc
    obtain ⟨hparent, hwrites⟩ := of_decide_eq_true hwrites
    obtain ⟨a, ha, htoken, hparent', hkind⟩ := h.recorded c hmem
    rw [hwrites] at hkind
    exact ⟨a, ha, htoken, hparent'.trans hparent, hkind⟩
  obtain ⟨c, hc⟩ := List.exists_mem_of_ne_nil _ hempty
  obtain ⟨a, ha, -, hparent, -⟩ := hrecorded c hc
  obtain ⟨r, hr, hkey⟩ := hlanes.parents a ha
  have hbound := (hlanes.sound r hr).bound
  rw [hkey.trans hparent, List.countP_eq_length_filter] at hbound
  have hnodup : (written.map token).Nodup := h.tokens.sublist (List.filter_sublist.map token)
  have hsub : written.map token ⊆ ((attemptLog attempts id).filter Fenced.Entry.write).map Fenced.Entry.token := by
    intro t ht
    obtain ⟨c, hc, rfl⟩ := List.mem_map.mp ht
    obtain ⟨a, ha, htoken, hparent, hkind⟩ := hrecorded c hc
    refine List.mem_map.mpr ⟨a.entry, List.mem_filter.mpr ⟨mem_attemptLog.mpr ⟨a, ha, hparent, rfl⟩, ?_⟩,
      htoken⟩
    exact decide_eq_true hkind
  have hle := (List.subperm_of_subset hnodup hsub).length_le
  rw [List.length_map, List.length_map] at hle
  exact hle.trans hbound

end Handed

end ShaponTravels.Identity
