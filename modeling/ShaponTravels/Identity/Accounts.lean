import ShaponTravels.Identity.Statements
import ShaponTravels.Identity.Journals

/-!
# Accounts — creations and deletions at the provider

The journal of creations and the one of deletions are lanes of attempts.  From the moves of an event:
a write is granted only on a row whose attempts were all dispatches that the provider never got, and
a row ends only by a confirmation of its own.
-/

namespace ShaponTravels.Identity

open Library
open Library.Fenced (Phase)

variable {p : Platform} {ev : Event} {now : Int}

/-! ## Creations -/

/-- What the state of a creation says about its attempts. -/
def CreateState.phase : CreateState → Phase Uuid
  | .prepared | .cancelled => .idle
  | .dispatching l => .writing l.token
  | .reconciling l => .reading l.token
  | .needsReconciliation | .providerConfirmed _ | .completed _ => .closed

/-- How a creation goes on. -/
structure Create.Next (p : Platform) (ev : Event) (r r' : Create) : Prop where
  fixed : r'.fixed = r.fixed
  ended : r.state.isOpen = false → r' = r
  confirmed : ∀ subject, r'.clerkUserId = some subject → r.clerkUserId = some subject ∨
    ∃ claim result now, ev = .finishCreate claim result now ∧ claim.operationId = r.id ∧
      claim.confirmed p result = some subject
  completed : ∀ clerk, r'.state = .completed clerk → r.state = .completed clerk ∨
    ∃ subject verified draw now, ev = .request (.finalizeCreate subject r.id clerk verified draw) now

theorem Create.Next.refl (r : Create) : r.Next p ev r :=
  ⟨rfl, fun _ => rfl, fun _ h => .inl h, fun _ h => .inl h⟩

theorem Create.Next.trans {r r' r'' : Create} (h : r.Next p ev r') (h' : r'.Next p ev r'') :
    r.Next p ev r'' := by
  have hid : r'.id = r.id := (Create.of_fixed h.fixed).1
  refine ⟨h'.fixed.trans h.fixed, fun hended => ?_, fun subject hsubject => ?_, fun clerk hclerk => ?_⟩
  · obtain rfl := h.ended hended
    exact h'.ended hended
  · rcases h'.confirmed subject hsubject with hbefore | ⟨claim, result, now, hev, hclaim, hconfirmed⟩
    · exact h.confirmed subject hbefore
    · exact .inr ⟨claim, result, now, hev, hclaim.trans hid, hconfirmed⟩
  · rcases h'.completed clerk hclerk with hbefore | ⟨subject, verified, draw, now, hev⟩
    · exact h.completed clerk hbefore
    · exact .inr ⟨subject, verified, draw, now, by rw [hev, hid]⟩

namespace Creates

/-- The attempts agree with the rows, and no two rows are about one new user. -/
structure Sound (c : Creates) : Prop where
  lanes : Lanes Create.id (fun r => r.state.phase) Create.attempts c.rows c.attempts
  users : KeyUnique Create.userId c.rows
  subUsers : ∀ r ∈ c.rows, r.agencyId.isSome → r.role = .b2bSub

theorem sound_empty : Sound ⟨[], []⟩ := ⟨.empty, .nil, fun _ h => absurd h List.not_mem_nil⟩

/-- What an event leaves of the journal. -/
abbrev Extends (p : Platform) (ev : Event) (c c' : Creates) : Prop :=
  Grows (Create.Next p ev) (fun r => r.state = .prepared)
    (fun token o => ∃ claim result now, ev = .finishCreate claim result now ∧ claim.token = token ∧
      claim.outcome p result = o) c.rows c'.rows c.attempts c'.attempts

variable {c c' : Creates}

theorem lease_of_holds {r : Create} {claim : CreateClaim} (h : claim.holds r now) :
    r.fence = claim.fence ∧ ∃ l, l.token = claim.token ∧ now < l.leaseUntil ∧
      (r.state = .dispatching l ∧ claim.reconcile = false ∨
        r.state = .reconciling l ∧ claim.reconcile = true) := by
  simp only [CreateClaim.holds, Bool.and_eq_true, decide_eq_true_eq] at h
  obtain ⟨hfence, h⟩ := h
  refine ⟨hfence, ?_⟩
  split at h
  · rename_i l hstate
    simp only [Bool.and_eq_true, Bool.not_eq_true', decide_eq_true_eq] at h
    exact ⟨l, h.1.2, h.2, .inl ⟨hstate, h.1.1⟩⟩
  · rename_i l hstate
    simp only [Bool.and_eq_true, decide_eq_true_eq] at h
    exact ⟨l, h.1.2, h.2, .inr ⟨hstate, h.1.1⟩⟩
  · cases h

/-- Where a result leaves a creation. -/
theorem resultState_cases (attempts : Nat) (confirmed : Option String) (outcome : AttemptOutcome) :
    (∃ subject, confirmed = some subject ∧
      (createResultState attempts confirmed outcome).1 = .providerConfirmed subject) ∨
    outcome = .notSent ∧ ((createResultState attempts confirmed outcome).1 = .prepared ∨
      (createResultState attempts confirmed outcome).1 = .cancelled) ∨
    (createResultState attempts confirmed outcome).1 = .needsReconciliation := by
  cases confirmed with
  | some subject => exact .inl ⟨subject, rfl, rfl⟩
  | none =>
    cases outcome with
    | notSent =>
      refine .inr (.inl ⟨rfl, ?_⟩)
      rw [createResultState]
      split
      · exact .inl rfl
      · exact .inr rfl
    | confirmed | unknown => exact .inr (.inr rfl)

/-- A new row of the journal starts with an empty log. -/
theorem Sound.insert (h : c.Sound) {r : Create} (hid : ∀ r' ∈ c.rows, r'.id ≠ r.id)
    (huser : ∀ r' ∈ c.rows, r'.userId ≠ r.userId) (hstate : r.state = .prepared) (hattempts : r.attempts = 0)
    (hagency : r.agencyId.isSome → r.role = .b2bSub) : Sound { c with rows := c.rows ++ [r] } := by
  refine ⟨h.lanes.insert hid (by rw [hstate]; rfl) hattempts, keyUnique_concat.mpr ⟨h.users, huser⟩, ?_⟩
  intro r' hr'
  rcases List.mem_append.mp hr' with hr' | hr'
  · exact h.subUsers r' hr'
  · rw [List.mem_singleton.mp hr']
    exact hagency

/-- One row and its attempts are rewritten. -/
theorem Sound.rewrite (h : c.Sound) {id : Uuid} {f : Create → Create} {attempts : List Attempt}
    (hfixed : ∀ r, (f r).fixed = r.fixed)
    (hlanes : Lanes Create.id (fun r => r.state.phase) Create.attempts (c.update id f).rows attempts) :
    Sound { c.update id f with attempts := attempts } := by
  refine ⟨hlanes, ?_, fun r' hr' => ?_⟩
  · show (List.map Create.userId (modify Create.id id f c.rows)).Nodup
    rw [map_modify fun r => (Create.of_fixed (hfixed r)).2.2.1]
    exact h.users
  rcases modify_cases hr' with ⟨hmem, -⟩ | ⟨r, hr, -, rfl⟩
  · exact h.subUsers r' hmem
  · obtain ⟨-, -, -, -, -, hrole, hagency, -⟩ := Create.of_fixed (hfixed r)
    rw [hrole, hagency]
    exact h.subUsers r hr

theorem Move.sound (h : Move p ev c c') (hsound : c.Sound) : c'.Sound := by
  cases h with
  | insert r hid huser hstate hattempts hagency => exact hsound.insert hid huser hstate hattempts hagency
  | recover now r hr =>
    rw [Creates.recover]
    split
    · rename_i l hstate
      split
      · exact hsound.rewrite (fun _ => rfl)
          (hsound.lanes.settle hr (fun _ => rfl) rfl (.inl (by rw [hstate]; rfl)) (.inl rfl))
      · exact hsound
    · rename_i l hstate
      split
      · exact hsound.rewrite (fun _ => rfl)
          (hsound.lanes.settle hr (fun _ => rfl) rfl (.inr (by rw [hstate]; rfl)) (.inl rfl))
      · exact hsound
    · exact hsound
  | take now r reconcile token hr hstate hlimit hfresh =>
    refine hsound.rewrite (fun _ => rfl) (hsound.lanes.claim hr (fun _ => rfl) hfresh ?_)
    cases reconcile with
    | false => exact .inl ⟨rfl, by rw [hstate]; rfl, hlimit rfl, rfl, rfl⟩
    | true => exact .inr ⟨rfl, by rw [hstate]; rfl, rfl, rfl⟩
  | finish now r claim result hr hid hholds hunique hev =>
    obtain ⟨-, l, htoken, -, hkind⟩ := lease_of_holds hholds
    have hphase : r.state.phase = .writing claim.token ∨ r.state.phase = .reading claim.token := by
      rcases hkind with ⟨hstate, -⟩ | ⟨hstate, -⟩
      · exact .inl (by rw [hstate, ← htoken]; rfl)
      · exact .inr (by rw [hstate, ← htoken]; rfl)
    refine hsound.rewrite (fun _ => rfl) (hsound.lanes.settle hr (fun _ => rfl) rfl hphase ?_)
    rcases resultState_cases r.attempts (claim.confirmed p result) (claim.outcome p result) with
      ⟨subject, -, hstate'⟩ | ⟨hspent, hstate'⟩ | hstate'
    · exact .inl (by rw [hstate']; rfl)
    · refine .inr ⟨?_, ?_, hspent⟩
      · rcases hstate' with hstate' | hstate' <;> rw [hstate'] <;> rfl
      · rcases hkind with ⟨hstate, -⟩ | ⟨-, hread⟩
        · rw [hstate, ← htoken]
          rfl
        · rw [CreateClaim.outcome_notSent hspent] at hread
          cases hread
    · exact .inl (by rw [hstate']; rfl)
  | cancel r hr hstate =>
    refine hsound.rewrite (fun _ => rfl) (hsound.lanes.relabel (fun _ => rfl) ?_)
    intro r' hr' hid
    obtain rfl := hsound.lanes.keys.eq_of_key hr' hr hid
    exact ⟨rfl, .inl (by rw [hstate]; rfl)⟩
  | complete r clerk hr hstate hev =>
    refine hsound.rewrite (fun _ => rfl) (hsound.lanes.relabel (fun _ => rfl) ?_)
    intro r' hr' hid
    obtain rfl := hsound.lanes.keys.eq_of_key hr' hr hid
    exact ⟨rfl, .inl (by rw [hstate]; rfl)⟩

/-- A row that is open goes on. -/
theorem next_of_open {r r' : Create} (hfixed : r'.fixed = r.fixed) (hopen : r.state.isOpen)
    (hconfirmed : ∀ subject, r'.clerkUserId = some subject → r.clerkUserId = some subject ∨
      ∃ claim result now, ev = .finishCreate claim result now ∧ claim.operationId = r.id ∧
        claim.confirmed p result = some subject)
    (hcompleted : ∀ clerk, r'.state = .completed clerk →
      ∃ subject verified draw now, ev = .request (.finalizeCreate subject r.id clerk verified draw) now) :
    r.Next p ev r' :=
  ⟨hfixed, fun hended => absurd hopen (by simp [hended]), hconfirmed, fun clerk h => .inr (hcompleted clerk h)⟩

theorem Move.extends (h : Move p ev c c') (hsound : c.Sound) : Extends p ev c c' := by
  have hrow : ∀ {r : Create}, r ∈ c.rows → ∀ r' ∈ c.rows, r'.id = r.id → r' = r :=
    fun hr r' hr' hid => hsound.lanes.keys.eq_of_key hr' hr hid
  cases h with
  | insert r hid huser hstate hattempts hagency => exact .relabel (.concat .refl hstate)
  | recover now r hr =>
    rw [Creates.recover]
    split
    · rename_i l hstate
      split
      · refine .record (.modify .refl fun r' hr' hid => ?_) (.inl rfl)
        obtain rfl := hrow hr r' hr' hid
        exact next_of_open rfl (by rw [hstate]; rfl) (fun _ h => by cases h) (fun _ h => by cases h)
      · exact .refl .refl
    · rename_i l hstate
      split
      · refine .record (.modify .refl fun r' hr' hid => ?_) (.inl rfl)
        obtain rfl := hrow hr r' hr' hid
        exact next_of_open rfl (by rw [hstate]; rfl) (fun _ h => by cases h) (fun _ h => by cases h)
      · exact .refl .refl
    · exact .refl .refl
  | take now r reconcile token hr hstate hlimit hfresh =>
    refine .claim (.modify .refl fun r' hr' hid => ?_) rfl fun hdispatch b hb hparent => ?_
    · obtain rfl := hrow hr r' hr' hid
      cases reconcile with
      | false =>
        exact next_of_open rfl (by rw [hstate]; rfl) (fun _ h => by cases h) (fun _ h => by cases h)
      | true =>
        exact next_of_open rfl (by rw [hstate]; rfl) (fun _ h => by cases h) (fun _ h => by cases h)
    · cases reconcile with
      | false => exact (hsound.lanes.spent_of_idle hr (by rw [hstate]; rfl) hb hparent).2
      | true => cases hdispatch
  | finish now r claim result hr hid hholds hunique hev =>
    refine .record (.modify .refl fun r' hr' hrid => ?_) (.inr ⟨claim, result, now, hev, rfl, rfl⟩)
    obtain rfl := hrow hr r' hr' hrid
    obtain ⟨-, l, -, -, hkind⟩ := lease_of_holds hholds
    have hopen : r'.state.isOpen := by
      rcases hkind with ⟨hstate, -⟩ | ⟨hstate, -⟩ <;> rw [hstate] <;> rfl
    rcases resultState_cases r'.attempts (claim.confirmed p result) (claim.outcome p result) with
      ⟨clerk, hconfirmed, hstate⟩ | ⟨-, hstate | hstate⟩ | hstate
    · refine next_of_open rfl hopen (fun subject hsubject => ?_) fun _ h => ?_
      · rw [Create.clerkUserId, hstate] at hsubject
        cases hsubject
        exact .inr ⟨claim, result, now, hev, hid.symm, hconfirmed⟩
      · rw [hstate] at h
        cases h
    all_goals
      refine next_of_open rfl hopen (fun _ h => ?_) fun _ h => ?_
      · rw [Create.clerkUserId, hstate] at h
        cases h
      · rw [hstate] at h
        cases h
  | cancel r hr hstate =>
    refine .relabel (.modify .refl fun r' hr' hid => ?_)
    obtain rfl := hrow hr r' hr' hid
    exact next_of_open rfl (by rw [hstate]; rfl) (fun _ h => by cases h) (fun _ h => by cases h)
  | complete r clerk hr hstate hev =>
    refine .relabel (.modify .refl fun r' hr' hid => ?_)
    obtain rfl := hrow hr r' hr' hid
    refine next_of_open rfl (by rw [hstate]; rfl) (fun subject hsubject => .inl ?_) fun clerk' hclerk => ?_
    · rw [← hsubject, Create.clerkUserId, hstate]
      rfl
    · cases hclerk
      exact hev

theorem Moves.sound (h : Moves p ev c c') (hsound : c.Sound) : c'.Sound := by
  induction h with
  | refl => exact hsound
  | tail _ hmove ih => exact hmove.sound ih

theorem Moves.extends (h : Moves p ev c c') (hsound : c.Sound) : Extends p ev c c' := by
  induction h with
  | refl => exact .refl .refl
  | tail hmoves hmove ih =>
    exact ih.trans (fun _ _ _ => Create.Next.trans) (hmove.extends (Moves.sound hmoves hsound))

end Creates

/-! ## Deletions -/

/-- What the state of a deletion says about its attempts. -/
def DeletionState.phase : DeletionState → Phase Uuid
  | .prepared => .idle
  | .dispatching l => .writing l.token
  | .reconciling l => .reading l.token
  | .needsReconciliation | .providerConfirmed | .completed => .closed

/-- The provider has confirmed the deletion. -/
def DeletionState.gone : DeletionState → Bool
  | .providerConfirmed | .completed => true
  | _ => false

/-- How a deletion goes on. -/
structure Deletion.Next (ev : Event) (r r' : Deletion) : Prop where
  fixed : r'.fixed = r.fixed
  ended : r.state = .completed → r' = r
  confirmed : r'.state.gone → r.state.gone ∨ ∃ c result now, ev = .finishDeletion c result now ∧
    c.operationId = r.id ∧ c.outcome result = .confirmed
  completed : r'.state = .completed → r.state = .completed ∨
    ∃ subject now, ev = .request (.finalizeDeletion subject r.id) now

theorem Deletion.Next.refl (r : Deletion) : r.Next ev r :=
  ⟨rfl, fun _ => rfl, fun h => .inl h, fun h => .inl h⟩

theorem Deletion.Next.trans {r r' r'' : Deletion} (h : r.Next ev r') (h' : r'.Next ev r'') :
    r.Next ev r'' := by
  have hid : r'.id = r.id := (Deletion.of_fixed h.fixed).1
  refine ⟨h'.fixed.trans h.fixed, fun hended => ?_, fun hgone => ?_, fun hcompleted => ?_⟩
  · obtain rfl := h.ended hended
    exact h'.ended hended
  · rcases h'.confirmed hgone with hbefore | ⟨c, result, now, hev, hclaim, houtcome⟩
    · exact h.confirmed hbefore
    · exact .inr ⟨c, result, now, hev, hclaim.trans hid, houtcome⟩
  · rcases h'.completed hcompleted with hbefore | ⟨subject, now, hev⟩
    · exact h.completed hbefore
    · exact .inr ⟨subject, now, by rw [hev, hid]⟩

namespace Deletions

/-- The attempts agree with the rows, and no two rows are about one user. -/
structure Sound (x : Deletions) : Prop where
  lanes : Lanes Deletion.id (fun r => r.state.phase) Deletion.attempts x.rows x.attempts
  targets : KeyUnique Deletion.targetUserId x.rows

theorem sound_empty : Sound ⟨[], []⟩ := ⟨.empty, .nil⟩

/-- What an event leaves of the journal. -/
abbrev Extends (ev : Event) (x x' : Deletions) : Prop :=
  Grows (Deletion.Next ev) (fun r => r.state = .prepared ∧
      ∃ input now, ev = .request (.prepareDeletion input) now ∧ input.operationId = r.id)
    (fun token o => ∃ c result now, ev = .finishDeletion c result now ∧ c.token = token ∧
      c.outcome result = o) x.rows x'.rows x.attempts x'.attempts

variable {x x' : Deletions}

theorem lease_of_holds {r : Deletion} {c : DeletionClaim} (h : c.holds r now) :
    r.fence = c.fence ∧ ∃ l, l.token = c.token ∧ now < l.leaseUntil ∧
      (r.state = .dispatching l ∧ c.reconcile = false ∨ r.state = .reconciling l ∧ c.reconcile = true) := by
  simp only [DeletionClaim.holds, Bool.and_eq_true, decide_eq_true_eq] at h
  obtain ⟨hfence, h⟩ := h
  refine ⟨hfence, ?_⟩
  split at h
  · rename_i l hstate
    simp only [Bool.and_eq_true, Bool.not_eq_true', decide_eq_true_eq] at h
    exact ⟨l, h.1.2, h.2, .inl ⟨hstate, h.1.1⟩⟩
  · rename_i l hstate
    simp only [Bool.and_eq_true, decide_eq_true_eq] at h
    exact ⟨l, h.1.2, h.2, .inr ⟨hstate, h.1.1⟩⟩
  · cases h

/-- Where a result leaves a deletion. -/
theorem resultState_cases (attempts : Nat) (outcome : AttemptOutcome) :
    outcome = .confirmed ∧ (deletionResultState attempts outcome).1 = .providerConfirmed ∨
      outcome = .notSent ∧ (deletionResultState attempts outcome).1 = .prepared ∨
      (deletionResultState attempts outcome).1 = .needsReconciliation := by
  cases outcome with
  | confirmed => exact .inl ⟨rfl, rfl⟩
  | notSent =>
    rw [deletionResultState]
    split
    · exact .inr (.inl ⟨rfl, rfl⟩)
    · exact .inr (.inr rfl)
  | unknown => exact .inr (.inr rfl)

/-- A new row of the journal starts with an empty log. -/
theorem Sound.insert (h : x.Sound) {r : Deletion} (hid : ∀ r' ∈ x.rows, r'.id ≠ r.id)
    (htarget : ∀ r' ∈ x.rows, r'.targetUserId ≠ r.targetUserId) (hstate : r.state = .prepared)
    (hattempts : r.attempts = 0) : Sound { x with rows := x.rows ++ [r] } :=
  ⟨h.lanes.insert hid (by rw [hstate]; rfl) hattempts, keyUnique_concat.mpr ⟨h.targets, htarget⟩⟩

/-- One row and its attempts are rewritten. -/
theorem Sound.rewrite (h : x.Sound) {id : Uuid} {f : Deletion → Deletion} {attempts : List Attempt}
    (hfixed : ∀ r, (f r).fixed = r.fixed)
    (hlanes : Lanes Deletion.id (fun r => r.state.phase) Deletion.attempts (x.update id f).rows attempts) :
    Sound { x.update id f with attempts := attempts } := by
  refine ⟨hlanes, ?_⟩
  show (List.map Deletion.targetUserId (modify Deletion.id id f x.rows)).Nodup
  rw [map_modify fun r => (Deletion.of_fixed (hfixed r)).2.1]
  exact h.targets

theorem Move.sound (h : Move ev x x') (hsound : x.Sound) : x'.Sound := by
  cases h with
  | insert r hid htarget hstate hattempts hev => exact hsound.insert hid htarget hstate hattempts
  | recover now r hr =>
    rw [Deletions.recover]
    split
    · rename_i l hstate
      split
      · exact hsound.rewrite (fun _ => rfl)
          (hsound.lanes.settle hr (fun _ => rfl) rfl (.inl (by rw [hstate]; rfl)) (.inl rfl))
      · exact hsound
    · rename_i l hstate
      split
      · exact hsound.rewrite (fun _ => rfl)
          (hsound.lanes.settle hr (fun _ => rfl) rfl (.inr (by rw [hstate]; rfl)) (.inl rfl))
      · exact hsound
    · exact hsound
  | take now r reconcile token hr hstate hlimit hfresh =>
    refine hsound.rewrite (fun _ => rfl) (hsound.lanes.claim hr (fun _ => rfl) hfresh ?_)
    cases reconcile with
    | false => exact .inl ⟨rfl, by rw [hstate]; rfl, hlimit rfl, rfl, rfl⟩
    | true => exact .inr ⟨rfl, by rw [hstate]; rfl, rfl, rfl⟩
  | finish now r c result hr hid hholds hev =>
    obtain ⟨-, l, htoken, -, hkind⟩ := lease_of_holds hholds
    have hphase : r.state.phase = .writing c.token ∨ r.state.phase = .reading c.token := by
      rcases hkind with ⟨hstate, -⟩ | ⟨hstate, -⟩
      · exact .inl (by rw [hstate, ← htoken]; rfl)
      · exact .inr (by rw [hstate, ← htoken]; rfl)
    refine hsound.rewrite (fun _ => rfl) (hsound.lanes.settle hr (fun _ => rfl) rfl hphase ?_)
    rcases resultState_cases r.attempts (c.outcome result) with
      ⟨-, hstate'⟩ | ⟨hspent, hstate'⟩ | hstate'
    · exact .inl (by rw [hstate']; rfl)
    · refine .inr ⟨by rw [hstate']; rfl, ?_, hspent⟩
      rcases hkind with ⟨hstate, -⟩ | ⟨-, hread⟩
      · rw [hstate, ← htoken]
        rfl
      · rw [DeletionClaim.outcome_notSent hspent] at hread
        cases hread
    · exact .inl (by rw [hstate']; rfl)
  | complete r hr hstate hev =>
    refine hsound.rewrite (fun _ => rfl) (hsound.lanes.relabel (fun _ => rfl) ?_)
    intro r' hr' hid
    obtain rfl := hsound.lanes.keys.eq_of_key hr' hr hid
    exact ⟨rfl, .inl (by rw [hstate]; rfl)⟩

/-- A row that is not completed goes on without a confirmation. -/
theorem next_of_open {r r' : Deletion} (hfixed : r'.fixed = r.fixed) (hopen : r.state ≠ .completed)
    (hgone : r'.state.gone = false) : r.Next ev r' := by
  refine ⟨hfixed, fun hended => absurd hended hopen, fun h => ?_, fun h => ?_⟩
  · rw [hgone] at h
    cases h
  · rw [h] at hgone
    cases hgone

theorem Move.extends (h : Move ev x x') (hsound : x.Sound) : Extends ev x x' := by
  have hrow : ∀ {r : Deletion}, r ∈ x.rows → ∀ r' ∈ x.rows, r'.id = r.id → r' = r :=
    fun hr r' hr' hid => hsound.lanes.keys.eq_of_key hr' hr hid
  cases h with
  | insert r hid htarget hstate hattempts hev => exact .relabel (.concat .refl ⟨hstate, hev⟩)
  | recover now r hr =>
    rw [Deletions.recover]
    split
    · rename_i l hstate
      split
      · refine .record (.modify .refl fun r' hr' hid => ?_) (.inl rfl)
        obtain rfl := hrow hr r' hr' hid
        exact next_of_open rfl (by rw [hstate]; simp) rfl
      · exact .refl .refl
    · rename_i l hstate
      split
      · refine .record (.modify .refl fun r' hr' hid => ?_) (.inl rfl)
        obtain rfl := hrow hr r' hr' hid
        exact next_of_open rfl (by rw [hstate]; simp) rfl
      · exact .refl .refl
    · exact .refl .refl
  | take now r reconcile token hr hstate hlimit hfresh =>
    refine .claim (.modify .refl fun r' hr' hid => ?_) rfl fun hdispatch b hb hparent => ?_
    · obtain rfl := hrow hr r' hr' hid
      cases reconcile with
      | false => exact next_of_open rfl (by rw [hstate]; simp) rfl
      | true => exact next_of_open rfl (by rw [hstate]; simp) rfl
    · cases reconcile with
      | false => exact (hsound.lanes.spent_of_idle hr (by rw [hstate]; rfl) hb hparent).2
      | true => cases hdispatch
  | finish now r c result hr hid hholds hev =>
    refine .record (.modify .refl fun r' hr' hrid => ?_) (.inr ⟨c, result, now, hev, rfl, rfl⟩)
    obtain rfl := hrow hr r' hr' hrid
    obtain ⟨-, l, -, -, hkind⟩ := lease_of_holds hholds
    have hopen : r'.state ≠ .completed := by
      rcases hkind with ⟨hstate, -⟩ | ⟨hstate, -⟩ <;> rw [hstate] <;> simp
    rcases resultState_cases r'.attempts (c.outcome result) with
      ⟨hconfirmed, hstate⟩ | ⟨-, hstate⟩ | hstate
    · refine ⟨rfl, fun hended => absurd hended hopen, fun _ => .inr ⟨c, result, now, hev, hid.symm,
        hconfirmed⟩, fun h => ?_⟩
      rw [hstate] at h
      cases h
    · exact next_of_open rfl hopen (by rw [hstate]; rfl)
    · exact next_of_open rfl hopen (by rw [hstate]; rfl)
  | complete r hr hstate hev =>
    refine .relabel (.modify .refl fun r' hr' hid => ?_)
    obtain rfl := hrow hr r' hr' hid
    refine ⟨rfl, fun hended => ?_, fun _ => .inl (by rw [hstate]; rfl), fun _ => .inr hev⟩
    rw [hstate] at hended
    cases hended

theorem Moves.sound (h : Moves ev x x') (hsound : x.Sound) : x'.Sound := by
  induction h with
  | refl => exact hsound
  | tail _ hmove ih => exact hmove.sound ih

theorem Moves.extends (h : Moves ev x x') (hsound : x.Sound) : Extends ev x x' := by
  induction h with
  | refl => exact .refl .refl
  | tail hmoves hmove ih =>
    exact ih.trans (fun _ _ _ => Deletion.Next.trans) (hmove.extends (Moves.sound hmoves hsound))

end Deletions

end ShaponTravels.Identity
