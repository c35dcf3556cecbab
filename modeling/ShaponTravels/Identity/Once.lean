import ShaponTravels.Identity.Registered

/-!
# Once — accounts are created and deleted at the provider at most once

The claims that were handed out agree with the attempts of their rows.  From this, for whole runs: who
recorded that nothing was sent, where a confirmation comes from, and the one transition that ends a
creation or a deletion.
-/

namespace ShaponTravels.Identity

open Library

variable {desk : Desk} {s₀ s s' : System} {ev : Event} {t : List (Transition System Event)}

/-! ## Claims -/

structure Claimed (s : System) : Prop extends Registered s where
  creating : Handed CreateClaim.token CreateClaim.operationId CreateClaim.reconcile s.createClaims
    s.db.creates.attempts
  deleting : Handed DeletionClaim.token DeletionClaim.operationId DeletionClaim.reconcile
    s.deletionClaims s.db.deletions.attempts

/-- What a step hands out on a creation that is prepared comes after attempts that were not sent. -/
theorem Claimed.step (h : Claimed s) (hs : s.step desk ev = .ok s') : Claimed s' := by
  have hcreates := ((step_creates hs).extends h.creates).extend
  have hdeletions := ((step_deletions hs).extends h.deletions).extend
  refine ⟨h.toRegistered.step hs, ?_, ?_⟩
  · obtain hsame | ⟨c, hnew, hfresh, hattempt, r, hr, hid, -, hprepared⟩ := step_createClaims h.creates hs
    · rw [hsame]
      exact h.creating.extend hcreates
    · rw [hnew]
      refine h.creating.grant hcreates hfresh hattempt fun hwrites a ha hparent => ?_
      have hidle : r.state.phase = .idle := by rw [(hprepared hwrites).1]; rfl
      exact (h.creates.lanes.spent_of_idle hr hidle ha (hparent.trans hid.symm)).2
  · obtain hsame | ⟨c, hnew, hfresh, hattempt, r, hr, hid, -, hprepared⟩ := step_deletionClaims h.deletions hs
    · rw [hsame]
      exact h.deleting.extend hdeletions
    · rw [hnew]
      refine h.deleting.grant hdeletions hfresh hattempt fun hwrites a ha hparent => ?_
      have hidle : r.state.phase = .idle := by rw [(hprepared hwrites).1]; rfl
      exact (h.deletions.lanes.spent_of_idle hr hidle ha (hparent.trans hid.symm)).2

theorem claimed_of_reachable (h : (machine desk).Reachable s) : Claimed s := by
  refine h.invariant ?_ fun _ _ _ h hs => h.step hs
  rintro _ ⟨business, -, rfl⟩
  exact ⟨registered_start business, .empty, .empty⟩

/-- A claim that was handed out stays. -/
theorem createClaims_run (h : (machine desk).Run s t s') (hclaimed : Claimed s) {c : CreateClaim}
    (hc : c ∈ s.createClaims) : c ∈ s'.createClaims := by
  refine (h.invariant (I := fun s => Claimed s ∧ c ∈ s.createClaims) ?_ ⟨hclaimed, hc⟩).2
  rintro s i s' ⟨hclaimed, hc⟩ hs
  refine ⟨hclaimed.step hs, ?_⟩
  obtain hsame | ⟨c', hnew, -⟩ := step_createClaims hclaimed.creates hs
  · rw [hsame]
    exact hc
  · rw [hnew]
    exact List.mem_append_left _ hc

theorem deletionClaims_run (h : (machine desk).Run s t s') (hclaimed : Claimed s) {c : DeletionClaim}
    (hc : c ∈ s.deletionClaims) : c ∈ s'.deletionClaims := by
  refine (h.invariant (I := fun s => Claimed s ∧ c ∈ s.deletionClaims) ?_ ⟨hclaimed, hc⟩).2
  rintro s i s' ⟨hclaimed, hc⟩ hs
  refine ⟨hclaimed.step hs, ?_⟩
  obtain hsame | ⟨c', hnew, -⟩ := step_deletionClaims hclaimed.deletions hs
  · rw [hsame]
    exact hc
  · rw [hnew]
    exact List.mem_append_left _ hc

/-- The transition records a result of a claim that holds the live lease of its row. -/
def CreateClaim.records (q : Transition System Event) (c : CreateClaim) (result : CreateResult) : Prop :=
  ∃ now, q.label = .finishCreate c result now ∧ ∃ r ∈ q.before.db.creates.rows, r.id = c.operationId ∧
    c.holds r now

def DeletionClaim.records (q : Transition System Event) (c : DeletionClaim) (result : DeletionResult) :
    Prop :=
  ∃ now, q.label = .finishDeletion c result now ∧ ∃ r ∈ q.before.db.deletions.rows,
    r.id = c.operationId ∧ c.holds r now

/-- A result is of a claim that was handed out; without the live lease it changes nothing. -/
theorem step_finishCreate {c : CreateClaim} {result : CreateResult} {now : Int}
    (hs : s.step desk (.finishCreate c result now) = .ok s') : c ∈ s.createClaims ∧
      (s'.db = s.db ∨ ∃ r ∈ s.db.creates.rows, r.id = c.operationId ∧ c.holds r now) := by
  simp only [System.step, bind_eq_ok, ensure_eq_ok, pure_eq_ok] at hs
  obtain ⟨-, hc, db, hfinish, rfl⟩ := hs
  obtain rfl | ⟨r, hr, hholds, -⟩ := finishCreate_ok hfinish
  · exact ⟨hc, .inl rfl⟩
  · exact ⟨hc, .inr ⟨r, lookup_mem hr, lookup_key hr, hholds⟩⟩

theorem step_finishDeletion {c : DeletionClaim} {result : DeletionResult} {now : Int}
    (hs : s.step desk (.finishDeletion c result now) = .ok s') : c ∈ s.deletionClaims ∧
      (s'.db = s.db ∨ ∃ r ∈ s.db.deletions.rows, r.id = c.operationId ∧ c.holds r now) := by
  simp only [System.step, bind_eq_ok, ensure_eq_ok, pure_eq_ok] at hs
  obtain ⟨-, hc, db, hfinish, rfl⟩ := hs
  obtain rfl | ⟨r, b, hr, hholds, -⟩ := finishDeletion_ok hfinish
  · exact ⟨hc, .inl rfl⟩
  · exact ⟨hc, .inr ⟨r, lookup_mem hr, lookup_key hr, hholds⟩⟩

/-- That nothing was sent is recorded by the claim itself, while it holds the live lease. -/
theorem createClaim_unsent (hinit : (machine desk).init s₀) (h : (machine desk).Run s₀ t s) {c : CreateClaim}
    (hc : c ∈ s.createClaims) (hunsent : Unsent s.db.creates.attempts c.token) :
    ∃ q ∈ t, ∃ result, c.records q result ∧ c.outcome desk.platform result = .notSent := by
  have hstart : ¬ Unsent s₀.db.creates.attempts c.token := by
    obtain ⟨business, -, rfl⟩ := hinit
    rintro ⟨a, ha, -⟩
    exact absurd ha List.not_mem_nil
  have hend := claimed_of_reachable ⟨s₀, t, hinit, h⟩
  obtain ⟨t₁, q, t₂, rfl, hbefore, hstep, hafter, hnot, ⟨a', ha', htoken, ho⟩, -⟩ := h.since
    (P := fun s => Unsent s.db.creates.attempts c.token) hstart hunsent
  have hclaimed := claimed_of_reachable ⟨s₀, t₁, hinit, hbefore⟩
  obtain ⟨a, ha, htoken', hbefore'⟩ | hunknown | ⟨claim, result, now, hev, hclaim, houtcome⟩ :=
    ((step_creates hstep).extends hclaimed.creates).recorded a' ha' _ ho
  · exact absurd ⟨a, ha, htoken'.trans htoken, hbefore'⟩ hnot
  · cases hunknown
  rw [hev] at hstep
  obtain ⟨hmem, hdb | ⟨r, hr, hid, hholds⟩⟩ := step_finishCreate hstep
  · rw [hdb] at ha'
    exact absurd ⟨a', ha', htoken, ho⟩ hnot
  · have hlater := createClaims_run (.cons hstep hafter) hclaimed hmem
    obtain rfl := hend.creating.tokens.eq_of_key hlater hc (hclaim.trans htoken)
    exact ⟨q, by simp, result, ⟨now, hev, r, hr, hid, hholds⟩, houtcome⟩

theorem deletionClaim_unsent (hinit : (machine desk).init s₀) (h : (machine desk).Run s₀ t s)
    {c : DeletionClaim} (hc : c ∈ s.deletionClaims) (hunsent : Unsent s.db.deletions.attempts c.token) :
    ∃ q ∈ t, ∃ result, c.records q result ∧ c.outcome result = .notSent := by
  have hstart : ¬ Unsent s₀.db.deletions.attempts c.token := by
    obtain ⟨business, -, rfl⟩ := hinit
    rintro ⟨a, ha, -⟩
    exact absurd ha List.not_mem_nil
  have hend := claimed_of_reachable ⟨s₀, t, hinit, h⟩
  obtain ⟨t₁, q, t₂, rfl, hbefore, hstep, hafter, hnot, ⟨a', ha', htoken, ho⟩, -⟩ := h.since
    (P := fun s => Unsent s.db.deletions.attempts c.token) hstart hunsent
  have hclaimed := claimed_of_reachable ⟨s₀, t₁, hinit, hbefore⟩
  obtain ⟨a, ha, htoken', hbefore'⟩ | hunknown | ⟨claim, result, now, hev, hclaim, houtcome⟩ :=
    ((step_deletions hstep).extends hclaimed.deletions).recorded a' ha' _ ho
  · exact absurd ⟨a, ha, htoken'.trans htoken, hbefore'⟩ hnot
  · cases hunknown
  rw [hev] at hstep
  obtain ⟨hmem, hdb | ⟨r, hr, hid, hholds⟩⟩ := step_finishDeletion hstep
  · rw [hdb] at ha'
    exact absurd ⟨a', ha', htoken, ho⟩ hnot
  · have hlater := deletionClaims_run (.cons hstep hafter) hclaimed hmem
    obtain rfl := hend.deleting.tokens.eq_of_key hlater hc (hclaim.trans htoken)
    exact ⟨q, by simp, result, ⟨now, hev, r, hr, hid, hholds⟩, houtcome⟩

/-! ## Rows over a run -/

/-- A creation stays, and so does one that has ended. -/
theorem creates_run (h : (machine desk).Run s t s') (hs : Registered s) {r : Create}
    (hr : r ∈ s.db.creates.rows) : ∃ r' ∈ s'.db.creates.rows, r'.fixed = r.fixed ∧
      (r.state.isOpen = false → r' = r) := by
  refine (h.invariant (I := fun s => Registered s ∧ ∃ r' ∈ s.db.creates.rows, r'.fixed = r.fixed ∧
    (r.state.isOpen = false → r' = r)) ?_ ⟨hs, r, hr, rfl, fun _ => rfl⟩).2
  rintro s i s' ⟨hs, r', hr', hfixed, hended⟩ hstep
  obtain ⟨r'', hr'', hnext⟩ := ((step_creates hstep).extends hs.creates).kept r' hr'
  refine ⟨hs.step hstep, r'', hr'', hnext.fixed.trans hfixed, fun hclosed => ?_⟩
  obtain rfl := hended hclosed
  exact hnext.ended hclosed

theorem deletions_run (h : (machine desk).Run s t s') (hs : Registered s) {r : Deletion}
    (hr : r ∈ s.db.deletions.rows) : ∃ r' ∈ s'.db.deletions.rows, r'.fixed = r.fixed ∧
      (r.state = .completed → r' = r) := by
  refine (h.invariant (I := fun s => Registered s ∧ ∃ r' ∈ s.db.deletions.rows, r'.fixed = r.fixed ∧
    (r.state = .completed → r' = r)) ?_ ⟨hs, r, hr, rfl, fun _ => rfl⟩).2
  rintro s i s' ⟨hs, r', hr', hfixed, hended⟩ hstep
  obtain ⟨r'', hr'', hnext⟩ := ((step_deletions hstep).extends hs.deletions).kept r' hr'
  refine ⟨hs.step hstep, r'', hr'', hnext.fixed.trans hfixed, fun hclosed => ?_⟩
  obtain rfl := hended hclosed
  exact hnext.ended hclosed

/-- The row of a creation at the end of a run is the one it was, as to its fixed columns. -/
theorem creates_same (h : (machine desk).Run s t s') (hs : Registered s) (hs' : Registered s') {r r' : Create}
    (hr : r ∈ s.db.creates.rows) (hr' : r' ∈ s'.db.creates.rows) (hid : r'.id = r.id) :
    r'.fixed = r.fixed ∧ (r.state.isOpen = false → r' = r) := by
  obtain ⟨x, hx, hfixed, hended⟩ := creates_run h hs hr
  obtain rfl := hs'.creates.lanes.keys.eq_of_key hr' hx (hid.trans (Create.of_fixed hfixed).1.symm)
  exact ⟨hfixed, hended⟩

theorem deletions_same (h : (machine desk).Run s t s') (hs : Registered s) (hs' : Registered s')
    {r r' : Deletion} (hr : r ∈ s.db.deletions.rows) (hr' : r' ∈ s'.db.deletions.rows)
    (hid : r'.id = r.id) : r'.fixed = r.fixed ∧ (r.state = .completed → r' = r) := by
  obtain ⟨x, hx, hfixed, hended⟩ := deletions_run h hs hr
  obtain rfl := hs'.deletions.lanes.keys.eq_of_key hr' hx (hid.trans (Deletion.of_fixed hfixed).1.symm)
  exact ⟨hfixed, hended⟩

/-! ## Confirmation and completion -/

/-- A confirmed creation was confirmed by a result of its own operation, about an account with the
intended email. -/
theorem create_confirmed (hinit : (machine desk).init s₀) (h : (machine desk).Run s₀ t s) {r : Create}
    (hr : r ∈ s.db.creates.rows) {subject : String} (hsubject : r.clerkUserId = some subject) :
    ∃ q ∈ t, ∃ (claim : CreateClaim) (c : CreateConfirmation), claim.records q (.confirmed c) ∧
      claim.operationId = r.id ∧ c.operationId = r.id ∧ c.user.id = subject ∧ ∃ e, c.user.email = some e ∧ normalEmail desk.platform e = r.email := by
  have hstart : ¬ ∃ x ∈ s₀.db.creates.rows, x.id = r.id ∧ x.clerkUserId = some subject := by
    obtain ⟨business, -, rfl⟩ := hinit
    rintro ⟨x, hx, -⟩
    exact absurd hx List.not_mem_nil
  have hend := registered_of_reachable ⟨s₀, t, hinit, h⟩
  obtain ⟨t₁, q, t₂, rfl, hbefore, hstep, hafter, hnot, ⟨x', hx', hid', hconfirmed⟩, -⟩ := h.since
    (P := fun s => ∃ x ∈ s.db.creates.rows, x.id = r.id ∧ x.clerkUserId = some subject) hstart
    ⟨r, hr, rfl, hsubject⟩
  have hs := registered_of_reachable ⟨s₀, t₁, hinit, hbefore⟩
  obtain ⟨x, hx, hnext⟩ := ((step_creates hstep).extends hs.creates).traced x' hx'
  have hid : x.id = r.id := (Create.of_fixed hnext.fixed).1.symm.trans hid'
  rcases hnext.confirmed subject hconfirmed with hold | ⟨claim, result, now, hev, hclaim, hresult⟩
  · rcases hx with hx | hprepared
    · exact absurd ⟨x, hx, hid, hold⟩ hnot
    · rw [Create.clerkUserId, hprepared] at hold
      cases hold
  rw [hev] at hstep
  obtain ⟨hmem, hdb | hholds⟩ := step_finishCreate hstep
  · rw [hdb] at hx'
    exact absurd ⟨x', hx', hid', hconfirmed⟩ hnot
  obtain ⟨y, hy, hyid, hintent⟩ := hs.createClaims claim hmem
  have hfixed := (creates_same (.cons hstep hafter) hs hend hy hr (hid.symm.trans (hclaim.symm.trans hyid.symm))).1
  have hemail : claim.intent.email = r.email := by
    rw [← hintent]
    exact (Create.of_fixed hfixed).2.2.2.1.symm
  cases result with
  | confirmed c =>
    rw [CreateClaim.confirmed] at hresult
    split at hresult
    · rename_i hverifies
      simp only [CreateClaim.verifies, Bool.and_eq_true, decide_eq_true_eq, Option.any_eq_true] at hverifies
      obtain ⟨⟨⟨hop, -⟩, -⟩, e, he, hmatch⟩ := hverifies
      exact ⟨q, by simp, claim, c, ⟨now, hev, hholds⟩, hclaim.trans hid, hop.trans (hclaim.trans hid),
        Option.some.inj hresult, e, he, hmatch.trans hemail⟩
    · cases hresult
  | notSent | unknown => cases hresult

/-- A deletion that the provider confirmed was confirmed by a result of its own operation, about the
exact subject. -/
theorem deletion_confirmed (hinit : (machine desk).init s₀) (h : (machine desk).Run s₀ t s) {r : Deletion}
    (hr : r ∈ s.db.deletions.rows) (hgone : r.state.gone) :
    ∃ q ∈ t, ∃ (claim : DeletionClaim) (c : DeletionConfirmation), claim.records q (.confirmed c) ∧
      claim.operationId = r.id ∧ c.operationId = r.id ∧ c.clerkUserId = r.clerkUserId := by
  have hstart : ¬ ∃ x ∈ s₀.db.deletions.rows, x.id = r.id ∧ x.state.gone := by
    obtain ⟨business, -, rfl⟩ := hinit
    rintro ⟨x, hx, -⟩
    exact absurd hx List.not_mem_nil
  have hend := registered_of_reachable ⟨s₀, t, hinit, h⟩
  obtain ⟨t₁, q, t₂, rfl, hbefore, hstep, hafter, hnot, ⟨x', hx', hid', hconfirmed⟩, -⟩ := h.since
    (P := fun s => ∃ x ∈ s.db.deletions.rows, x.id = r.id ∧ x.state.gone) hstart ⟨r, hr, rfl, hgone⟩
  have hs := registered_of_reachable ⟨s₀, t₁, hinit, hbefore⟩
  obtain ⟨x, hx, hnext⟩ := ((step_deletions hstep).extends hs.deletions).traced x' hx'
  have hid : x.id = r.id := (Deletion.of_fixed hnext.fixed).1.symm.trans hid'
  rcases hnext.confirmed hconfirmed with hold | ⟨claim, result, now, hev, hclaim, hresult⟩
  · rcases hx with hx | ⟨hprepared, -⟩
    · exact absurd ⟨x, hx, hid, hold⟩ hnot
    · rw [hprepared] at hold
      cases hold
  rw [hev] at hstep
  obtain ⟨hmem, hdb | hholds⟩ := step_finishDeletion hstep
  · rw [hdb] at hx'
    exact absurd ⟨x', hx', hid', hconfirmed⟩ hnot
  obtain ⟨y, hy, hyid, hclerk⟩ := hs.deletionClaims claim hmem
  have hfixed := (deletions_same (.cons hstep hafter) hs hend hy hr
    (hid.symm.trans (hclaim.symm.trans hyid.symm))).1
  cases result with
  | confirmed c =>
    rw [DeletionClaim.outcome] at hresult
    split at hresult
    · rename_i hverifies
      exact ⟨q, by simp, claim, c, ⟨now, hev, hholds⟩, hclaim.trans hid, hverifies.1.trans (hclaim.trans hid),
        hverifies.2.trans (hclerk.symm.trans (Deletion.of_fixed hfixed).2.2.1.symm)⟩
    · cases hresult
  | notSent =>
    rw [DeletionClaim.outcome] at hresult
    split at hresult <;> cases hresult
  | unknown => cases hresult

/-- The transition adds the one local user of a creation that is completed: under the intended role,
in the intended agency. -/
def Create.completes (q : Transition System Event) (r : Create) (clerk : String) : Prop :=
  ∃ user : User, q.after.db.directory.users = q.before.db.directory.users ++ [user] ∧
    user.id = r.userId ∧ user.subject = clerk ∧ user.role = r.role ∧
    ∀ agency, r.agencyId = some agency → q.after.db.directory.memberships =
      q.before.db.directory.memberships ++ [⟨r.userId, agency, .sub⟩]

/-- A call to finalize the creation. -/
def Create.finalizes (q : Transition System Event) (r : Create) : Prop :=
  ∃ subject clerk verified draw now,
    q.label = .request (.finalizeCreate subject r.id clerk verified draw) now

/-- A call to finalize changes nothing, or completes the row that the provider confirmed. -/
theorem step_finalizeCreate (hs : Registered s) {subject clerk : String} {id : Uuid} {verified : ProviderUser}
    {draw : Draw} {now : Int}
    (h : s.step desk (.request (.finalizeCreate subject id clerk verified draw) now) = .ok s') :
    s'.db = s.db ∨ ∃ r ∈ s.db.creates.rows, r.id = id ∧ r.state = .providerConfirmed clerk ∧
      { r with state := .completed clerk } ∈ s'.db.creates.rows ∧
      r.completes ⟨s, .request (.finalizeCreate subject id clerk verified draw) now, s'⟩ clerk := by
  obtain ⟨db, hrun, hdb⟩ := bind_eq_ok.mp h
  obtain rfl := pure_eq_ok.mp hdb
  obtain rfl | ⟨r, a, db₁, hr, hstate, hverified, -, -, hcommit, rfl, -⟩ := finalizeCreate_ok hrun
  · exact .inl rfl
  · have hmem := lookup_mem hr
    have hid : r.id = id := lookup_key hr
    obtain ⟨user, husers, huid, hsubject, hrole, hmembers⟩ :=
      provisioningCommit_adds (hs.creates.subUsers r hmem) hcommit
    refine .inr ⟨r, hmem, hid, hstate, ?_, user, husers, huid, hsubject.trans hverified, hrole, hmembers⟩
    exact mem_modify.mpr ⟨r, hmem, by rw [if_pos hid]⟩

/-- A completed creation was completed by one transition, and every other call to finalize it changed
nothing. -/
theorem create_completed (hinit : (machine desk).init s₀) (h : (machine desk).Run s₀ t s) {r : Create}
    (hr : r ∈ s.db.creates.rows) {clerk : String} (hstate : r.state = .completed clerk) :
    ∃ t₁ q t₂, t = t₁ ++ q :: t₂ ∧ r.finalizes q ∧ r.completes q clerk ∧
      ∀ q' ∈ t₁ ++ t₂, r.finalizes q' → q'.after.db = q'.before.db := by
  have hstart : ¬ ∃ x ∈ s₀.db.creates.rows, x.id = r.id ∧ x.state = .completed clerk := by
    obtain ⟨business, -, rfl⟩ := hinit
    rintro ⟨x, hx, -⟩
    exact absurd hx List.not_mem_nil
  have hend := registered_of_reachable ⟨s₀, t, hinit, h⟩
  obtain ⟨t₁, q, t₂, rfl, hbefore, hstep, hafter, hnot, ⟨x', hx', hid', hcompleted⟩, -⟩ := h.since
    (P := fun s => ∃ x ∈ s.db.creates.rows, x.id = r.id ∧ x.state = .completed clerk) hstart
    ⟨r, hr, rfl, hstate⟩
  have hs := registered_of_reachable ⟨s₀, t₁, hinit, hbefore⟩
  have hs' := hs.step hstep
  obtain ⟨x, hx, hnext⟩ := ((step_creates hstep).extends hs.creates).traced x' hx'
  have hid : x.id = r.id := (Create.of_fixed hnext.fixed).1.symm.trans hid'
  rcases hnext.completed clerk hcompleted with hold | ⟨subject, verified, draw, now, hev⟩
  · rcases hx with hx | hprepared
    · exact absurd ⟨x, hx, hid, hold⟩ hnot
    · rw [hprepared] at hold
      cases hold
  rw [hid] at hev
  have hstep' := hstep
  rw [hev] at hstep'
  obtain hdb | ⟨y, hy, hyid, hystate, -, hadds⟩ := step_finalizeCreate hs hstep'
  · rw [hdb] at hx'
    exact absurd ⟨x', hx', hid', hcompleted⟩ hnot
  have hfixed := (creates_same (.cons hstep hafter) hs hend hy hr hyid.symm).1
  obtain ⟨-, -, huser, -, -, hrole, hagency, -⟩ := Create.of_fixed hfixed
  have hcompletes : r.completes q clerk := by
    obtain ⟨user, husers, huid, hsubject, huserRole, hmembers⟩ := hadds
    refine ⟨user, husers, huid.trans huser.symm, hsubject, huserRole.trans hrole.symm, fun agency hsome => ?_⟩
    rw [huser]
    exact hmembers agency (hagency ▸ hsome)
  refine ⟨t₁, q, t₂, rfl, ⟨subject, clerk, verified, draw, now, hev⟩, hcompletes, fun q' hq' hfinal => ?_⟩
  obtain ⟨subject', clerk', verified', draw', now', hlabel⟩ := hfinal
  rcases List.mem_append.mp hq' with hq' | hq'
  · -- an earlier completion would have stayed
    obtain ⟨u₁, u₂, rfl, hprior, hstep₁, hlater⟩ := hbefore.split hq'
    have hs₁ := registered_of_reachable ⟨s₀, u₁, hinit, hprior⟩
    have hs₂ := hs₁.step hstep₁
    rw [hlabel] at hstep₁
    obtain hdb | ⟨z, hz, hzid, -, hdone, -⟩ := step_finalizeCreate hs₁ hstep₁
    · exact hdb
    · have hsame := (creates_same hlater hs₂ hs hdone hy (hyid.trans hzid.symm)).2 rfl
      rw [hsame] at hystate
      cases hystate
  · -- afterwards the row is completed
    obtain ⟨u₁, u₂, rfl, hprior, hstep₁, -⟩ := hafter.split hq'
    have hs₁ := registered_of_reachable ⟨s₀, _, hinit, Machine.Run.trans (hbefore.snoc hstep) hprior⟩
    rw [hlabel] at hstep₁
    obtain hdb | ⟨z, hz, hzid, hzstate, -⟩ := step_finalizeCreate hs₁ hstep₁
    · exact hdb
    · have hsame := (creates_same hprior hs' hs₁ hx' hz (hzid.trans hid'.symm)).2 (by rw [hcompleted]; rfl)
      rw [hsame, hcompleted] at hzstate
      cases hzstate

/-! ## At most once -/

/-- What a run shows of a creation it leaves. -/
structure CreatedOnce (desk : Desk) (t : List (Transition System Event)) (s : System) (r : Create) :
    Prop where
  /-- a claim to write is handed out while the row is prepared, after attempts that were not sent -/
  granted : ∀ q ∈ t, ∀ c, q.after.createClaims = q.before.createClaims ++ [c] → c.operationId = r.id →
    c.reconcile = false →
    (∃ x ∈ q.before.db.creates.rows, x.id = r.id ∧ x.state = .prepared ∧ x.attempts < 5) ∧
    ∀ a ∈ q.before.db.creates.attempts, a.parentId = r.id → a.kind = .dispatch ∧ a.outcome = some .notSent
  limited : (s.createClaims.filter fun c => c.operationId = r.id ∧ c.reconcile = false).length ≤ 5
  spent : (s.createClaims.filter fun c => c.operationId = r.id).Pairwise fun c c' => c'.reconcile = false →
    ∃ q ∈ t, ∃ result, c.records q result ∧ c.outcome desk.platform result = .notSent
  stale : ∀ q ∈ t, ∀ c result now, q.label = .finishCreate c result now → c.operationId = r.id →
    (∀ x ∈ q.before.db.creates.rows, x.id = r.id → ¬ c.holds x now) → q.after.db = q.before.db
  confirmed : ∀ subject, r.clerkUserId = some subject → ∃ q ∈ t, ∃ (claim : CreateClaim)
    (c : CreateConfirmation), claim.records q (.confirmed c) ∧ claim.operationId = r.id ∧
      c.operationId = r.id ∧ c.user.id = subject ∧
      ∃ e, c.user.email = some e ∧ normalEmail desk.platform e = r.email
  completed : ∀ clerk, r.state = .completed clerk → ∃ t₁ q t₂, t = t₁ ++ q :: t₂ ∧ r.finalizes q ∧
    r.completes q clerk ∧ ∀ q' ∈ t₁ ++ t₂, r.finalizes q' → q'.after.db = q'.before.db
  cancelled : r.state = .cancelled → r.clerkUserId = none ∧
    ∀ a ∈ s.db.creates.attempts, a.parentId = r.id → a.kind = .dispatch ∧ a.outcome = some .notSent
  final : ∀ q ∈ t, ∀ x ∈ q.before.db.creates.rows, x.id = r.id → x.state.isOpen = false → r = x

/-- What a run shows of a deletion it leaves. -/
structure DeletedOnce (t : List (Transition System Event)) (s : System) (r : Deletion) : Prop where
  granted : ∀ q ∈ t, ∀ c, q.after.deletionClaims = q.before.deletionClaims ++ [c] → c.operationId = r.id →
    c.reconcile = false →
    (∃ x ∈ q.before.db.deletions.rows, x.id = r.id ∧ x.state = .prepared ∧ x.attempts < 5) ∧
    ∀ a ∈ q.before.db.deletions.attempts, a.parentId = r.id → a.kind = .dispatch ∧ a.outcome = some .notSent
  limited : (s.deletionClaims.filter fun c => c.operationId = r.id ∧ c.reconcile = false).length ≤ 5
  spent : (s.deletionClaims.filter fun c => c.operationId = r.id).Pairwise fun c c' =>
    c'.reconcile = false → ∃ q ∈ t, ∃ result, c.records q result ∧ c.outcome result = .notSent
  stale : ∀ q ∈ t, ∀ c result now, q.label = .finishDeletion c result now → c.operationId = r.id →
    (∀ x ∈ q.before.db.deletions.rows, x.id = r.id → ¬ c.holds x now) → q.after.db = q.before.db
  confirmed : r.state.gone → ∃ q ∈ t, ∃ (claim : DeletionClaim) (c : DeletionConfirmation),
    claim.records q (.confirmed c) ∧ claim.operationId = r.id ∧ c.operationId = r.id ∧
      c.clerkUserId = r.clerkUserId
  /-- the target is deleting, and deleted once the operation is completed -/
  target : s.db.directory.denies r
  final : ∀ q ∈ t, ∀ x ∈ q.before.db.deletions.rows, x.id = r.id → x.state = .completed → r = x

theorem createdOnce (hinit : (machine desk).init s₀) (h : (machine desk).Run s₀ t s) {r : Create}
    (hr : r ∈ s.db.creates.rows) : CreatedOnce desk t s r := by
  have hend := claimed_of_reachable ⟨s₀, t, hinit, h⟩
  refine ⟨?_, hend.creating.limited hend.creates.lanes r.id, ?_, ?_, fun _ => create_confirmed hinit h hr,
    fun _ => create_completed hinit h hr, fun hcancelled => ⟨?_, fun a ha hparent => ?_⟩, ?_⟩
  · intro q hq c hnew hop hwrites
    obtain ⟨⟨t', hrun⟩, hstep⟩ := h.mem hq
    have hs := registered_of_reachable ⟨s₀, t', hinit, hrun⟩
    obtain hsame | ⟨c', hnew', -, -, x, hx, hid, -, hprepared⟩ := step_createClaims hs.creates hstep
    · rw [hsame] at hnew
      exact absurd hnew (by simp)
    · obtain rfl : c' = c := by
        rw [hnew'] at hnew
        simpa using hnew
      obtain ⟨hstate, hlimit⟩ := hprepared hwrites
      refine ⟨⟨x, hx, hid.trans hop, hstate, hlimit⟩, fun a ha hparent => ?_⟩
      exact hs.creates.lanes.spent_of_idle hx (by rw [hstate]; rfl) ha (hparent.trans (hid.trans hop).symm)
  · refine (hend.creating.ordered.filter _).imp_of_mem fun hc hc' hspent hwrites => ?_
    obtain ⟨hmem, hop⟩ := List.mem_filter.mp hc
    obtain ⟨-, hop'⟩ := List.mem_filter.mp hc'
    exact createClaim_unsent hinit h hmem
      (hspent ((of_decide_eq_true hop).trans (of_decide_eq_true hop').symm) hwrites)
  · intro q hq c result now hlabel hop hstale
    obtain ⟨-, hstep⟩ := h.mem hq
    rw [hlabel] at hstep
    obtain ⟨-, hdb | ⟨x, hx, hid, hholds⟩⟩ := step_finishCreate hstep
    · exact hdb
    · exact absurd hholds (hstale x hx (hid.trans hop))
  · rw [Create.clerkUserId, hcancelled]
  · exact hend.creates.lanes.spent_of_idle hr (by rw [hcancelled]; rfl) ha hparent
  · intro q hq x hx hid hclosed
    obtain ⟨t₁, t₂, rfl, hbefore, hstep, hafter⟩ := h.split hq
    have hs := registered_of_reachable ⟨s₀, t₁, hinit, hbefore⟩
    exact (creates_same (.cons hstep hafter) hs hend.toRegistered hx hr hid.symm).2 hclosed

theorem deletedOnce (hinit : (machine desk).init s₀) (h : (machine desk).Run s₀ t s) {r : Deletion}
    (hr : r ∈ s.db.deletions.rows) : DeletedOnce t s r := by
  have hend := claimed_of_reachable ⟨s₀, t, hinit, h⟩
  refine ⟨?_, hend.deleting.limited hend.deletions.lanes r.id, ?_, ?_, deletion_confirmed hinit h hr,
    hend.targets r hr, ?_⟩
  · intro q hq c hnew hop hwrites
    obtain ⟨⟨t', hrun⟩, hstep⟩ := h.mem hq
    have hs := registered_of_reachable ⟨s₀, t', hinit, hrun⟩
    obtain hsame | ⟨c', hnew', -, -, x, hx, hid, -, hprepared⟩ := step_deletionClaims hs.deletions hstep
    · rw [hsame] at hnew
      exact absurd hnew (by simp)
    · obtain rfl : c' = c := by
        rw [hnew'] at hnew
        simpa using hnew
      obtain ⟨hstate, hlimit⟩ := hprepared hwrites
      refine ⟨⟨x, hx, hid.trans hop, hstate, hlimit⟩, fun a ha hparent => ?_⟩
      exact hs.deletions.lanes.spent_of_idle hx (by rw [hstate]; rfl) ha (hparent.trans (hid.trans hop).symm)
  · refine (hend.deleting.ordered.filter _).imp_of_mem fun hc hc' hspent hwrites => ?_
    obtain ⟨hmem, hop⟩ := List.mem_filter.mp hc
    obtain ⟨-, hop'⟩ := List.mem_filter.mp hc'
    exact deletionClaim_unsent hinit h hmem
      (hspent ((of_decide_eq_true hop).trans (of_decide_eq_true hop').symm) hwrites)
  · intro q hq c result now hlabel hop hstale
    obtain ⟨-, hstep⟩ := h.mem hq
    rw [hlabel] at hstep
    obtain ⟨-, hdb | ⟨x, hx, hid, hholds⟩⟩ := step_finishDeletion hstep
    · exact hdb
    · exact absurd hholds (hstale x hx (hid.trans hop))
  · intro q hq x hx hid hclosed
    obtain ⟨t₁, t₂, rfl, hbefore, hstep, hafter⟩ := h.split hq
    have hs := registered_of_reachable ⟨s₀, t₁, hinit, hbefore⟩
    exact (deletions_same (.cons hstep hafter) hs hend.toRegistered hx hr hid.symm).2 hclosed

/-- Over every run, a write at the provider for a creation or a deletion is handed out only while the row
is prepared, at most five times, and every one but the last was recorded as not sent by the claim that
held the live lease; a claim without the lease changes nothing; a confirmation carries the operation and
the intended email or the exact subject; a creation completes with one new user, a cancelled one was
never confirmed; and the target of a deletion is deleting, and deleted once it is completed. -/
theorem provider_writes_once (hinit : (machine desk).init s₀) (h : (machine desk).Run s₀ t s) :
    (∀ r ∈ s.db.creates.rows, CreatedOnce desk t s r) ∧ ∀ r ∈ s.db.deletions.rows, DeletedOnce t s r :=
  ⟨fun _ hr => createdOnce hinit h hr, fun _ hr => deletedOnce hinit h hr⟩

/-! ### A run -/

def sampleReview : String := "0000000000000000000000000000000000000000000000000000000000000000"

def onceDesk : Desk := { sampleDesk with review := ⟨fun _ _ _ => sampleReview, fun _ _ => 4⟩ }

def staffIntent : Intent := ⟨"c@a.b", "C", "", .staffSupport, none, none⟩

def sampleCreation (token fence : Nat) : CreateClaim :=
  ⟨20, staffIntent, BitVec.ofNat 128 token, fence, "user_a", false⟩

/-- A creation whose first write was not sent, and a deletion. -/
def onceEvents : List Event := [
  .request (.bootstrap (sampleUser "user_a") (sampleDraw 1)) 0,
  .request (.onboard (sampleUser "user_b") (sampleDraw 2)) 0,
  .request (.prepareCreate ⟨"user_a", 20, staffIntent⟩ (sampleDraw 3)) 0,
  .claimCreate "user_a" 20 false none 50 1,
  .finishCreate (sampleCreation 50 1) .notSent 2,
  .claimCreate "user_a" 20 false none 51 40000000,
  .finishCreate (sampleCreation 51 2)
    (.confirmed ⟨20, ⟨"user_c", false, false, some "c@a.b", none, none⟩⟩) 40000001,
  .request (.finalizeCreate "user_a" 20 "user_c" ⟨"user_c", false, false, some "c@a.b", none, none⟩
    (sampleDraw 4)) 40000002,
  .request (.prepareDeletion ⟨"user_a", 30, 200, 1, sampleReview⟩) 40000003,
  .claimDeletion "user_a" 30 false none 60 40000004,
  .finishDeletion ⟨30, 200, "user_b", 60, 1, "user_a", false⟩ (.confirmed ⟨30, "user_b"⟩) 40000005,
  .request (.finalizeDeletion "user_a" 30) 40000006]

set_option maxRecDepth 10000 in
theorem written_twice : ∃ t s, (machine onceDesk).Run (.start sampleBusiness) t s ∧
    (s.createClaims.length, s.deletionClaims.length) = (2, 1) ∧
    (∀ r ∈ s.db.creates.rows, CreatedOnce onceDesk t s r) ∧
    ∀ r ∈ s.db.deletions.rows, DeletedOnce t s r := by
  have hrun : (onceEvents.foldlM (System.step onceDesk) (.start sampleBusiness) >>=
      fun s => .ok (s.createClaims.length, s.deletionClaims.length)) = .ok (2, 1) := by
    decide +kernel
  obtain ⟨s, hs, hlength⟩ := bind_eq_ok.mp hrun
  obtain ⟨t, ht⟩ := Machine.Run.foldlM (M := machine onceDesk) (fun _ _ _ h => h) (.nil _) hs
  exact ⟨t, s, ht, Except.ok.inj hlength, provider_writes_once ⟨_, sampleBusiness_valid, rfl⟩ ht⟩

end ShaponTravels.Identity
