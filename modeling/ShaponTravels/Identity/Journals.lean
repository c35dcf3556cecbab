import ShaponTravels.Identity.Lanes
import ShaponTravels.Identity.Registry

/-!
# Journals — what happens to account creations and deletions

One move for each way a transaction changes the journal of creations or the one of deletions, and
that every event of the system is made of such moves.
-/

namespace ShaponTravels.Identity

open Library

variable {desk : Desk} {db db' : Db} {now : Int}

/-! ## Creations -/

def CreateState.lease? : CreateState → Option Lease
  | .dispatching l | .reconciling l => some l
  | _ => none

/-- The columns of a creation that no update writes. -/
def Create.fixed (r : Create) : Create :=
  { r with state := .prepared, fence := 0, attempts := 0, nextAttemptAt := 0, errorCode := none }

theorem Create.of_fixed {r r' : Create} (h : r.fixed = r'.fixed) :
    r.id = r'.id ∧ r.actorUserId = r'.actorUserId ∧ r.userId = r'.userId ∧ r.email = r'.email ∧
      r.emailKey = r'.emailKey ∧ r.role = r'.role ∧ r.agencyId = r'.agencyId ∧
      r.agencyVersion = r'.agencyVersion ∧ r.requestHash = r'.requestHash := by
  simp only [Create.fixed, Create.mk.injEq] at h
  tauto

namespace Creates

/-- What a result writes. -/
def finished (c : Creates) (now : Int) (r : Create) (token : Uuid) (confirmed : Option String)
    (outcome : AttemptOutcome) : Creates :=
  { c.update r.id (fun r' => { r' with
      state := (createResultState r.attempts confirmed outcome).1
      errorCode := (createResultState r.attempts confirmed outcome).2
      nextAttemptAt := now + 30000000 }) with
    attempts := recordOutcome token outcome c.attempts }

/-- What an event does to the journal of creations. -/
inductive Move (p : Platform) (ev : Event) (c : Creates) : Creates → Prop where
  | insert (r : Create) (hid : ∀ r' ∈ c.rows, r'.id ≠ r.id) (huser : ∀ r' ∈ c.rows, r'.userId ≠ r.userId)
      (hstate : r.state = .prepared) (hattempts : r.attempts = 0)
      (hagency : r.agencyId.isSome → r.role = .b2bSub) : Move p ev c { c with rows := c.rows ++ [r] }
  | recover (now : Int) (r : Create) (hr : r ∈ c.rows) : Move p ev c (c.recover now r)
  | take (now : Int) (r : Create) (reconcile : Bool) (token : Uuid) (hr : r ∈ c.rows)
      (hstate : r.state = if reconcile then .needsReconciliation else .prepared)
      (hlimit : reconcile = false → r.attempts < 5) (hfresh : ∀ a ∈ c.attempts, a.claimToken ≠ token) :
      Move p ev c (c.taken now r reconcile token)
  | finish (now : Int) (r : Create) (claim : CreateClaim) (result : CreateResult) (hr : r ∈ c.rows)
      (hid : r.id = claim.operationId) (hholds : claim.holds r now)
      (hunique : (claim.confirmed p result).isSome →
        ∀ r' ∈ c.rows, r'.clerkUserId ≠ claim.confirmed p result)
      (hev : ev = .finishCreate claim result now) :
      Move p ev c (c.finished now r claim.token (claim.confirmed p result) (claim.outcome p result))
  | cancel (r : Create) (hr : r ∈ c.rows) (hstate : r.state = .prepared) :
      Move p ev c (c.update r.id fun r => { r with state := .cancelled })
  | complete (r : Create) (clerk : String) (hr : r ∈ c.rows) (hstate : r.state = .providerConfirmed clerk)
      (hev : ∃ subject verified draw now,
        ev = .request (.finalizeCreate subject r.id clerk verified draw) now) :
      Move p ev c (c.update r.id fun r => { r with state := .completed clerk })

abbrev Moves (p : Platform) (ev : Event) : Creates → Creates → Prop :=
  Relation.ReflTransGen (Move p ev)

end Creates

/-- A result is refused, repeated, or recorded under the live claim of the row. -/
theorem finishCreate_ok {p : Platform} {c : CreateClaim} {result : CreateResult}
    (h : finishCreate p db now c result = .ok db') :
    db' = db ∨ ∃ r, lookup Create.id c.operationId db.creates.rows = some r ∧ c.holds r now ∧
      ((c.confirmed p result).isSome → ∀ r' ∈ db.creates.rows, r'.clerkUserId ≠ c.confirmed p result) ∧
      db' = { db with creates :=
        db.creates.finished now r c.token (c.confirmed p result) (c.outcome p result) } := by
  simp only [finishCreate, createRow, bind_eq_ok, fetch_eq_ok] at h
  obtain ⟨r, hr, attempt, -, h⟩ := h
  split at h
  · exact .inl (pure_eq_ok.mp h).symm
  · simp only [bind_eq_ok, ensure_eq_ok, pure_eq_ok] at h
    obtain ⟨-, hholds, -, hunique, rfl⟩ := h
    exact .inr ⟨r, hr, hholds, hunique, rfl⟩

theorem CreateClaim.outcome_notSent {p : Platform} {c : CreateClaim} {result : CreateResult}
    (h : c.outcome p result = .notSent) : c.reconcile = false := by
  rw [CreateClaim.outcome] at h
  split at h
  · cases h
  · split at h
    · rename_i hnot
      simpa using hnot.2
    · cases h

theorem normalized_agency {p : Platform} {intent intent' : Intent}
    (h : normalized p intent = .ok intent') : intent'.role = .b2bSub ↔ intent'.agencyId.isSome := by
  simp only [normalized, bind_eq_ok, ensure_eq_ok, pure_eq_ok] at h
  obtain ⟨-, ⟨-, -, -, -, -, hagency, -⟩, rfl⟩ := h
  exact hagency

/-- A creation is prepared under an id and an email that nothing open has. -/
theorem prepareCreate_ok {p : Platform} {hash : Uuid → Intent → Digest} {input : PrepareCreate}
    {draw : Draw} (h : prepareCreate p hash db now input draw = .ok db') :
    db' = db ∨ ∃ intent a, normalized p input.intent = .ok intent ∧
      authorizeCreate db input.clerkUserId intent none = .ok a ∧
      lookup Create.id input.operationId db.creates.rows = none ∧
      (∀ o ∈ db.effects.operations, o.id ≠ input.operationId) ∧
      (∀ r ∈ db.deletions.rows, r.id ≠ input.operationId) ∧
      (∀ r ∈ db.creates.rows, r.state.isOpen → r.emailKey ≠ p.digest intent.email) ∧
      (∀ r ∈ db.invitations.rows, r.id ≠ input.operationId ∧
        (r.state.isOpen → r.emailKey ≠ p.digest intent.email)) ∧
      agencyScope db intent input.operationId = .ok () ∧
      (∀ r ∈ db.creates.rows, r.userId ≠ draw.user) ∧
      db' = { db with creates := { db.creates with rows := db.creates.rows ++ [{
        id := input.operationId
        actorUserId := a.id
        userId := draw.user
        requestHash := hash a.id intent
        email := intent.email
        emailKey := p.digest intent.email
        firstName := intent.firstName
        lastName := intent.lastName
        role := intent.role
        agencyId := intent.agencyId
        agencyVersion := intent.expectedAgencyVersion
        state := .prepared
        fence := 0
        attempts := 0
        nextAttemptAt := now
        errorCode := none }] } } := by
  simp only [prepareCreate, bind_eq_ok] at h
  obtain ⟨intent, hnormal, -, -, a, ha, h⟩ := h
  split at h
  · simp only [bind_eq_ok, pure_eq_ok] at h
    obtain ⟨-, -, rfl⟩ := h
    exact .inl rfl
  · rename_i hnone
    simp only [insertCreate, bind_eq_ok, ensure_eq_ok, pure_eq_ok] at h
    obtain ⟨-, hfree, _, hscope, -, huser, rfl⟩ := h
    simp only [not_or, List.any_eq_true, decide_eq_true_eq, not_exists, not_and] at hfree
    obtain ⟨hoperations, hdeletions, hcreates, hinvitations⟩ := hfree
    exact .inr ⟨intent, a, hnormal, ha, hnone, hoperations, hdeletions,
      fun r hr hopen heq => hcreates r hr heq hopen,
      fun r hr => ⟨(hinvitations r hr).1, fun hopen heq => (hinvitations r hr).2 heq hopen⟩, hscope, huser,
      rfl⟩

theorem cancelCreate_ok {subject : String} {id : Uuid} (h : cancelCreate db subject id = .ok db') :
    db' = db ∨ ∃ r, lookup Create.id id db.creates.rows = some r ∧ r.state = .prepared ∧
      db' = { db with creates := db.creates.update r.id fun r => { r with state := .cancelled } } := by
  simp only [cancelCreate, createRow, bind_eq_ok, fetch_eq_ok] at h
  obtain ⟨-, -, r, hr, -, -, h⟩ := h
  split at h
  · exact .inl (pure_eq_ok.mp h).symm
  · simp only [bind_eq_ok, ensure_eq_ok, pure_eq_ok] at h
    obtain ⟨-, hstate, rfl⟩ := h
    refine .inr ⟨r, hr, hstate, ?_⟩
    rw [show r.id = id from lookup_key hr]

/-- A row that was recovered can be claimed only as the row it is. -/
theorem claimable_state {r : Create} {reconcile : Bool} {fence : Option Int}
    (h : r.claimable reconcile fence) :
    r.state = if reconcile then .needsReconciliation else .prepared := by
  rw [Create.claimable] at h
  cases reconcile with
  | true =>
    simp only [if_true, Bool.and_eq_true, decide_eq_true_eq] at h
    exact h.1
  | false =>
    simp only [Bool.false_eq_true, if_false, decide_eq_true_eq] at h
    exact h

theorem request_creates {r : Request} (h : r.run desk db now = .ok db') :
    Creates.Moves desk.platform (.request r now) db.creates db'.creates := by
  cases r with
  | prepareCreate input draw =>
    obtain rfl | ⟨intent, a, hnormal, -, hnone, -, -, -, -, -, huser, rfl⟩ := prepareCreate_ok h
    · exact .refl
    · exact .single (.insert _ (lookup_eq_none.mp hnone) huser rfl rfl (normalized_agency hnormal).mpr)
  | queryCreate subject id =>
    obtain ⟨r, hr, rfl⟩ := queryCreate_frame h
    exact .single (.recover now r (lookup_mem hr))
  | cancelCreate subject id =>
    obtain rfl | ⟨r, hr, hstate, rfl⟩ := cancelCreate_ok h
    · exact .refl
    · exact .single (.cancel r (lookup_mem hr) hstate)
  | finalizeCreate subject id clerk verified draw =>
    obtain rfl | ⟨r, a, db₁, hr, hstate, -, -, -, -, rfl, -⟩ := finalizeCreate_ok h
    · exact .refl
    · obtain rfl : r.id = id := lookup_key hr
      exact .single (.complete r clerk (lookup_mem hr) hstate ⟨subject, verified, draw, now, rfl⟩)
  | _ => rw [(request_frame h).creates (by simp [Request.writes])]

variable {s s' : System}

theorem step_creates {ev : Event} (h : s.step desk ev = .ok s') :
    Creates.Moves desk.platform ev s.db.creates s'.db.creates := by
  cases ev with
  | request r now =>
    obtain ⟨db, hrun, hs⟩ := bind_eq_ok.mp h
    obtain rfl := pure_eq_ok.mp hs
    exact request_creates hrun
  | claimCreate subject id reconcile fence token now =>
    obtain ⟨x, hclaim, hs⟩ := bind_eq_ok.mp h
    obtain rfl := pure_eq_ok.mp hs
    obtain ⟨r, hr, ⟨e, rfl⟩ | ⟨r', hr', hclaimable, hlimit, hfresh, rfl⟩⟩ := claimCreate_ok hclaim
    · exact .single (.recover now r (lookup_mem hr))
    · exact (Relation.ReflTransGen.single (.recover now r (lookup_mem hr))).tail
        (.take now r' reconcile token (lookup_mem hr') (claimable_state hclaimable) hlimit hfresh)
  | finishCreate c result now =>
    simp only [System.step, bind_eq_ok, pure_eq_ok] at h
    obtain ⟨-, -, db, hfinish, rfl⟩ := h
    obtain rfl | ⟨r, hr, hholds, hunique, rfl⟩ := finishCreate_ok hfinish
    · exact .refl
    · exact .single (.finish now r c result (lookup_mem hr) (lookup_key hr) hholds hunique rfl)
  | _ => rw [(step_frame h).db.creates (by simp [Event.writes])]

/-! ## Deletions -/

def DeletionState.lease? : DeletionState → Option Lease
  | .dispatching l | .reconciling l => some l
  | _ => none

/-- The columns of a deletion that no update writes. -/
def Deletion.fixed (r : Deletion) : Deletion :=
  { r with state := .prepared, fence := 0, attempts := 0, nextAttemptAt := 0, errorCode := none }

theorem Deletion.of_fixed {r r' : Deletion} (h : r.fixed = r'.fixed) :
    r.id = r'.id ∧ r.targetUserId = r'.targetUserId ∧ r.clerkUserId = r'.clerkUserId ∧
      r.agencyId = r'.agencyId ∧ r.actorUserId = r'.actorUserId := by
  simp only [Deletion.fixed, Deletion.mk.injEq] at h
  tauto

namespace Deletions

/-- What a result writes. -/
def finished (x : Deletions) (now : Int) (r : Deletion) (token : Uuid) (outcome : AttemptOutcome) :
    Deletions :=
  { x.update r.id (fun r' => { r' with
      state := (deletionResultState r.attempts outcome).1
      errorCode := (deletionResultState r.attempts outcome).2
      nextAttemptAt := if outcome = .notSent then now + 30000000 else now }) with
    attempts := recordOutcome token outcome x.attempts }

/-- What an event does to the journal of deletions. -/
inductive Move (ev : Event) (x : Deletions) : Deletions → Prop where
  | insert (r : Deletion) (hid : ∀ r' ∈ x.rows, r'.id ≠ r.id)
      (htarget : ∀ r' ∈ x.rows, r'.targetUserId ≠ r.targetUserId) (hstate : r.state = .prepared)
      (hattempts : r.attempts = 0)
      (hev : ∃ input now, ev = .request (.prepareDeletion input) now ∧ input.operationId = r.id) :
      Move ev x { x with rows := x.rows ++ [r] }
  | recover (now : Int) (r : Deletion) (hr : r ∈ x.rows) : Move ev x (x.recover now r)
  | take (now : Int) (r : Deletion) (reconcile : Bool) (token : Uuid) (hr : r ∈ x.rows)
      (hstate : r.state = if reconcile then .needsReconciliation else .prepared)
      (hlimit : reconcile = false → r.attempts < 5) (hfresh : ∀ a ∈ x.attempts, a.claimToken ≠ token) :
      Move ev x (x.taken now r reconcile token)
  | finish (now : Int) (r : Deletion) (c : DeletionClaim) (result : DeletionResult) (hr : r ∈ x.rows)
      (hid : r.id = c.operationId) (hholds : c.holds r now) (hev : ev = .finishDeletion c result now) :
      Move ev x (x.finished now r c.token (c.outcome result))
  | complete (r : Deletion) (hr : r ∈ x.rows) (hstate : r.state = .providerConfirmed)
      (hev : ∃ subject now, ev = .request (.finalizeDeletion subject r.id) now) :
      Move ev x (x.update r.id fun r => { r with state := .completed })

abbrev Moves (ev : Event) : Deletions → Deletions → Prop := Relation.ReflTransGen (Move ev)

end Deletions

theorem DeletionClaim.outcome_notSent {c : DeletionClaim} {result : DeletionResult}
    (h : c.outcome result = .notSent) : c.reconcile = false := by
  cases result with
  | confirmed p =>
    rw [DeletionClaim.outcome] at h
    split at h <;> cases h
  | notSent =>
    rw [DeletionClaim.outcome] at h
    split at h
    · cases h
    · rename_i hnot
      simpa using hnot
  | unknown => cases h

/-- A result is refused, repeated, or recorded under the live claim of the row. -/
theorem finishDeletion_ok {c : DeletionClaim} {result : DeletionResult}
    (h : finishDeletion db now c result = .ok db') :
    db' = db ∨ ∃ r b, lookup Deletion.id c.operationId db.deletions.rows = some r ∧ c.holds r now ∧
      maintainDenial { db with deletions := db.deletions.finished now r c.token (c.outcome result) } r =
        .ok db' ∧
      db' = { db with
        business := b, deletions := db.deletions.finished now r c.token (c.outcome result) } := by
  simp only [finishDeletion, deletionRow, bind_eq_ok, fetch_eq_ok] at h
  obtain ⟨r, hr, attempt, -, h⟩ := h
  split at h
  · exact .inl (pure_eq_ok.mp h).symm
  · simp only [bind_eq_ok, ensure_eq_ok] at h
    obtain ⟨-, hholds, hdenial⟩ := h
    have hdenial' := hdenial
    obtain ⟨b, rfl⟩ := maintainDenial_frame hdenial
    exact .inr ⟨r, b, hr, hholds, hdenial', rfl⟩

/-- A deletion is prepared for a target that nothing stands for. -/
theorem prepareDeletion_ok {review : Review} {input : PrepareDeletion}
    (h : prepareDeletion review db now input = .ok db') :
    db' = db ∨ ∃ a target,
      authorizeDeletion db input.clerkUserId input.targetUserId = .ok a ∧
      lookup Deletion.id input.operationId db.deletions.rows = none ∧
      (∀ o ∈ db.effects.operations, o.id ≠ input.operationId) ∧
      (∀ r ∈ db.creates.rows, r.id ≠ input.operationId) ∧
      (∀ r ∈ db.invitations.rows, r.id ≠ input.operationId) ∧
      (∀ r ∈ db.deletions.rows, r.targetUserId ≠ input.targetUserId) ∧
      db.directory.user input.targetUserId = some target ∧
      target.version = input.expectedVersion ∧
      previewBlockers db target (db.directory.ownedAgency target.id) = [] ∧
      commitDeletion db now a target ((db.directory.ownedAgency target.id).map Agency.id) input
        (review.hash a.id input) = .ok db' := by
  simp only [prepareDeletion, bind_eq_ok] at h
  obtain ⟨-, -, -, -, a, ha, h⟩ := h
  split at h
  · simp only [bind_eq_ok, pure_eq_ok] at h
    obtain ⟨-, -, rfl⟩ := h
    exact .inl rfl
  · rename_i hnone
    simp only [user, bind_eq_ok, ensure_eq_ok, fetch_eq_ok] at h
    obtain ⟨-, hfree, target, htarget, -, ⟨hversion, -⟩, -, hblockers, -, -, hcommit⟩ := h
    simp only [not_or, List.any_eq_true, decide_eq_true_eq, not_exists, not_and] at hfree
    obtain ⟨hoperations, hcreates, hinvitations, htargets⟩ := hfree
    exact .inr ⟨a, target, ha, hnone, hoperations, hcreates, hinvitations, htargets, htarget, hversion,
      hblockers, hcommit⟩

/-- What a prepared deletion writes: the target is deleting, its agency suspended, its owners frozen
and its clients revoked. -/
theorem commitDeletion_ok {a target : User} {agency : Option Uuid} {input : PrepareDeletion}
    {hash : Digest} (h : commitDeletion db now a target agency input hash = .ok db') :
    ∃ d₁ d₂ access, db.directory.updateUser target.id (fun u => { u with status := .deleting }) =
        .ok d₁ ∧ d₁.suspendAgency agency = .ok d₂ ∧
      Access.revokeClients db.business.access ((freezeOwners { db with directory := d₂ } target.subject
        agency).business.clientsOf d₂ [target.subject]) = .ok access ∧
      db' = { freezeOwners { db with directory := d₂ } target.subject agency with
        business := { (freezeOwners { db with directory := d₂ } target.subject agency).business with
          access := access }
        deletions := { db.deletions with rows := db.deletions.rows ++ [{
          id := input.operationId
          actorUserId := a.id
          targetUserId := target.id
          clerkUserId := target.subject
          agencyId := agency
          requestHash := hash
          expectedVersion := input.expectedVersion
          state := .prepared
          fence := 0
          attempts := 0
          nextAttemptAt := now
          errorCode := none }] } } ∧
      d₂.Consistent := by
  simp only [commitDeletion, bind_eq_ok, mapError_eq_ok] at h
  obtain ⟨d₁, hupdate, d₂, hsuspend, db₁, hrevoke, hcommit⟩ := h
  obtain ⟨rfl, hconsistent⟩ := commit_ok hcommit
  simp only [revokeClients, bind_eq_ok, mapError_eq_ok, pure_eq_ok] at hrevoke
  obtain ⟨access, haccess, rfl⟩ := hrevoke
  exact ⟨d₁, d₂, access, hupdate, hsuspend, haccess, rfl, hconsistent⟩

/-- A deletion is finalized once, when nothing stands for its target any more. -/
theorem finalizeDeletion_ok {subject : String} {id : Uuid} {x : Settled Unit}
    (h : finalizeDeletion db subject id = .ok x) :
    x.db = db ∨ ∃ r, lookup Deletion.id id db.deletions.rows = some r ∧
      ((∃ e, maintainDenial db r = .ok x.db ∧ x.reply = .error e) ∨
      ∃ target d₁ d₂ access, db.directory.user r.targetUserId = some target ∧
        r.state = .providerConfirmed ∧ target.subject = r.clerkUserId ∧ deletionClear db r target ∧
        Access.revokeClients db.business.access (db.business.clientsOf db.directory [target.subject]) =
          .ok access ∧
        db.directory.updateUser r.targetUserId (fun u => { u with status := .deleted }) = .ok d₁ ∧
        d₁.archiveAgency r.agencyId = .ok d₂ ∧
        x.db = { db with
          business := { db.business with access := access }
          directory := d₂
          deletions := db.deletions.update r.id fun r => { r with state := .completed } } ∧
        d₂.Consistent) := by
  simp only [finalizeDeletion, deletionRow, user, bind_eq_ok, fetch_eq_ok] at h
  obtain ⟨-, -, r, hr, -, -, h⟩ := h
  split at h
  · obtain rfl := pure_eq_ok.mp h
    exact .inl rfl
  · simp only [bind_eq_ok, ensure_eq_ok, fetch_eq_ok] at h
    obtain ⟨-, hstate, target, htarget, h⟩ := h
    refine .inr ⟨r, hr, ?_⟩
    split at h
    · rename_i hclear
      simp only [completeDeletion, revokeClients, bind_eq_ok, mapError_eq_ok, pure_eq_ok] at h
      obtain ⟨db₁, ⟨db₂, ⟨access, haccess, rfl⟩, d₁, hupdate, d₂, harchive, hcommit⟩, rfl⟩ := h
      obtain ⟨rfl, hconsistent⟩ := commit_ok hcommit
      exact .inr ⟨target, d₁, d₂, access, htarget, hstate, hclear.1, hclear.2, haccess, hupdate, harchive,
        rfl, hconsistent⟩
    · simp only [bind_eq_ok, pure_eq_ok] at h
      obtain ⟨db₁, hdenial, rfl⟩ := h
      exact .inl ⟨_, hdenial, rfl⟩

theorem maintainDenial_deletions {r : Deletion} (h : maintainDenial db r = .ok db') :
    db'.deletions = db.deletions := by
  obtain ⟨b, rfl⟩ := maintainDenial_frame h
  rfl

theorem request_deletions {r : Request} (h : r.run desk db now = .ok db') :
    Deletions.Moves (.request r now) db.deletions db'.deletions := by
  cases r with
  | prepareDeletion input =>
    obtain rfl | ⟨a, target, -, hnone, -, -, -, htargets, htarget, -, -, hcommit⟩ := prepareDeletion_ok h
    · exact .refl
    · obtain ⟨d₁, d₂, access, -, -, -, rfl, -⟩ := commitDeletion_ok hcommit
      refine .single (.insert _ (lookup_eq_none.mp hnone) ?_ rfl rfl ⟨input, now, rfl, rfl⟩)
      rw [← show target.id = input.targetUserId from lookup_key htarget] at htargets
      exact htargets
  | queryDeletion subject id =>
    simp only [Request.run, queryDeletion, deletionRow, bind_eq_ok, fetch_eq_ok, pure_eq_ok] at h
    obtain ⟨-, -, r, hr, -, -, db₁, hdenial, rfl⟩ := h
    rw [maintainDenial_deletions hdenial]
    exact .single (.recover now r (lookup_mem hr))
  | finalizeDeletion subject id =>
    obtain ⟨x, hx, rfl⟩ := map_eq_ok.mp h
    obtain hsame | ⟨r, hr, ⟨e, hdenial, -⟩ | ⟨target, d₁, d₂, access, -, hstate, -, -, -, -, -, hdb, -⟩⟩ :=
      finalizeDeletion_ok hx
    · rw [hsame]
    · rw [maintainDenial_deletions hdenial]
    · rw [hdb]
      obtain rfl : r.id = id := lookup_key hr
      exact .single (.complete r (lookup_mem hr) hstate ⟨subject, now, rfl⟩)
  | _ => rw [(request_frame h).deletions (by simp [Request.writes])]

theorem step_deletions {ev : Event} (h : s.step desk ev = .ok s') :
    Deletions.Moves ev s.db.deletions s'.db.deletions := by
  cases ev with
  | request r now =>
    obtain ⟨db, hrun, hs⟩ := bind_eq_ok.mp h
    obtain rfl := pure_eq_ok.mp hs
    exact request_deletions hrun
  | claimDeletion subject id reconcile fence token now =>
    obtain ⟨x, hclaim, hs⟩ := bind_eq_ok.mp h
    obtain rfl := pure_eq_ok.mp hs
    obtain ⟨r, hr, r', hr', hgrant⟩ := claimDeletion_ok hclaim
    obtain ⟨b, e, rfl⟩ | ⟨hstate, hlimit, hfresh, rfl⟩ := grantDeletion_ok hgrant
    · exact .single (.recover now r (lookup_mem hr))
    · exact (Relation.ReflTransGen.single (.recover now r (lookup_mem hr))).tail
        (.take now r' reconcile token (lookup_mem hr') hstate (fun hw => (hlimit hw).1) hfresh)
  | finishDeletion c result now =>
    simp only [System.step, bind_eq_ok, pure_eq_ok] at h
    obtain ⟨-, -, db, hfinish, rfl⟩ := h
    obtain rfl | ⟨r, b, hr, hholds, -, rfl⟩ := finishDeletion_ok hfinish
    · exact .refl
    · exact .single (.finish now r c result (lookup_mem hr) (lookup_key hr) hholds rfl)
  | _ => rw [(step_frame h).db.deletions (by simp [Event.writes])]

/-! ## Invitations -/

/-- The columns of an invitation that no update writes. -/
def Invitation.fixed (r : Invitation) : Invitation :=
  { r with
    state := .prepared, providerId := none, revocationRequested := false, version := 0, fence := 0
    issueAttempts := 0, revokeAttempts := 0, nextAttemptAt := 0, errorCode := none }

theorem Invitation.of_fixed {r r' : Invitation} (h : r.fixed = r'.fixed) :
    r.id = r'.id ∧ r.issuerUserId = r'.issuerUserId ∧ r.userId = r'.userId ∧ r.email = r'.email ∧
      r.emailKey = r'.emailKey ∧ r.role = r'.role ∧ r.agencyId = r'.agencyId ∧
      r.agencyVersion = r'.agencyVersion ∧ r.requestHash = r'.requestHash := by
  simp only [Invitation.fixed, Invitation.mk.injEq] at h
  tauto

namespace Invitations

/-- What a result writes. -/
def finished (i : Invitations) (now : Int) (r : Invitation) (c : InvitationClaim)
    (proof : Option Snapshot) (outcome : AttemptOutcome) : Invitations :=
  ((i.update r.id fun r' => { r' with
      state := (invitationResultState r c.revoke proof outcome).1
      providerId := r.providerId.or (proof.map Snapshot.invitationId)
      errorCode := (invitationResultState r c.revoke proof outcome).2
      nextAttemptAt := if outcome = .notSent then now + 30000000 else now }).recordAttempt c.token
        outcome (proof.map Snapshot.state)).settleMail c r proof
          (invitationResultState r c.revoke proof outcome).1

/-- The row ends, and its mail is blocked. -/
def ended (i : Invitations) (id : Uuid) (state : InvitationState) : Invitations :=
  (i.update id fun r => { r with state := state }).blockMail id

/-- A revocation is requested, and the mail is blocked. -/
def revoked (i : Invitations) (id : Uuid) : Invitations :=
  (i.update id fun r => { r with
    revocationRequested := true
    state := if r.state = .prepared then .cancelled else r.state }).blockMail id

/-- What an event does to the invitations. -/
inductive Move (p : Platform) (ev : Event) (i : Invitations) : Invitations → Prop where
  | insert (r : Invitation) (hid : ∀ r' ∈ i.rows, r'.id ≠ r.id)
      (huser : ∀ r' ∈ i.rows, r'.userId ≠ r.userId) (hstate : r.state = .prepared)
      (hissue : r.issueAttempts = 0) (hrevoke : r.revokeAttempts = 0)
      (hrequested : r.revocationRequested = false) (hagency : r.agencyId.isSome → r.role = .b2bSub) :
      Move p ev i { i with rows := i.rows ++ [r] }
  | recover (now : Int) (r : Invitation) (hr : r ∈ i.rows) : Move p ev i (i.recover now r)
  | revoke (r : Invitation) (hr : r ∈ i.rows) (hopen : r.state.isOpen)
      (hrequested : r.revocationRequested = false) : Move p ev i (i.revoked r.id)
  | take (now : Int) (r : Invitation) (revoke observe : Bool) (token : Uuid) (hr : r ∈ i.rows)
      (hclaimed : r.claimed observe = some revoke)
      (hlimit : observe = false → (if revoke then r.revokeAttempts else r.issueAttempts) < 5)
      (hfresh : ∀ a ∈ i.attempts, a.claimToken ≠ token) : Move p ev i (i.taken now r revoke observe token)
  | finish (now : Int) (r : Invitation) (c : InvitationClaim) (result : InvitationResult)
      (hr : r ∈ i.rows) (hid : r.id = c.input.operationId) (hholds : c.holds r now)
      (hev : ∃ mail, ev = .finishInvitation c result mail now) :
      Move p ev i (i.finished now r c (c.proof p result) (c.outcome (c.proof p result) result))
  | accept (r : Invitation) (subject : String) (hr : r ∈ i.rows) (hstate : r.state = .pending)
      (hrequested : r.revocationRequested = false)
      (hunique : ∀ r' ∈ i.rows, r'.state ≠ .accepted subject)
      (hev : ∃ o result draw now, ev = .accept o result draw now ∧ o.id = r.id ∧ o.subject = subject) :
      Move p ev i (i.ended r.id (.accepted subject))
  | refresh (r : Invitation) (e : InvitationEvidence) (hr : r ∈ i.rows) (hstate : r.state = .pending)
      (hended : e = .expired ∨ e = .revoked) : Move p ev i (i.ended r.id (evidenceState e))

abbrev Moves (p : Platform) (ev : Event) : Invitations → Invitations → Prop :=
  Relation.ReflTransGen (Move p ev)

end Invitations

/-- A result is refused, repeated, or recorded under the live claim of the row. -/
theorem finishInvitation_ok {p : Platform} {c : InvitationClaim} {result : InvitationResult}
    {mail : Uuid} (h : finishInvitation p db now c result mail = .ok db') :
    db' = db ∨ ∃ r m, lookup Invitation.id c.input.operationId db.invitations.rows = some r ∧
      c.holds r now ∧
      (m = db.mails ∨ m = db.mails.enqueue now mail (.invitation r.id) ∧ c.revoke = false ∧
        (c.proof p result).isSome ∧ r.revocationRequested = false) ∧
      db' = { db with
        invitations := db.invitations.finished now r c (c.proof p result)
          (c.outcome (c.proof p result) result)
        mails := m } := by
  simp only [finishInvitation, invitationRow, bind_eq_ok, fetch_eq_ok] at h
  obtain ⟨r, hr, attempt, -, h⟩ := h
  split at h
  · exact .inl (pure_eq_ok.mp h).symm
  · simp only [bind_eq_ok, ensure_eq_ok, pure_eq_ok] at h
    obtain ⟨-, hholds, -, -, rfl⟩ := h
    refine .inr ⟨r, _, hr, hholds, ?_, rfl⟩
    split
    · rename_i hmail
      exact .inr ⟨rfl, by simpa using hmail.1, hmail.2.1, by simpa using hmail.2.2.2⟩
    · exact .inl rfl

/-- An invitation is prepared under an id and an email that nothing open has. -/
theorem insertInvitation_ok {p : Platform} {a : User} {id : Uuid} {address : String}
    {grant : InvitationGrant} {hash : Digest} {draw : Draw}
    (h : insertInvitation p db now a id address grant hash draw = .ok db') :
    ∃ role agencyId version, grant.resolve db a = .ok (role, agencyId, version) ∧
      (∀ o ∈ db.effects.operations, o.id ≠ id) ∧ (∀ r ∈ db.deletions.rows, r.id ≠ id) ∧
      (∀ r ∈ db.creates.rows, r.id ≠ id ∧ (r.state.isOpen → r.emailKey ≠ p.digest address)) ∧
      (∀ r ∈ db.invitations.rows, r.state.isOpen → r.emailKey ≠ p.digest address) ∧
      agencyScope db ⟨address, "", "", role, agencyId, version⟩ id = .ok () ∧
      (∀ r ∈ db.invitations.rows, r.userId ≠ draw.user) ∧
      db' = { db with invitations := { db.invitations with rows := db.invitations.rows ++ [{
        id := id
        issuerUserId := a.id
        userId := draw.user
        requestHash := hash
        email := address
        emailKey := p.digest address
        role := role
        agencyId := agencyId
        agencyVersion := version
        state := .prepared
        providerId := none
        revocationRequested := false
        version := 1
        fence := 0
        issueAttempts := 0
        revokeAttempts := 0
        nextAttemptAt := now
        errorCode := none }] } } := by
  simp only [insertInvitation, bind_eq_ok, ensure_eq_ok, pure_eq_ok] at h
  obtain ⟨x, hresolve, -, hfree, _, hscope, -, huser, rfl⟩ := h
  simp only [not_or, List.any_eq_true, decide_eq_true_eq, not_exists, not_and] at hfree
  obtain ⟨hoperations, hdeletions, hcreates, hinvitations⟩ := hfree
  exact ⟨x.1, x.2.1, x.2.2, hresolve, hoperations, hdeletions,
    fun r hr => ⟨(hcreates r hr).1, fun hopen heq => (hcreates r hr).2 heq hopen⟩,
    fun r hr hopen heq => hinvitations r hr heq hopen, hscope, huser, rfl⟩

/-- A grant for an agency is one for a sub-user. -/
theorem resolve_agency {grant : InvitationGrant} {a : User} {role : Role} {agencyId : Option Uuid}
    {version : Option Int} (h : grant.resolve db a = .ok (role, agencyId, version)) :
    role = .b2bSub ↔ agencyId.isSome := by
  cases grant with
  | ownAgency =>
    simp only [InvitationGrant.resolve, bind_eq_ok, pure_eq_ok] at h
    obtain ⟨-, -, x, -, h⟩ := h
    simp only [Prod.mk.injEq] at h
    obtain ⟨rfl, rfl, rfl⟩ := h
    exact iff_of_true rfl rfl
  | manager role' agencyId' version' =>
    simp only [InvitationGrant.resolve, bind_eq_ok, ensure_eq_ok, pure_eq_ok] at h
    obtain ⟨-, -, -, ⟨hagency, -⟩, h⟩ := h
    simp only [Prod.mk.injEq] at h
    obtain ⟨rfl, rfl, rfl⟩ := h
    exact hagency

theorem checkAcceptance_ok {r : Invitation} (h : checkAcceptance db r = .ok ()) :
    r.state = .pending ∧ r.revocationRequested = false ∧ checkIssuer db r = .ok () ∧
      agencyScope db r.intent r.id = .ok () := by
  simp only [checkAcceptance, bind_eq_ok, ensure_eq_ok] at h
  obtain ⟨-, ⟨hstate, hrequested⟩, _, hissuer, hscope⟩ := h
  exact ⟨hstate, by simpa using hrequested, hissuer, hscope⟩

/-- The checks of a claim that writes at the provider. -/
theorem checkDispatch_ok {r : Invitation} {revoke : Bool} (h : checkDispatch db now r revoke = .ok ()) :
    (if revoke then r.revokeAttempts else r.issueAttempts) < 5 ∧
      (revoke = false → checkIssuer db r = .ok () ∧ agencyScope db r.intent r.id = .ok ()) := by
  cases revoke with
  | true =>
    simp only [checkDispatch, not_true_eq_false, if_false, ensure_eq_ok] at h
    exact ⟨h.2, fun hnot => by cases hnot⟩
  | false =>
    rw [checkDispatch, if_pos (by decide)] at h
    simp only [bind_eq_ok, ensure_eq_ok] at h
    obtain ⟨_, hissuer, _, hscope, -, hlimit⟩ := h
    exact ⟨hlimit, fun _ => ⟨hissuer, hscope⟩⟩

theorem request_invitations {r : Request} (h : r.run desk db now = .ok db') :
    Invitations.Moves desk.platform (.request r now) db.invitations db'.invitations := by
  cases r with
  | prepareInvitation input draw =>
    obtain rfl | ⟨hnone, address, a, fingerprint, hinsert⟩ := prepareInvitation_ok h
    · exact .refl
    · obtain ⟨role, agencyId, version, hresolve, -, -, -, -, -, huser, rfl⟩ := insertInvitation_ok hinsert
      exact .single (.insert _ (lookup_eq_none.mp hnone) huser rfl rfl rfl rfl (resolve_agency hresolve).mpr)
  | queryInvitation subject id =>
    obtain ⟨r, hr, rfl⟩ := queryInvitation_ok h
    exact .single (.recover now r (lookup_mem hr))
  | requestRevoke input =>
    obtain rfl | ⟨r, hr, hopen, hrequested, -, rfl⟩ := requestRevoke_ok h
    · exact .refl
    · exact .single (.revoke r (lookup_mem hr) hopen hrequested)
  | _ => rw [(request_frame h).invitations (by simp [Request.writes])]

/-- What is between the two transactions of a refresh was read of a pending invitation. -/
def System.Observed (s : System) (o : Observation) : Prop :=
  ∃ r ∈ s.db.invitations.rows, r.id = o.id ∧ o.version ≤ r.version ∧
    (r.version = o.version → r.state = .pending)

theorem step_invitations {ev : Event} (hkeys : KeyUnique Invitation.id s.db.invitations.rows)
    (hobserved : ∀ o ∈ s.refreshes, s.Observed o) (h : s.step desk ev = .ok s') :
    Invitations.Moves desk.platform ev s.db.invitations s'.db.invitations := by
  cases ev with
  | request r now =>
    obtain ⟨db, hrun, hs⟩ := bind_eq_ok.mp h
    obtain rfl := pure_eq_ok.mp hs
    exact request_invitations hrun
  | claimInvitation subject id observe fence token now =>
    obtain ⟨x, hclaim, hs⟩ := bind_eq_ok.mp h
    obtain rfl := pure_eq_ok.mp hs
    obtain ⟨r, hr, ⟨e, rfl⟩ | ⟨r', revoke, hr', hclaimed, hcheck, hfresh, rfl⟩⟩ := claimInvitation_ok hclaim
    · exact .single (.recover now r (lookup_mem hr))
    · exact (Relation.ReflTransGen.single (.recover now r (lookup_mem hr))).tail
        (.take now r' revoke observe token (lookup_mem hr') hclaimed
          (fun hwrite => (checkDispatch_ok (hcheck hwrite)).1) hfresh)
  | finishInvitation c result mail now =>
    simp only [System.step, bind_eq_ok, pure_eq_ok] at h
    obtain ⟨-, -, db, hfinish, rfl⟩ := h
    obtain rfl | ⟨r, m, hr, hholds, -, rfl⟩ := finishInvitation_ok hfinish
    · exact .refl
    · exact .single (.finish now r c result (lookup_mem hr) (lookup_key hr) hholds ⟨mail, rfl⟩)
  | accept o result draw now =>
    simp only [System.step, bind_eq_ok, pure_eq_ok] at h
    obtain ⟨-, -, db, haccept, rfl⟩ := h
    obtain rfl | ⟨r, u, db₁, hr, -, hcheck, -, hunique, rfl, -⟩ := accept_ok haccept
    · exact .refl
    · obtain ⟨hstate, hrequested, -, -⟩ := checkAcceptance_ok hcheck
      have hid : r.id = o.id := lookup_key hr
      rw [← hid]
      exact .single (.accept r o.subject (lookup_mem hr) hstate hrequested hunique
        ⟨o, result, draw, now, rfl, hid.symm, rfl⟩)
  | refresh o result =>
    simp only [System.step, bind_eq_ok, ensure_eq_ok, pure_eq_ok] at h
    obtain ⟨-, ho, db, hrefresh, rfl⟩ := h
    obtain rfl | ⟨r, x, hr, hversion, hended, -, rfl⟩ := refreshInvitation_ok hrefresh
    · exact .refl
    · have hid : r.id = o.id := lookup_key hr
      rw [← hid]
      obtain ⟨r', hr', hid', -, hpending⟩ := hobserved o ho
      obtain rfl := hkeys.eq_of_key hr' (lookup_mem hr) (hid'.trans hid.symm)
      exact .single (.refresh r' x.state hr' (hpending hversion) hended)
  | _ => rw [(step_frame h).db.invitations (by simp [Event.writes])]

end ShaponTravels.Identity
