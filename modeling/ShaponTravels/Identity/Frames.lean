import ShaponTravels.Identity.System

/-!
# Frames — what every transaction of the identity service leaves alone

One lemma for each transaction: the tables it may write, every other one as it was.
-/

namespace ShaponTravels.Identity

open Library

variable {db db' : Db} {now : Int}

/-! ## Helpers of the transactions -/

/-- The deferred constraints, which a commit checks. -/
structure Directory.Consistent (d : Directory) : Prop where
  owners : ∀ a ∈ d.agencies, ∃ u ∈ d.users, u.id = a.ownerUserId ∧ u.role = .b2b
  members : ∀ m ∈ d.memberships, ∃ u ∈ d.users, u.id = m.userId ∧ u.role = m.kind.userRole
  ownerships : ∀ a ∈ d.agencies, ∃ m ∈ d.memberships,
    m.userId = a.ownerUserId ∧ m.agencyId = a.id ∧ m.kind = .owner
  agencyUsers : ∀ u ∈ d.users, u.status = .active → u.role.requiresAgency →
    ∃ m ∈ d.memberships, m.userId = u.id ∧ m.kind.userRole = u.role

theorem commit_ok (h : db.commit = .ok db') : db' = db ∧ db.directory.Consistent := by
  simp only [Db.commit, Directory.commit, bind_eq_ok, mapError_eq_ok, ensure_eq_ok, pure_eq_ok] at h
  obtain ⟨d, ⟨-, howners, -, hmembers, -, hownerships, -, hagency, rfl⟩, rfl⟩ := h
  exact ⟨rfl, howners, hmembers, hownerships, hagency⟩

theorem revokeClients_frame {subjects : List String} (h : revokeClients db subjects = .ok db') :
    ∃ access, db' = { db with business := { db.business with access := access } } := by
  simp only [revokeClients, bind_eq_ok, pure_eq_ok] at h
  obtain ⟨access, -, rfl⟩ := h
  exact ⟨access, rfl⟩

theorem provision_frame {target : User} {draw : Draw} (h : provision db target draw = .ok db') :
    ∃ d b, db' = { db with directory := d, business := b } := by
  simp only [provision, bind_eq_ok, pure_eq_ok] at h
  obtain ⟨-, -, -, -, -, -, code, -, d, -, b, -, rfl⟩ := h
  exact ⟨d, b, rfl⟩

theorem grantRole_frame {grant : Grant} {draw : Draw} (h : grantRole db grant draw = .ok db') :
    ∃ d b, db' = { db with directory := d, business := b } := by
  rw [grantRole] at h
  split at h
  · obtain ⟨target, -, hprovision⟩ := bind_eq_ok.mp h
    exact provision_frame hprovision
  · split at h
    · obtain ⟨d, -, h⟩ := bind_eq_ok.mp h
      split at h
      · obtain rfl := pure_eq_ok.mp h
        exact ⟨d, db.business, rfl⟩
      · obtain ⟨d', -, h⟩ := bind_eq_ok.mp h
        obtain rfl := pure_eq_ok.mp h
        exact ⟨d', db.business, rfl⟩
    · obtain rfl := pure_eq_ok.mp h
      exact ⟨db.directory, db.business, rfl⟩

theorem maintainDenial_frame {r : Deletion} (h : maintainDenial db r = .ok db') :
    ∃ b, db' = { db with business := b } := by
  simp only [maintainDenial] at h
  split at h
  · obtain ⟨access, rfl⟩ := revokeClients_frame h
    exact ⟨_, rfl⟩
  · obtain rfl := pure_eq_ok.mp h
    exact ⟨_, rfl⟩

theorem contain_frame {subject : String} (h : contain db subject = .ok db') :
    ∃ d b, db' = { db with directory := d, business := b } := by
  rw [contain] at h
  split at h
  · obtain rfl := pure_eq_ok.mp h
    exact ⟨db.directory, db.business, rfl⟩
  · simp only [bind_eq_ok] at h
    obtain ⟨d, -, d', -, hrevoke⟩ := h
    obtain ⟨access, rfl⟩ := revokeClients_frame hrevoke
    exact ⟨d', _, rfl⟩

theorem commitCommand_frame {c : Command} (h : commitCommand db c = .ok db') :
    db' = { db with papers := { db.papers with commands := db.papers.commands ++ [c] } } := by
  simp only [commitCommand, bind_eq_ok, pure_eq_ok] at h
  obtain ⟨-, -, rfl⟩ := h
  rfl

/-! ## First users -/

theorem bootstrap_frame {u : ProviderUser} {draw : Draw} (h : bootstrap db u draw = .ok db') :
    ∃ d, db' = { db with directory := d } := by
  simp only [bootstrap, bind_eq_ok] at h
  obtain ⟨-, -, -, -, -, -, -, -, d, -, hcommit⟩ := h
  obtain ⟨rfl, -⟩ := commit_ok hcommit
  exact ⟨_, rfl⟩

theorem onboard_frame {p : Platform} {u : ProviderUser} {draw : Draw}
    (h : onboard p db now u draw = .ok db') :
    ∃ d m, db' = { db with directory := d, mails := m } := by
  simp only [onboard, bind_eq_ok] at h
  obtain ⟨-, -, -, -, -, -, h⟩ := h
  split at h
  · obtain rfl := pure_eq_ok.mp h
    exact ⟨db.directory, db.mails, rfl⟩
  · simp only [bind_eq_ok, pure_eq_ok] at h
    obtain ⟨-, -, -, -, -, -, -, -, d, -, rfl⟩ := h
    exact ⟨_, _, rfl⟩

/-! ## Creates -/

theorem prepareCreate_frame {p : Platform} {hash : Uuid → Intent → Digest} {input : PrepareCreate}
    {draw : Draw} (h : prepareCreate p hash db now input draw = .ok db') :
    ∃ c, db' = { db with creates := c } := by
  simp only [prepareCreate, bind_eq_ok] at h
  obtain ⟨intent, -, -, -, actor, -, h⟩ := h
  split at h
  · simp only [bind_eq_ok, pure_eq_ok] at h
    obtain ⟨-, -, rfl⟩ := h
    exact ⟨db.creates, rfl⟩
  · simp only [insertCreate, bind_eq_ok, pure_eq_ok] at h
    obtain ⟨-, -, -, -, -, -, rfl⟩ := h
    exact ⟨_, rfl⟩

theorem queryCreate_frame {subject : String} {id : Uuid} (h : queryCreate db now subject id = .ok db') :
    ∃ r, lookup Create.id id db.creates.rows = some r ∧
      db' = { db with creates := db.creates.recover now r } := by
  simp only [queryCreate, createRow, bind_eq_ok, fetch_eq_ok, pure_eq_ok] at h
  obtain ⟨-, -, r, hr, -, -, rfl⟩ := h
  exact ⟨r, hr, rfl⟩

/-- What a claim writes: a lease, a count and an attempt. -/
def Creates.taken (c : Creates) (now : Int) (r : Create) (reconcile : Bool) (token : Uuid) : Creates :=
  { c.update r.id (fun r' => { r' with
      state := if reconcile then .reconciling ⟨token, now + 30000000⟩
        else .dispatching ⟨token, now + 30000000⟩
      fence := r.fence + 1
      attempts := if reconcile then r'.attempts else r'.attempts + 1
      errorCode := none }) with
    attempts := c.attempts ++
      [⟨token, r.id, r.fence + 1, if reconcile then .reconcile else .dispatch, none⟩] }

/-- A claim recovers the lease of its row, and then is refused or granted. -/
theorem claimCreate_ok {subject : String} {id : Uuid} {reconcile : Bool} {fence : Option Int}
    {token : Uuid} {s : Settled CreateClaim}
    (h : claimCreate db now subject id reconcile fence token = .ok s) :
    ∃ r, lookup Create.id id db.creates.rows = some r ∧
      ((∃ e, s = ⟨{ db with creates := db.creates.recover now r }, .error e⟩) ∨
      ∃ r', lookup Create.id id (db.creates.recover now r).rows = some r' ∧
        r'.claimable reconcile fence ∧ (reconcile = false → r'.attempts < 5) ∧
        (∀ a ∈ (db.creates.recover now r).attempts, a.claimToken ≠ token) ∧
        s = ⟨{ db with creates := (db.creates.recover now r).taken now r' reconcile token },
          .ok ⟨r'.id, r'.intent, token, r'.fence + 1, subject, reconcile⟩⟩) := by
  simp only [claimCreate, createRow, bind_eq_ok, fetch_eq_ok] at h
  obtain ⟨-, -, r, hr, -, -, r', hr', h⟩ := h
  refine ⟨r, hr, ?_⟩
  split at h
  · obtain rfl := pure_eq_ok.mp h
    exact .inl ⟨_, rfl⟩
  · rename_i hclaimable
    refine .inr ⟨r', hr', by simpa using hclaimable, ?_⟩
    cases reconcile with
    | true =>
      simp only [takeCreate, bind_eq_ok, ensure_eq_ok, pure_eq_ok, not_true_eq_false, if_false] at h
      obtain ⟨x, ⟨-, hfresh, rfl⟩, rfl⟩ := h
      exact ⟨fun hfalse => absurd hfalse (by decide), hfresh, rfl⟩
    | false =>
      rw [if_pos (by decide)] at h
      simp only [takeCreate, bind_eq_ok, ensure_eq_ok, pure_eq_ok] at h
      obtain ⟨-, -, -, ⟨-, hlimit⟩, x, ⟨-, hfresh, rfl⟩, rfl⟩ := h
      exact ⟨fun _ => hlimit, hfresh, rfl⟩

theorem claimCreate_frame {subject : String} {id : Uuid} {reconcile : Bool} {fence : Option Int}
    {token : Uuid} {s : Settled CreateClaim}
    (h : claimCreate db now subject id reconcile fence token = .ok s) :
    ∃ c, s.db = { db with creates := c } := by
  obtain ⟨r, -, ⟨e, rfl⟩ | ⟨r', -, -, -, -, rfl⟩⟩ := claimCreate_ok h
  · exact ⟨_, rfl⟩
  · exact ⟨_, rfl⟩

theorem finishCreate_frame {p : Platform} {c : CreateClaim} {result : CreateResult}
    (h : finishCreate p db now c result = .ok db') : ∃ c, db' = { db with creates := c } := by
  simp only [finishCreate, bind_eq_ok] at h
  obtain ⟨r, -, attempt, -, h⟩ := h
  split at h
  · obtain rfl := pure_eq_ok.mp h
    exact ⟨db.creates, rfl⟩
  · simp only [bind_eq_ok, pure_eq_ok] at h
    obtain ⟨-, -, -, -, rfl⟩ := h
    exact ⟨_, rfl⟩

theorem cancelCreate_frame {subject : String} {id : Uuid} (h : cancelCreate db subject id = .ok db') :
    ∃ c, db' = { db with creates := c } := by
  simp only [cancelCreate, bind_eq_ok] at h
  obtain ⟨-, -, r, -, -, -, h⟩ := h
  split at h
  · obtain rfl := pure_eq_ok.mp h
    exact ⟨db.creates, rfl⟩
  · simp only [bind_eq_ok, pure_eq_ok] at h
    obtain ⟨-, -, rfl⟩ := h
    exact ⟨_, rfl⟩

/-! ## Deletions -/

theorem prepareDeletion_frame {review : Review} {input : PrepareDeletion}
    (h : prepareDeletion review db now input = .ok db') :
    ∃ d b x, db' = { db with directory := d, business := b, deletions := x } := by
  simp only [prepareDeletion, bind_eq_ok] at h
  obtain ⟨-, -, -, -, actor, -, h⟩ := h
  split at h
  · simp only [bind_eq_ok, pure_eq_ok] at h
    obtain ⟨-, -, rfl⟩ := h
    exact ⟨db.directory, db.business, db.deletions, rfl⟩
  · simp only [bind_eq_ok, commitDeletion] at h
    obtain ⟨-, -, target, -, -, -, -, -, -, -, d, -, d', -, db₁, hrevoke, hcommit⟩ := h
    obtain ⟨access, rfl⟩ := revokeClients_frame hrevoke
    obtain ⟨rfl, -⟩ := commit_ok hcommit
    exact ⟨_, _, _, rfl⟩

theorem queryDeletion_frame {subject : String} {id : Uuid}
    (h : queryDeletion db now subject id = .ok db') :
    ∃ b x, db' = { db with business := b, deletions := x } := by
  simp only [queryDeletion, bind_eq_ok, pure_eq_ok] at h
  obtain ⟨-, -, r, -, -, -, db₁, hdenial, rfl⟩ := h
  obtain ⟨b, rfl⟩ := maintainDenial_frame hdenial
  exact ⟨b, _, rfl⟩

/-- What a claim writes: a lease, a count and an attempt. -/
def Deletions.taken (x : Deletions) (now : Int) (r : Deletion) (reconcile : Bool) (token : Uuid) :
    Deletions :=
  { x.update r.id (fun r' => { r' with
      state := if reconcile then .reconciling ⟨token, now + 30000000⟩
        else .dispatching ⟨token, now + 30000000⟩
      fence := r.fence + 1
      attempts := if reconcile then r'.attempts else r'.attempts + 1
      errorCode := none }) with
    attempts := x.attempts ++
      [⟨token, r.id, r.fence + 1, if reconcile then .reconcile else .dispatch, none⟩] }

theorem grantDeletion_ok {r : Deletion} {subject : String} {reconcile : Bool} {fence : Option Int}
    {token : Uuid} {s : Settled DeletionClaim}
    (h : grantDeletion db now r subject reconcile fence token = .ok s) :
    (∃ b e, s = ⟨{ db with business := b }, .error e⟩) ∨
    r.state = (if reconcile then .needsReconciliation else .prepared) ∧
      (reconcile = false → r.attempts < 5 ∧
        ∃ target, db.directory.user r.targetUserId = some target ∧ deletionClear db r target) ∧
      (∀ a ∈ db.deletions.attempts, a.claimToken ≠ token) ∧
      s = ⟨{ db with deletions := db.deletions.taken now r reconcile token },
        .ok ⟨r.id, r.targetUserId, r.clerkUserId, token, r.fence + 1, subject, reconcile⟩⟩ := by
  rw [grantDeletion] at h
  by_cases hstate : r.state ≠ (if reconcile then .needsReconciliation else .prepared)
  · rw [if_pos hstate] at h
    obtain rfl := pure_eq_ok.mp h
    exact .inl ⟨_, _, rfl⟩
  rw [if_neg hstate] at h
  split at h
  · obtain rfl := pure_eq_ok.mp h
    exact .inl ⟨_, _, rfl⟩
  obtain ⟨target, htarget, h⟩ := bind_eq_ok.mp h
  split at h
  · obtain ⟨db₁, hdenial, h⟩ := bind_eq_ok.mp h
    obtain ⟨b, rfl⟩ := maintainDenial_frame hdenial
    obtain rfl := pure_eq_ok.mp h
    exact .inl ⟨b, _, rfl⟩
  · rename_i hclear
    simp only [takeDeletion, bind_eq_ok, ensure_eq_ok, pure_eq_ok] at h
    obtain ⟨-, hlimit, x, ⟨-, hfresh, rfl⟩, rfl⟩ := h
    refine .inr ⟨not_not.mp hstate, ?_, hfresh, rfl⟩
    rintro rfl
    simp only [user, fetch_eq_ok] at htarget
    exact ⟨(hlimit.resolve_left (by decide)).2, target, htarget, by simpa using hclear⟩

/-- A claim recovers the lease of its row, and then is refused or granted. -/
theorem claimDeletion_ok {subject : String} {id : Uuid} {reconcile : Bool} {fence : Option Int}
    {token : Uuid} {s : Settled DeletionClaim}
    (h : claimDeletion db now subject id reconcile fence token = .ok s) :
    ∃ r, lookup Deletion.id id db.deletions.rows = some r ∧
      ∃ r', lookup Deletion.id id (db.deletions.recover now r).rows = some r' ∧
        grantDeletion { db with deletions := db.deletions.recover now r } now r' subject reconcile
          fence token = .ok s := by
  simp only [claimDeletion, deletionRow, bind_eq_ok, fetch_eq_ok] at h
  obtain ⟨-, -, r, hr, -, -, r', hr', h⟩ := h
  exact ⟨r, hr, r', hr', h⟩

theorem claimDeletion_frame {subject : String} {id : Uuid} {reconcile : Bool} {fence : Option Int}
    {token : Uuid} {s : Settled DeletionClaim}
    (h : claimDeletion db now subject id reconcile fence token = .ok s) :
    ∃ b x, s.db = { db with business := b, deletions := x } := by
  obtain ⟨r, -, r', -, hgrant⟩ := claimDeletion_ok h
  obtain ⟨b, e, rfl⟩ | ⟨-, -, -, rfl⟩ := grantDeletion_ok hgrant
  · exact ⟨b, _, rfl⟩
  · exact ⟨db.business, _, rfl⟩

theorem finishDeletion_frame {c : DeletionClaim} {result : DeletionResult}
    (h : finishDeletion db now c result = .ok db') :
    ∃ b x, db' = { db with business := b, deletions := x } := by
  simp only [finishDeletion, bind_eq_ok] at h
  obtain ⟨r, -, attempt, -, h⟩ := h
  split at h
  · obtain rfl := pure_eq_ok.mp h
    exact ⟨db.business, db.deletions, rfl⟩
  · obtain ⟨-, -, hdenial⟩ := bind_eq_ok.mp h
    obtain ⟨b, rfl⟩ := maintainDenial_frame hdenial
    exact ⟨b, _, rfl⟩

theorem finalizeDeletion_frame {subject : String} {id : Uuid} {s : Settled Unit}
    (h : finalizeDeletion db subject id = .ok s) :
    ∃ d b x, s.db = { db with directory := d, business := b, deletions := x } := by
  simp only [finalizeDeletion, bind_eq_ok] at h
  obtain ⟨-, -, r, -, -, -, h⟩ := h
  split at h
  · obtain rfl := pure_eq_ok.mp h
    exact ⟨db.directory, db.business, db.deletions, rfl⟩
  · simp only [bind_eq_ok] at h
    obtain ⟨-, -, target, -, h⟩ := h
    split at h
    · simp only [completeDeletion, bind_eq_ok, pure_eq_ok] at h
      obtain ⟨db₁, ⟨db₂, hrevoke, d, -, d', -, hcommit⟩, rfl⟩ := h
      obtain ⟨access, rfl⟩ := revokeClients_frame hrevoke
      obtain ⟨rfl, -⟩ := commit_ok hcommit
      exact ⟨_, _, _, rfl⟩
    · simp only [bind_eq_ok, pure_eq_ok] at h
      obtain ⟨db₁, hdenial, rfl⟩ := h
      obtain ⟨b, rfl⟩ := maintainDenial_frame hdenial
      exact ⟨db.directory, b, db.deletions, rfl⟩

/-! ## Operations -/

theorem applyChange_frame {target : User} {role : Role} {status : Status} {draw : Draw}
    {change : Change} {affected : List Uuid}
    (h : applyChange db target role status draw change = .ok (db', affected)) :
    (∃ d b, db' = { db with directory := d, business := b }) ∧
      ∃ subs, affected = target.id :: subs := by
  cases change with
  | provisionAgency =>
    obtain ⟨db₁, hprovision, h⟩ := bind_eq_ok.mp h
    obtain ⟨rfl, rfl⟩ := Prod.mk.inj (pure_eq_ok.mp h)
    exact ⟨provision_frame hprovision, _, rfl⟩
  | reactivateAgency expected =>
    simp only [applyChange, reactivate, bind_eq_ok, pure_eq_ok] at h
    obtain ⟨x, ⟨-, -, -, -, a, -, -, -, -, -, d, -, d', -, rfl⟩, d'', -, h⟩ := h
    obtain ⟨rfl, rfl⟩ := Prod.mk.inj h
    exact ⟨⟨d'', db.business, rfl⟩, _, rfl⟩
  | setRole _ | setAccess _ =>
    simp only [applyChange, setRoleStatus, bind_eq_ok] at h
    obtain ⟨d, -, h⟩ := h
    split at h
    · obtain ⟨rfl, rfl⟩ := Prod.mk.inj (pure_eq_ok.mp h)
      exact ⟨⟨d, db.business, rfl⟩, _, rfl⟩
    · simp only [bind_eq_ok, pure_eq_ok] at h
      obtain ⟨d', -, d'', -, h⟩ := h
      obtain ⟨rfl, rfl⟩ := Prod.mk.inj h
      exact ⟨⟨d'', db.business, rfl⟩, _, rfl⟩

/-- What a change of a new operation commits. -/
theorem commitChange_ok {actor target : User} {input : ChangeRequest} {fingerprint : Digest}
    {draw : Draw} {role : Role} {status : Status}
    (h : commitChange db now actor target input fingerprint draw role status = .ok db') :
    ∃ db₁ affected access updated e₁ e₂,
      applyChange db target role status draw input.change = .ok (db₁, affected) ∧
      Access.revokeClients db₁.business.access (db₁.business.clientsOf db₁.directory
        ((affected.filterMap db₁.directory.user).map User.subject)) = .ok access ∧
      db₁.directory.user target.id = some updated ∧
      db.effects.insertOperation {
        id := input.operationId
        actorUserId := actor.id
        targetUserId := target.id
        action := input.change.action
        requestHash := fingerprint
        expectedVersion := input.expectedVersion
        resultingVersion := updated.version
        resultingRole := role
        resultingStatus := status
        state := .pendingEffects } = .ok e₁ ∧
      e₁.enqueue now input.operationId (changeOrders db₁.directory draw target.id affected) = .ok e₂ ∧
      db' = { db₁ with business := { db₁.business with access := access }, effects := e₂ } ∧
      db₁.directory.Consistent := by
  simp only [commitChange, bind_eq_ok, mapError_eq_ok] at h
  obtain ⟨x, happly, db₂, hrevoke, updated, hupdated, e₁, hinsert, e₂, henqueue, hcommit⟩ := h
  obtain ⟨⟨d, b, hdb₁⟩, -⟩ := applyChange_frame happly
  simp only [revokeClients, bind_eq_ok, mapError_eq_ok, pure_eq_ok] at hrevoke
  obtain ⟨access, haccess, rfl⟩ := hrevoke
  obtain ⟨rfl, hconsistent⟩ := commit_ok hcommit
  simp only [user, fetch_eq_ok] at hupdated
  rw [hdb₁] at hinsert
  exact ⟨x.1, x.2, access, updated, e₁, e₂, happly, haccess, hupdated, hinsert, henqueue, rfl,
    hconsistent⟩

/-- A change replays an operation, or decides and commits a new one. -/
theorem change_ok {hash : Uuid → ChangeRequest → Digest} {input : ChangeRequest} {draw : Draw}
    (h : change hash db now input draw = .ok db') :
    db' = db ∨ ∃ a target role status, 0 < input.expectedVersion ∧
      actor db input.clerkUserId = .ok a ∧ db.directory.user input.targetUserId = some target ∧
      scope db a target = .ok () ∧
      lookup Operation.id input.operationId db.effects.operations = none ∧
      decideChange db a target input = .ok (role, status) ∧
      commitChange db now a target input (hash a.id input) draw role status = .ok db' := by
  simp only [change, user, bind_eq_ok, ensure_eq_ok, fetch_eq_ok] at h
  obtain ⟨-, hversion, -, -, a, ha, target, htarget, _, hscope, h⟩ := h
  split at h
  · simp only [bind_eq_ok, pure_eq_ok] at h
    obtain ⟨-, -, rfl⟩ := h
    exact .inl rfl
  · rename_i hnone
    obtain ⟨x, hdecide, hcommit⟩ := bind_eq_ok.mp h
    exact .inr ⟨a, target, x.1, x.2, hversion, ha, htarget, hscope, hnone, hdecide, hcommit⟩

/-- Provisioning grants a new user and enqueues the effects on it. -/
theorem provisioningCommit_ok {u : ProviderUser} {grant : Grant} {draw : Draw}
    (h : provisioningCommit db now u grant draw = .ok db') :
    db.inbox.isDeleted u.id = false ∧
      (∀ u' ∈ db.directory.users, u'.subject ≠ u.id ∧ u'.id ≠ grant.userId) ∧
      ∃ db₁ target e₁ e₂ m,
        grantRole { db with directory := { db.directory with
          users := db.directory.users ++ [newUser grant.userId u .customer .onboarding] } } grant draw =
          .ok db₁ ∧
        db₁.directory.user grant.userId = some target ∧
        db.effects.insertOperation {
          id := grant.operationId
          actorUserId := grant.actorId
          targetUserId := grant.userId
          action := grant.action
          requestHash := grant.requestHash
          expectedVersion := 1
          resultingVersion := target.version
          resultingRole := grant.role
          resultingStatus := target.status
          state := .pendingEffects } = .ok e₁ ∧
        e₁.enqueue now grant.operationId (targetEffects draw target) = .ok e₂ ∧
        db' = { db₁ with effects := e₂, mails := m } := by
  simp only [provisioningCommit, guardSubject, Directory.insertUser, user, bind_eq_ok, ensure_eq_ok,
    mapError_eq_ok, fetch_eq_ok, pure_eq_ok] at h
  obtain ⟨-, hdeleted, -, hnew, -, -, d, ⟨-, -, -, -, rfl⟩, db₁, hgrant, target, htarget, e₁, hinsert,
    e₂, henqueue, rfl⟩ := h
  obtain ⟨d', b', hdb₁⟩ := grantRole_frame hgrant
  refine ⟨by simpa using hdeleted, ?_, db₁, target, e₁, e₂, _, hgrant, htarget, ?_, henqueue, rfl⟩
  · intro u' hu'
    simp only [List.any_eq_true, decide_eq_true_eq, not_exists, not_and, not_or] at hnew
    exact hnew u' hu'
  · rw [hdb₁] at hinsert
    exact hinsert

/-- The grant a creation ends with. -/
def Create.grant (r : Create) (actor : Uuid) : Grant where
  operationId := r.id
  actorId := actor
  userId := r.userId
  requestHash := r.requestHash
  role := r.role
  agencyId := r.agencyId
  action := .createAccount

/-- A creation is finalized once, for the subject that was confirmed. -/
theorem finalizeCreate_ok {subject : String} {id : Uuid} {clerk : String} {verified : ProviderUser}
    {draw : Draw} (h : finalizeCreate db now subject id clerk verified draw = .ok db') :
    db' = db ∨ ∃ r a db₁, lookup Create.id id db.creates.rows = some r ∧
      r.state = .providerConfirmed clerk ∧ verified.id = clerk ∧
      authorizeCreate db subject r.intent (some r.actorUserId) = .ok a ∧
      agencyScope db r.intent id = .ok () ∧
      provisioningCommit db now (r.intent.profile verified) (r.grant a.id) draw = .ok db₁ ∧
      db' = { db₁ with
        creates := db.creates.update id fun r => { r with state := .completed clerk } } ∧
      db₁.directory.Consistent := by
  simp only [finalizeCreate, createRow, bind_eq_ok, fetch_eq_ok] at h
  obtain ⟨_, hvalid, r, hr, a, ha, h⟩ := h
  split at h
  · exact .inl (pure_eq_ok.mp h).symm
  · rename_i confirmed hstate
    simp only [bind_eq_ok, ensure_eq_ok] at h
    obtain ⟨-, rfl, _, hscope, db₁, hcommit, h⟩ := h
    obtain ⟨rfl, hconsistent⟩ := commit_ok h
    simp only [ProviderUser.validate, bind_eq_ok, ensure_eq_ok] at hvalid
    obtain ⟨-, hverified, -⟩ := hvalid
    have hid : r.id = id := lookup_key hr
    refine .inr ⟨r, a, db₁, hr, hstate, hverified, ha, hscope, ?_, ?_, hconsistent⟩
    · rw [Create.grant, hid]
      exact hcommit
    · obtain ⟨-, -, db₂, target, e₁, e₂, m, hgrant, -, -, -, rfl⟩ := provisioningCommit_ok hcommit
      obtain ⟨d, b, rfl⟩ := grantRole_frame hgrant
      rfl
  · cases h

/-- The grant an invitation ends with. -/
def Invitation.grant (r : Invitation) : Grant where
  operationId := r.id
  actorId := r.issuerUserId
  userId := r.userId
  requestHash := r.requestHash
  role := r.role
  agencyId := r.agencyId
  action := .acceptInvitation

/-- An invitation is accepted once, by the user the provider confirmed. -/
theorem accept_ok {p : Platform} {o : Observation} {result : InvitationResult} {draw : Draw}
    (h : accept p db now o result draw = .ok db') :
    db' = db ∨ ∃ r u db₁, lookup Invitation.id o.id db.invitations.rows = some r ∧
      acceptedUser p o result = .ok u ∧ checkAcceptance db r = .ok () ∧
      provisioningCommit db now u r.grant draw = .ok db₁ ∧
      (∀ r' ∈ db.invitations.rows, r'.state ≠ .accepted o.subject) ∧
      db' = { db₁ with invitations := (db.invitations.update o.id fun r' => { r' with
        state := .accepted o.subject }).blockMail o.id } ∧
      db₁.directory.Consistent := by
  simp only [accept, invitationRow, bind_eq_ok, fetch_eq_ok] at h
  obtain ⟨u, hu, r, hr, h⟩ := h
  split at h
  · exact .inl (pure_eq_ok.mp h).symm
  · simp only [bind_eq_ok] at h
    obtain ⟨_, hcheck, db₁, hcommit, _, hunique, h⟩ := h
    obtain ⟨rfl, hconsistent⟩ := commit_ok h
    have hid : r.id = o.id := lookup_key hr
    have hinvitations : db₁.invitations = db.invitations := by
      obtain ⟨-, -, db₂, target, e₁, e₂, m, hgrant, -, -, -, rfl⟩ := provisioningCommit_ok hcommit
      obtain ⟨d, b, rfl⟩ := grantRole_frame hgrant
      rfl
    rw [hinvitations, ensure_eq_ok] at hunique
    rw [hinvitations]
    refine .inr ⟨r, u, db₁, hr, hu, hcheck, ?_, hunique, rfl, hconsistent⟩
    rw [Invitation.grant, hid]
    exact hcommit

/-- A command on a user inserts its operation and enqueues its effects. -/
theorem commandEffects_ok {id : Uuid} {actor target : User} {action : Action} {hash : Digest}
    {names : Option (String × String)} {draw : Draw}
    (h : commandEffects db now id actor target action hash names draw = .ok db') :
    ∃ current e₁ e₂ mirrored, db.directory.user target.id = some current ∧
      db.effects.insertOperation {
        id := id
        actorUserId := actor.id
        targetUserId := target.id
        action := action
        requestHash := hash
        expectedVersion := target.version
        resultingVersion := current.version
        resultingRole := current.role
        resultingStatus := current.status
        state := .pendingEffects } = .ok e₁ ∧
      e₁.enqueue now id (commandOrders draw names current) = .ok e₂ ∧
      db' = { db with effects := { e₂ with names := mirrored } } := by
  simp only [commandEffects, user, bind_eq_ok, fetch_eq_ok, mapError_eq_ok, pure_eq_ok] at h
  obtain ⟨current, hcurrent, e₁, hinsert, e₂, henqueue, rfl⟩ := h
  exact ⟨current, e₁, e₂, _, hcurrent, hinsert, henqueue, rfl⟩

/-- An acceptance provisions the applicant, adds to its profile and tells its clients. -/
theorem acceptApplication_ok {actor target : User} {fields : ApplicationFields}
    {input : ReviewApplication} {draw : Draw}
    (h : acceptApplication db now actor target fields input draw = .ok db') :
    ∃ db₁ current p access db₂, provision db target draw = .ok db₁ ∧
      db₁.directory.user target.id = some current ∧
      db.papers.transfer target.id fields current.email = .ok p ∧
      commandEffects { db₁ with
        papers := p
        business := { db₁.business with access := access } } now input.operationId actor target
        .approveApplication input.requestHash none draw = .ok db₂ ∧
      db' = { db₂ with mails := db₂.mails.enqueue now draw.mail (.b2bActivated target.id) } := by
  simp only [acceptApplication, user, bind_eq_ok, fetch_eq_ok, mapError_eq_ok, pure_eq_ok] at h
  obtain ⟨db₁, hprovision, current, hcurrent, p, htransfer, db₂, hrevoke, db₃, heffects, rfl⟩ := h
  obtain ⟨access, rfl⟩ := revokeClients_frame hrevoke
  refine ⟨db₁, current, p, access, db₃, hprovision, hcurrent, ?_, heffects, rfl⟩
  obtain ⟨d, b, rfl⟩ := provision_frame hprovision
  exact htransfer

/-- What a reviewer of an application has shown: an active actor who may grant the agency role, and
the versions it has read. -/
structure Reviewing (db : Db) (input : ReviewApplication) (a target : User)
    (application : Application) : Prop where
  reviewer : phase5Actor db input.clerkUserId = .ok a
  applicant : db.directory.user input.targetUserId = some target
  undeleted : db.inbox.isDeleted target.subject = false
  active : a.status = .active
  grants : a.role.canGrant .b2b
  other : a.id ≠ input.targetUserId
  customer : target.role = .customer
  status : target.status = .onboarding ∨ target.status = .active
  identityVersion : target.version = input.expectedIdentityVersion
  applied : db.papers.application target.id = some application
  pending : application.status = .pending
  version : application.version = input.expectedVersion
  profileVersion : db.papers.profileVersion target.id .profile = input.expectedProfileVersion
  fresh : lookup Command.id input.operationId db.papers.commands = none

/-- An application is decided once. -/
theorem review_ok {input : ReviewApplication} {draw : Draw}
    (h : review db now input draw = .ok db') :
    db' = db ∨ ∃ a target application db₁ p, Reviewing db input a target application ∧
      decideApplication db now a target application.fields input draw = .ok db₁ ∧
      db₁.papers.updateApplication target.id (fun x => { x with
        status := input.decision.status
        reviewerId := some a.id
        reviewNote := some (trim input.note)
        reviewedAt := some now }) = .ok p ∧
      db' = { db₁ with papers := { p with commands := p.commands ++ [⟨input.operationId, a.id,
        target.id, input.decision.action, input.requestHash, application.version + 1⟩] } } ∧
      db₁.directory.Consistent := by
  simp only [review, phase5Target, guardSubject, user, bind_eq_ok, ensure_eq_ok, fetch_eq_ok] at h
  obtain ⟨-, -, a, ha, target, ⟨target', htarget, -, hdeleted, h'⟩, -, ⟨hactive, hgrant, hother⟩,
    old, hold, h⟩ := h
  simp only [pure_eq_ok] at h'
  obtain ⟨-, -, rfl⟩ := h'
  split at h
  · exact .inl (pure_eq_ok.mp h).symm
  · simp only [bind_eq_ok, ensure_eq_ok, fetch_eq_ok, mapError_eq_ok] at h
    obtain ⟨application, happlication, -, ⟨hrole, hstatus, hpending, happlied, hversion, hprofile⟩,
      db₁, hdecide, p, hpapers, db₂, hcommand, h⟩ := h
    rw [commitCommand_frame hcommand] at h
    obtain ⟨rfl, hconsistent⟩ := commit_ok h
    have hfresh : lookup Command.id input.operationId db.papers.commands = none := by
      cases hlookup : lookup Command.id input.operationId db.papers.commands with
      | none => rfl
      | some c =>
        simp only [replay, hlookup, bind_eq_ok, pure_eq_ok] at hold
        obtain ⟨-, -, hold⟩ := hold
        cases hold
    exact .inr ⟨a, target', application, db₁, p, ⟨ha, htarget, by simpa using hdeleted, hactive,
      hgrant, hother, hrole, hstatus, hversion, happlication, hpending, happlied, hprofile, hfresh⟩,
      hdecide, hpapers, rfl, hconsistent⟩

/-- A sub-user is renamed by the owner of its agency. -/
theorem rename_ok {input : Rename} {draw : Draw} (h : rename db now input draw = .ok db') :
    db' = db ∨ ∃ a target d db₁ names c,
      profileScope db input.clerkUserId input.targetUserId .staff true = .ok (a, target) ∧
      a.role = .b2b ∧ a.id ≠ input.targetUserId ∧ target.version = input.expectedVersion ∧
      db.directory.updateUser target.id (fun u => { u with
        firstName := some (trim input.firstName)
        lastName := some (trim input.lastName) }) = .ok d ∧
      commandEffects { db with directory := d } now input.operationId a target .renameSubUser
        input.requestHash (some names) draw = .ok db₁ ∧
      db' = { db₁ with papers := { db.papers with commands := db.papers.commands ++ [c] } } := by
  simp only [rename, bind_eq_ok, ensure_eq_ok] at h
  obtain ⟨-, -, x, hscope, -, ⟨hrole, hne⟩, old, -, h⟩ := h
  split at h
  · exact .inl (pure_eq_ok.mp h).symm
  · simp only [bind_eq_ok, ensure_eq_ok, mapError_eq_ok] at h
    obtain ⟨-, hversion, d, hupdate, db₁, heffects, hcommand⟩ := h
    have hpapers : db₁.papers = db.papers := by
      obtain ⟨current, e₁, e₂, mirrored, -, -, -, rfl⟩ := commandEffects_ok heffects
      rfl
    rw [commitCommand_frame hcommand, hpapers]
    exact .inr ⟨x.1, x.2, d, db₁, _, _, hscope, hrole, hne, hversion, hupdate, heffects, rfl⟩

/-! ## Invitations -/

/-- What a claim writes: a lease, a count and an attempt. -/
def Invitations.taken (i : Invitations) (now : Int) (r : Invitation) (revoke observe : Bool)
    (token : Uuid) : Invitations :=
  { i.update r.id (fun r' => { r' with
      state := claimedState revoke observe ⟨token, now + 30000000⟩
      fence := r.fence + 1
      issueAttempts := if claimedKind revoke observe = .issue then r'.issueAttempts + 1
        else r'.issueAttempts
      revokeAttempts := if claimedKind revoke observe = .revoke then r'.revokeAttempts + 1
        else r'.revokeAttempts
      errorCode := none }) with
    attempts := i.attempts ++
      [⟨token, r.id, r.fence + 1, claimedKind revoke observe, none, none⟩] }

theorem prepareInvitation_ok {p : Platform} {hash : Uuid → String → InvitationGrant → Digest}
    {input : PrepareInvitation} {draw : Draw}
    (h : prepareInvitation p hash db now input draw = .ok db') :
    db' = db ∨ lookup Invitation.id input.operationId db.invitations.rows = none ∧
      ∃ address actor fingerprint,
        insertInvitation p db now actor input.operationId address input.grant fingerprint draw =
          .ok db' := by
  simp only [prepareInvitation, bind_eq_ok] at h
  obtain ⟨address, -, -, -, actor, -, h⟩ := h
  split at h
  · simp only [bind_eq_ok, pure_eq_ok] at h
    obtain ⟨-, -, -, -, rfl⟩ := h
    exact .inl rfl
  · rename_i hnone
    exact .inr ⟨hnone, address, actor, _, h⟩

theorem prepareInvitation_frame {p : Platform} {hash : Uuid → String → InvitationGrant → Digest}
    {input : PrepareInvitation} {draw : Draw}
    (h : prepareInvitation p hash db now input draw = .ok db') :
    ∃ i, db' = { db with invitations := i } := by
  obtain rfl | ⟨-, address, actor, fingerprint, hinsert⟩ := prepareInvitation_ok h
  · exact ⟨db'.invitations, rfl⟩
  · simp only [insertInvitation, bind_eq_ok, pure_eq_ok] at hinsert
    obtain ⟨x, -, -, -, -, -, -, -, rfl⟩ := hinsert
    exact ⟨_, rfl⟩

theorem queryInvitation_ok {subject : String} {id : Uuid}
    (h : queryInvitation db now subject id = .ok db') :
    ∃ r, lookup Invitation.id id db.invitations.rows = some r ∧
      db' = { db with invitations := db.invitations.recover now r } := by
  simp only [queryInvitation, invitationRow, bind_eq_ok, fetch_eq_ok, pure_eq_ok] at h
  obtain ⟨-, -, r, hr, -, -, rfl⟩ := h
  exact ⟨r, hr, rfl⟩

/-- A revocation is requested once, for an open invitation that was not accepted. -/
theorem requestRevoke_ok {input : RevokeInvitation} (h : requestRevoke db input = .ok db') :
    db' = db ∨ ∃ r, lookup Invitation.id input.operationId db.invitations.rows = some r ∧
      r.state.isOpen ∧ r.revocationRequested = false ∧ r.version = input.expectedVersion ∧
      db' = { db with invitations := (db.invitations.update r.id fun r' => { r' with
        revocationRequested := true
        state := if r'.state = .prepared then .cancelled else r'.state }).blockMail r.id } := by
  simp only [requestRevoke, invitationRow, bind_eq_ok, fetch_eq_ok] at h
  obtain ⟨-, -, -, -, r, hr, -, -, h⟩ := h
  split at h
  · cases h
  · split at h
    · exact .inl (pure_eq_ok.mp h).symm
    · rename_i hopen
      simp only [bind_eq_ok, ensure_eq_ok, pure_eq_ok] at h
      obtain ⟨-, hversion, rfl⟩ := h
      obtain ⟨hrequested, hstate⟩ := not_or.mp hopen
      exact .inr ⟨r, hr, not_not.mp hstate, by simpa using hrequested, hversion, rfl⟩

/-- A claim recovers the lease of its row, and then is refused or granted. -/
theorem claimInvitation_ok {subject : String} {id : Uuid} {observe : Bool} {fence : Option Int}
    {token : Uuid} {s : Settled InvitationClaim}
    (h : claimInvitation db now subject id observe fence token = .ok s) :
    ∃ r, lookup Invitation.id id db.invitations.rows = some r ∧
      ((∃ e, s = ⟨{ db with invitations := db.invitations.recover now r }, .error e⟩) ∨
      ∃ r' revoke, lookup Invitation.id id (db.invitations.recover now r).rows = some r' ∧
        r'.claimed observe = some revoke ∧
        (observe = false → checkDispatch { db with invitations := db.invitations.recover now r } now r'
          revoke = .ok ()) ∧
        (∀ a ∈ (db.invitations.recover now r).attempts, a.claimToken ≠ token) ∧
        s = ⟨{ db with invitations :=
            (db.invitations.recover now r).taken now r' revoke observe token },
          .ok ⟨r'.input, token, r'.fence + 1, subject, revoke, observe⟩⟩) := by
  simp only [claimInvitation, invitationRow, bind_eq_ok, fetch_eq_ok] at h
  obtain ⟨-, -, r, hr, -, -, r', hr', h⟩ := h
  refine ⟨r, hr, ?_⟩
  split at h
  · exact .inl ⟨_, (pure_eq_ok.mp h).symm⟩
  rename_i revoke hclaimed
  split at h
  · exact .inl ⟨_, (pure_eq_ok.mp h).symm⟩
  refine .inr ⟨r', revoke, hr', hclaimed, ?_⟩
  cases observe with
  | true =>
    simp only [takeInvitation, bind_eq_ok, ensure_eq_ok, pure_eq_ok, not_true_eq_false, if_false] at h
    obtain ⟨x, ⟨-, hfresh, rfl⟩, rfl⟩ := h
    exact ⟨fun hfalse => absurd hfalse (by decide), hfresh, rfl⟩
  | false =>
    rw [if_pos (by decide)] at h
    simp only [takeInvitation, bind_eq_ok, ensure_eq_ok, pure_eq_ok] at h
    obtain ⟨_, hcheck, x, ⟨-, hfresh, rfl⟩, rfl⟩ := h
    exact ⟨fun _ => hcheck, hfresh, rfl⟩

theorem claimInvitation_frame {subject : String} {id : Uuid} {observe : Bool} {fence : Option Int}
    {token : Uuid} {s : Settled InvitationClaim}
    (h : claimInvitation db now subject id observe fence token = .ok s) :
    ∃ i, s.db = { db with invitations := i } := by
  obtain ⟨r, -, ⟨e, rfl⟩ | ⟨r', revoke, -, -, -, -, rfl⟩⟩ := claimInvitation_ok h
  · exact ⟨_, rfl⟩
  · exact ⟨_, rfl⟩

theorem finishInvitation_frame {p : Platform} {c : InvitationClaim} {result : InvitationResult}
    {mail : Uuid} (h : finishInvitation p db now c result mail = .ok db') :
    ∃ i m, db' = { db with invitations := i, mails := m } := by
  simp only [finishInvitation, bind_eq_ok] at h
  obtain ⟨r, -, attempt, -, h⟩ := h
  split at h
  · obtain rfl := pure_eq_ok.mp h
    exact ⟨db.invitations, db.mails, rfl⟩
  · simp only [bind_eq_ok, pure_eq_ok] at h
    obtain ⟨-, -, -, -, rfl⟩ := h
    exact ⟨_, _, rfl⟩

/-- A refresh changes nothing, or ends an invitation the provider ended. -/
theorem refreshInvitation_ok {p : Platform} {o : Observation} {result : InvitationResult}
    (h : refreshInvitation p db o result = .ok db') :
    db' = db ∨ ∃ (r : Invitation) (s : Snapshot),
      lookup Invitation.id o.id db.invitations.rows = some r ∧
      r.version = o.version ∧ (s.state = .expired ∨ s.state = .revoked) ∧ s.valid p o.input ∧
      db' = { db with invitations := (db.invitations.update o.id fun r' => { r' with
        state := evidenceState s.state }).blockMail o.id } := by
  simp only [refreshInvitation] at h
  split at h
  · rename_i s
    simp only [invitationRow, bind_eq_ok, ensure_eq_ok, fetch_eq_ok] at h
    obtain ⟨-, hvalid, r, hr, -, -, -, hversion, h⟩ := h
    split at h
    · rename_i hstate
      exact .inr ⟨r, s, hr, hversion, hstate, hvalid, (pure_eq_ok.mp h).symm⟩
    · exact .inl (pure_eq_ok.mp h).symm
  · cases h

/-! ## Mail -/

theorem claimMail_frame {token : Uuid} {c : Option MailClaim}
    (h : claimMail db now token = .ok (db', c)) : ∃ m, db' = { db with mails := m } := by
  simp only [claimMail, bind_eq_ok, pure_eq_ok] at h
  obtain ⟨x, -, h⟩ := h
  obtain ⟨rfl, -⟩ := Prod.mk.inj h
  exact ⟨_, rfl⟩

theorem startMail_frame {c : MailClaim} (h : startMail db now c = .ok db') :
    ∃ m, db' = { db with mails := m } := by
  simp only [startMail, bind_eq_ok, pure_eq_ok] at h
  obtain ⟨-, -, -, -, rfl⟩ := h
  exact ⟨_, rfl⟩

theorem finishMail_frame {c : MailClaim} {outcome : MailOutcome}
    (h : finishMail db now c outcome = .ok db') : ∃ m, db' = { db with mails := m } := by
  simp only [finishMail, bind_eq_ok, pure_eq_ok] at h
  obtain ⟨r, -, -, -, rfl⟩ := h
  exact ⟨_, rfl⟩

/-! ## Inbox -/

theorem ingest_frame {e : ProviderEvent} (h : ingest db now e = .ok db') :
    ∃ d b i, db' = { db with directory := d, business := b, inbox := i } := by
  simp only [ingest, bind_eq_ok] at h
  obtain ⟨-, -, h⟩ := h
  split at h
  · simp only [bind_eq_ok, pure_eq_ok] at h
    obtain ⟨-, -, rfl⟩ := h
    exact ⟨db.directory, db.business, db.inbox, rfl⟩
  · split at h
    · obtain ⟨d, b, rfl⟩ := contain_frame h
      exact ⟨d, b, _, rfl⟩
    · obtain rfl := pure_eq_ok.mp h
      exact ⟨db.directory, db.business, _, rfl⟩

theorem claimEvent_frame (db : Db) (now : Int) (token : Uuid) :
    ∃ i, (claimEvent db now token).1 = { db with inbox := i } := by
  simp only [claimEvent]
  split
  · exact ⟨_, rfl⟩
  · exact ⟨_, rfl⟩

theorem applyProfile_frame {c : InboxClaim} {u : ProviderUser} (h : applyProfile db c u = .ok db') :
    ∃ d i, db' = { db with directory := d, inbox := i } := by
  rw [applyProfile] at h
  split at h
  · obtain rfl := pure_eq_ok.mp h
    exact ⟨db.directory, db.inbox, rfl⟩
  · simp only [bind_eq_ok, pure_eq_ok] at h
    obtain ⟨d, -, rfl⟩ := h
    exact ⟨d, _, rfl⟩

theorem applyObserved_frame {c : InboxClaim} {o : Observed} {retry : Bool}
    (h : applyObserved db c o = .ok (db', retry)) :
    ∃ d b i, db' = { db with directory := d, business := b, inbox := i } := by
  rw [applyObserved.eq_def] at h
  split at h
  · obtain ⟨rfl, -⟩ := Prod.mk.inj (pure_eq_ok.mp h)
    exact ⟨db.directory, db.business, db.inbox, rfl⟩
  · obtain ⟨db₁, hprofile, hresult⟩ := bind_eq_ok.mp h
    obtain ⟨rfl, -⟩ := Prod.mk.inj (pure_eq_ok.mp hresult)
    obtain ⟨d, i, rfl⟩ := applyProfile_frame hprofile
    exact ⟨d, db.business, i, rfl⟩
  · split at h
    · obtain ⟨db₁, hcontain, hresult⟩ := bind_eq_ok.mp h
      obtain ⟨rfl, -⟩ := Prod.mk.inj (pure_eq_ok.mp hresult)
      obtain ⟨d, b, rfl⟩ := contain_frame hcontain
      exact ⟨d, b, db.inbox, rfl⟩
    · obtain ⟨rfl, -⟩ := Prod.mk.inj (pure_eq_ok.mp h)
      exact ⟨db.directory, db.business, db.inbox, rfl⟩

theorem applyEvent_frame {c : InboxClaim} {answer : Except ApiError ProviderUser}
    (h : applyEvent db now c answer = .ok db') :
    ∃ d b i, db' = { db with directory := d, business := b, inbox := i } := by
  simp only [applyEvent, bind_eq_ok, pure_eq_ok] at h
  obtain ⟨r, -, -, -, x, hobserved, rfl⟩ := h
  obtain ⟨d, b, i, hx⟩ := applyObserved_frame hobserved
  rw [hx]
  exact ⟨d, b, _, rfl⟩

theorem retryEvent_frame {id : String} {fence : Int} (h : retryEvent db now id fence = .ok db') :
    ∃ i, db' = { db with inbox := i } := by
  simp only [retryEvent, bind_eq_ok, pure_eq_ok] at h
  obtain ⟨-, -, rfl⟩ := h
  exact ⟨_, rfl⟩

/-! ## Documents -/

theorem prepareDocument_frame {archive : Archive} {input : PrepareDocument}
    (h : prepareDocument archive db input = .ok db') : ∃ p, db' = { db with papers := p } := by
  simp only [prepareDocument, bind_eq_ok] at h
  obtain ⟨-, -, x, -, h⟩ := h
  split at h
  · simp only [bind_eq_ok, pure_eq_ok] at h
    obtain ⟨-, -, rfl⟩ := h
    exact ⟨db.papers, rfl⟩
  · simp only [bind_eq_ok, pure_eq_ok] at h
    obtain ⟨-, -, p, -, rfl⟩ := h
    exact ⟨p, rfl⟩

theorem startDocument_frame {input : AssetRequest} (h : startDocument db input = .ok db') :
    ∃ p, db' = { db with papers := p } := by
  simp only [startDocument, bind_eq_ok, pure_eq_ok] at h
  obtain ⟨a, -, x, -, -, -, p, -, rfl⟩ := h
  exact ⟨p, rfl⟩

theorem finishDocument_frame {input : FinishDocument} (h : finishDocument db input = .ok db') :
    ∃ p, db' = { db with papers := p } := by
  simp only [finishDocument, bind_eq_ok] at h
  obtain ⟨a, -, x, -, -, -, h⟩ := h
  split at h
  · obtain rfl := pure_eq_ok.mp h
    exact ⟨db.papers, rfl⟩
  · obtain ⟨-, -, h⟩ := bind_eq_ok.mp h
    split at h
    · obtain rfl := pure_eq_ok.mp h
      exact ⟨db.papers, rfl⟩
    · simp only [bind_eq_ok, pure_eq_ok] at h
      obtain ⟨-, -, p, -, rfl⟩ := h
      exact ⟨p, rfl⟩

theorem removeDocument_frame {archive : Archive} {input : RemoveDocument}
    (h : removeDocument archive db input = .ok db') : ∃ p, db' = { db with papers := p } := by
  simp only [removeDocument, bind_eq_ok] at h
  obtain ⟨-, -, x, -, old, -, h⟩ := h
  split at h
  · obtain rfl := pure_eq_ok.mp h
    exact ⟨db.papers, rfl⟩
  · simp only [bind_eq_ok] at h
    obtain ⟨-, -, p, -, hcommand⟩ := h
    rw [commitCommand_frame hcommand]
    exact ⟨_, rfl⟩

theorem submit_frame {input : SubmitApplication} (h : submit db input = .ok db') :
    ∃ p, db' = { db with papers := p } := by
  simp only [submit, bind_eq_ok] at h
  obtain ⟨fields, -, -, -, actor, -, -, -, old, -, h⟩ := h
  split at h
  · obtain rfl := pure_eq_ok.mp h
    exact ⟨db.papers, rfl⟩
  · simp only [bind_eq_ok] at h
    obtain ⟨-, -, -, -, p, -, hcommand⟩ := h
    rw [commitCommand_frame hcommand]
    exact ⟨_, rfl⟩

theorem editProfile_frame {forms : ProfileForms} {input : EditProfile} {count : Nat}
    (h : editProfile forms db input count = .ok db') : ∃ p, db' = { db with papers := p } := by
  simp only [editProfile, bind_eq_ok] at h
  obtain ⟨-, -, x, -, change, -, h⟩ := h
  split at h
  · simp only [bind_eq_ok, pure_eq_ok] at h
    obtain ⟨-, -, rfl⟩ := h
    exact ⟨db.papers, rfl⟩
  · simp only [bind_eq_ok, pure_eq_ok] at h
    obtain ⟨-, -, -, -, p, -, q, -, rfl⟩ := h
    exact ⟨q, rfl⟩

/-! ## Business -/

theorem write_frame {w : Write} (h : db.write w = .ok db') : ∃ b, db' = { db with business := b } := by
  simp only [Db.write, bind_eq_ok, pure_eq_ok] at h
  obtain ⟨-, -, b, -, rfl⟩ := h
  exact ⟨b, rfl⟩

theorem writes_frame {writes : List Write} (h : writes.foldlM Db.write db = .ok db') :
    ∃ b, db' = { db with business := b } := by
  induction writes generalizing db with
  | nil =>
    obtain rfl := pure_eq_ok.mp h
    exact ⟨db.business, rfl⟩
  | cons w writes ih =>
    rw [List.foldlM_cons, bind_eq_ok] at h
    obtain ⟨db₁, hwrite, hrest⟩ := h
    obtain ⟨b, rfl⟩ := write_frame hwrite
    obtain ⟨b', rfl⟩ := ih hrest
    exact ⟨b', rfl⟩

theorem commitBusiness_frame {c : Context} {writes : List Write}
    (h : commitBusiness db c writes = .ok db') : ∃ b, db' = { db with business := b } := by
  obtain ⟨-, -, hwrites⟩ := bind_eq_ok.mp h
  exact writes_frame hwrites

/-! ## The whole system -/

/-- The tables of the database, and what is between two transactions. -/
inductive Part where
  | directory
  | effects
  | creates
  | deletions
  | invitations
  | mails
  | inbox
  | papers
  | business
  | effectClaims
  | delivered
  | reported
  | createClaims
  | deletionClaims
  | invitationClaims
  | acceptances
  | refreshes
  | eventClaims
  | contexts
  deriving DecidableEq

/-- What a request may write. -/
def Request.writes : Request → List Part
  | .bootstrap .. => [.directory]
  | .onboard .. => [.directory, .mails]
  | .change .. => [.directory, .effects, .business]
  | .operationQuery .. => [.effects]
  | .prepareCreate .. | .queryCreate .. | .cancelCreate .. => [.creates]
  | .finalizeCreate .. => [.directory, .effects, .creates, .mails, .business]
  | .prepareDeletion .. | .finalizeDeletion .. => [.directory, .deletions, .business]
  | .queryDeletion .. => [.deletions, .business]
  | .prepareInvitation .. | .queryInvitation .. | .requestRevoke .. => [.invitations]
  | .claimMail .. | .startMail .. | .finishMail .. => [.mails]
  | .ingest .. => [.directory, .inbox, .business]
  | .retryEvent .. => [.inbox]
  | .submit .. | .prepareDocument .. | .startDocument .. | .finishDocument ..
  | .removeDocument .. | .editProfile .. => [.papers]
  | .review .. => [.directory, .effects, .mails, .papers, .business]
  | .rename .. => [.directory, .effects, .papers]
  | .write .. => [.business]

/-- What an event may write. -/
def Event.writes : Event → List Part
  | .request r _ => r.writes
  | .claimEffect .. | .reconcileEffect .. => [.effects, .effectClaims]
  | .deliver .. => [.delivered]
  | .finishEffect .. => [.effects, .reported]
  | .claimCreate .. => [.creates, .createClaims]
  | .finishCreate .. => [.creates]
  | .claimDeletion .. => [.deletions, .business, .deletionClaims]
  | .finishDeletion .. => [.deletions, .business]
  | .claimInvitation .. => [.invitations, .invitationClaims]
  | .finishInvitation .. => [.invitations, .mails]
  | .startAccept .. => [.acceptances]
  | .accept .. => [.directory, .effects, .invitations, .mails, .business]
  | .startRefresh .. => [.refreshes]
  | .refresh .. => [.invitations]
  | .claimEvent .. => [.inbox, .eventClaims]
  | .applyEvent .. => [.directory, .inbox, .business]
  | .authorize .. => [.contexts]
  | .commit .. => [.business]

/-- Every table outside the list is as it was. -/
structure Db.Frame (parts : List Part) (db db' : Db) : Prop where
  directory : .directory ∉ parts → db'.directory = db.directory
  effects : .effects ∉ parts → db'.effects = db.effects
  creates : .creates ∉ parts → db'.creates = db.creates
  deletions : .deletions ∉ parts → db'.deletions = db.deletions
  invitations : .invitations ∉ parts → db'.invitations = db.invitations
  mails : .mails ∉ parts → db'.mails = db.mails
  inbox : .inbox ∉ parts → db'.inbox = db.inbox
  papers : .papers ∉ parts → db'.papers = db.papers
  business : .business ∉ parts → db'.business = db.business

/-- Everything outside the list is as it was. -/
structure System.Frame (parts : List Part) (s s' : System) : Prop where
  db : Db.Frame parts s.db s'.db
  effectClaims : .effectClaims ∉ parts → s'.effectClaims = s.effectClaims
  delivered : .delivered ∉ parts → s'.delivered = s.delivered
  reported : .reported ∉ parts → s'.reported = s.reported
  createClaims : .createClaims ∉ parts → s'.createClaims = s.createClaims
  deletionClaims : .deletionClaims ∉ parts → s'.deletionClaims = s.deletionClaims
  invitationClaims : .invitationClaims ∉ parts → s'.invitationClaims = s.invitationClaims
  acceptances : .acceptances ∉ parts → s'.acceptances = s.acceptances
  refreshes : .refreshes ∉ parts → s'.refreshes = s.refreshes
  eventClaims : .eventClaims ∉ parts → s'.eventClaims = s.eventClaims
  contexts : .contexts ∉ parts → s'.contexts = s.contexts

theorem Db.Frame.refl (parts : List Part) (db : Db) : Db.Frame parts db db :=
  ⟨fun _ => rfl, fun _ => rfl, fun _ => rfl, fun _ => rfl, fun _ => rfl, fun _ => rfl, fun _ => rfl,
    fun _ => rfl, fun _ => rfl⟩

variable {desk : Desk} {s s' : System}

/-- A step that writes the database only. -/
theorem Db.Frame.system {parts : List Part} {db' : Db} (h : Db.Frame parts s.db db') :
    System.Frame parts s { s with db := db' } :=
  ⟨h, fun _ => rfl, fun _ => rfl, fun _ => rfl, fun _ => rfl, fun _ => rfl, fun _ => rfl, fun _ => rfl,
    fun _ => rfl, fun _ => rfl, fun _ => rfl⟩

theorem request_frame {r : Request} (h : r.run desk db now = .ok db') : Db.Frame r.writes db db' := by
  cases r with
  | bootstrap u draw =>
    obtain ⟨d, rfl⟩ := bootstrap_frame h
    constructor <;> simp [Request.writes]
  | onboard u draw =>
    obtain ⟨d, m, rfl⟩ := onboard_frame h
    constructor <;> simp [Request.writes]
  | change input draw =>
    obtain rfl | ⟨a, target, role, status, -, -, -, -, -, -, hcommit⟩ := change_ok h
    · exact .refl _ _
    obtain ⟨db₁, affected, access, updated, e₁, e₂, happly, -, -, -, -, rfl, -⟩ := commitChange_ok hcommit
    obtain ⟨⟨d, b, rfl⟩, -⟩ := applyChange_frame happly
    constructor <;> simp [Request.writes]
  | operationQuery subject id =>
    simp only [Request.run, operationQuery, bind_eq_ok, pure_eq_ok] at h
    obtain ⟨-, -, -, -, -, -, -, -, -, -, rfl⟩ := h
    constructor <;> simp [Request.writes]
  | prepareCreate input draw =>
    obtain ⟨c, rfl⟩ := prepareCreate_frame h
    constructor <;> simp [Request.writes]
  | queryCreate subject id =>
    obtain ⟨r, -, rfl⟩ := queryCreate_frame h
    constructor <;> simp [Request.writes]
  | cancelCreate subject id =>
    obtain ⟨c, rfl⟩ := cancelCreate_frame h
    constructor <;> simp [Request.writes]
  | finalizeCreate subject id clerk verified draw =>
    obtain rfl | ⟨r, a, db₁, -, -, -, -, -, hcommit, rfl, -⟩ := finalizeCreate_ok h
    · exact .refl _ _
    obtain ⟨-, -, db₂, target, e₁, e₂, m, hgrant, -, -, -, rfl⟩ := provisioningCommit_ok hcommit
    obtain ⟨d, b, rfl⟩ := grantRole_frame hgrant
    constructor <;> simp [Request.writes]
  | prepareDeletion input =>
    obtain ⟨d, b, x, rfl⟩ := prepareDeletion_frame h
    constructor <;> simp [Request.writes]
  | queryDeletion subject id =>
    obtain ⟨b, x, rfl⟩ := queryDeletion_frame h
    constructor <;> simp [Request.writes]
  | finalizeDeletion subject id =>
    obtain ⟨x, hx, rfl⟩ := map_eq_ok.mp h
    obtain ⟨d, b, y, hdb⟩ := finalizeDeletion_frame hx
    rw [hdb]
    constructor <;> simp [Request.writes]
  | prepareInvitation input draw =>
    obtain ⟨i, rfl⟩ := prepareInvitation_frame h
    constructor <;> simp [Request.writes]
  | queryInvitation subject id =>
    obtain ⟨r, -, rfl⟩ := queryInvitation_ok h
    constructor <;> simp [Request.writes]
  | requestRevoke input =>
    obtain rfl | ⟨r, -, -, -, -, rfl⟩ := requestRevoke_ok h
    · exact .refl _ _
    constructor <;> simp [Request.writes]
  | claimMail token =>
    obtain ⟨x, hx, rfl⟩ := map_eq_ok.mp h
    obtain ⟨m, hdb⟩ := claimMail_frame hx
    rw [hdb]
    constructor <;> simp [Request.writes]
  | startMail c =>
    obtain ⟨m, rfl⟩ := startMail_frame h
    constructor <;> simp [Request.writes]
  | finishMail c outcome =>
    obtain ⟨m, rfl⟩ := finishMail_frame h
    constructor <;> simp [Request.writes]
  | ingest e =>
    obtain ⟨d, b, i, rfl⟩ := ingest_frame h
    constructor <;> simp [Request.writes]
  | retryEvent id fence =>
    obtain ⟨i, rfl⟩ := retryEvent_frame h
    constructor <;> simp [Request.writes]
  | submit input =>
    obtain ⟨p, rfl⟩ := submit_frame h
    constructor <;> simp [Request.writes]
  | review input draw =>
    obtain rfl | ⟨a, target, application, db₁, p, -, hdecide, -, rfl, -⟩ := review_ok h
    · exact .refl _ _
    rw [decideApplication] at hdecide
    split at hdecide
    · obtain ⟨db₂, current, q, access, db₃, hprovision, -, -, heffects, rfl⟩ :=
        acceptApplication_ok hdecide
      obtain ⟨current', e₁, e₂, mirrored, -, -, -, rfl⟩ := commandEffects_ok heffects
      obtain ⟨d, b, rfl⟩ := provision_frame hprovision
      constructor <;> simp [Request.writes]
    · obtain rfl := pure_eq_ok.mp hdecide
      constructor <;> simp [Request.writes]
  | rename input draw =>
    obtain rfl | ⟨a, target, d, db₁, names, c, -, -, -, -, -, heffects, rfl⟩ := rename_ok h
    · exact .refl _ _
    obtain ⟨current, e₁, e₂, mirrored, -, -, -, rfl⟩ := commandEffects_ok heffects
    constructor <;> simp [Request.writes]
  | prepareDocument input =>
    obtain ⟨p, rfl⟩ := prepareDocument_frame h
    constructor <;> simp [Request.writes]
  | startDocument input =>
    obtain ⟨p, rfl⟩ := startDocument_frame h
    constructor <;> simp [Request.writes]
  | finishDocument input =>
    obtain ⟨p, rfl⟩ := finishDocument_frame h
    constructor <;> simp [Request.writes]
  | removeDocument input =>
    obtain ⟨p, rfl⟩ := removeDocument_frame h
    constructor <;> simp [Request.writes]
  | editProfile input count =>
    obtain ⟨p, rfl⟩ := editProfile_frame h
    constructor <;> simp [Request.writes]
  | write w =>
    obtain ⟨b, rfl⟩ := write_frame h
    constructor <;> simp [Request.writes]

theorem step_frame {ev : Event} (h : s.step desk ev = .ok s') : System.Frame ev.writes s s' := by
  cases ev with
  | request r now =>
    obtain ⟨db, hrun, hs⟩ := bind_eq_ok.mp h
    obtain rfl := pure_eq_ok.mp hs
    exact (request_frame hrun).system
  | claimEffect worker token now =>
    obtain ⟨x, -, hs⟩ := bind_eq_ok.mp h
    obtain rfl := pure_eq_ok.mp hs
    exact ⟨by constructor <;> simp [Event.writes], by simp [Event.writes], fun _ => rfl, fun _ => rfl,
      fun _ => rfl, fun _ => rfl, fun _ => rfl, fun _ => rfl, fun _ => rfl, fun _ => rfl, fun _ => rfl⟩
  | reconcileEffect worker id fence token now =>
    obtain ⟨x, -, hs⟩ := bind_eq_ok.mp h
    obtain rfl := pure_eq_ok.mp hs
    exact ⟨by constructor <;> simp [Event.writes], by simp [Event.writes], fun _ => rfl, fun _ => rfl,
      fun _ => rfl, fun _ => rfl, fun _ => rfl, fun _ => rfl, fun _ => rfl, fun _ => rfl, fun _ => rfl⟩
  -- the provider is called outside of a transaction, so the rows stay
  | deliver c =>
    simp only [System.step, bind_eq_ok, pure_eq_ok] at h
    obtain ⟨-, -, rfl⟩ := h
    exact ⟨.refl _ _, fun _ => rfl, by simp [Event.writes], fun _ => rfl, fun _ => rfl, fun _ => rfl,
      fun _ => rfl, fun _ => rfl, fun _ => rfl, fun _ => rfl, fun _ => rfl⟩
  | finishEffect c result now =>
    simp only [System.step, bind_eq_ok, pure_eq_ok] at h
    obtain ⟨-, -, e, -, rfl⟩ := h
    exact ⟨by constructor <;> simp [Event.writes], fun _ => rfl, fun _ => rfl, by simp [Event.writes],
      fun _ => rfl, fun _ => rfl, fun _ => rfl, fun _ => rfl, fun _ => rfl, fun _ => rfl, fun _ => rfl⟩
  | claimCreate subject id reconcile fence token now =>
    obtain ⟨r, hclaim, hs⟩ := bind_eq_ok.mp h
    obtain rfl := pure_eq_ok.mp hs
    obtain ⟨c, hdb⟩ := claimCreate_frame hclaim
    refine ⟨?_, fun _ => rfl, fun _ => rfl, fun _ => rfl, by simp [Event.writes], fun _ => rfl,
      fun _ => rfl, fun _ => rfl, fun _ => rfl, fun _ => rfl, fun _ => rfl⟩
    show Db.Frame _ s.db r.db
    rw [hdb]
    constructor <;> simp [Event.writes]
  | finishCreate c result now =>
    simp only [System.step, bind_eq_ok, pure_eq_ok] at h
    obtain ⟨-, -, db, hfinish, rfl⟩ := h
    obtain ⟨c, rfl⟩ := finishCreate_frame hfinish
    refine Db.Frame.system ?_
    constructor <;> simp [Event.writes]
  | claimDeletion subject id reconcile fence token now =>
    obtain ⟨r, hclaim, hs⟩ := bind_eq_ok.mp h
    obtain rfl := pure_eq_ok.mp hs
    obtain ⟨b, x, hdb⟩ := claimDeletion_frame hclaim
    refine ⟨?_, fun _ => rfl, fun _ => rfl, fun _ => rfl, fun _ => rfl, by simp [Event.writes],
      fun _ => rfl, fun _ => rfl, fun _ => rfl, fun _ => rfl, fun _ => rfl⟩
    show Db.Frame _ s.db r.db
    rw [hdb]
    constructor <;> simp [Event.writes]
  | finishDeletion c result now =>
    simp only [System.step, bind_eq_ok, pure_eq_ok] at h
    obtain ⟨-, -, db, hfinish, rfl⟩ := h
    obtain ⟨b, x, rfl⟩ := finishDeletion_frame hfinish
    refine Db.Frame.system ?_
    constructor <;> simp [Event.writes]
  | claimInvitation subject id observe fence token now =>
    obtain ⟨r, hclaim, hs⟩ := bind_eq_ok.mp h
    obtain rfl := pure_eq_ok.mp hs
    obtain ⟨i, hdb⟩ := claimInvitation_frame hclaim
    refine ⟨?_, fun _ => rfl, fun _ => rfl, fun _ => rfl, fun _ => rfl, fun _ => rfl,
      by simp [Event.writes], fun _ => rfl, fun _ => rfl, fun _ => rfl, fun _ => rfl⟩
    show Db.Frame _ s.db r.db
    rw [hdb]
    constructor <;> simp [Event.writes]
  | finishInvitation c result mail now =>
    simp only [System.step, bind_eq_ok, pure_eq_ok] at h
    obtain ⟨-, -, db, hfinish, rfl⟩ := h
    obtain ⟨i, m, rfl⟩ := finishInvitation_frame hfinish
    refine Db.Frame.system ?_
    constructor <;> simp [Event.writes]
  | startAccept subject id =>
    obtain ⟨o, -, hs⟩ := bind_eq_ok.mp h
    obtain rfl := pure_eq_ok.mp hs
    exact ⟨.refl _ _, fun _ => rfl, fun _ => rfl, fun _ => rfl, fun _ => rfl, fun _ => rfl,
      fun _ => rfl, by simp [Event.writes], fun _ => rfl, fun _ => rfl, fun _ => rfl⟩
  | accept o result draw now =>
    simp only [System.step, bind_eq_ok, pure_eq_ok] at h
    obtain ⟨-, -, db, haccept, rfl⟩ := h
    refine Db.Frame.system ?_
    obtain rfl | ⟨r, u, db₁, -, -, -, hcommit, -, rfl, -⟩ := accept_ok haccept
    · exact .refl _ _
    obtain ⟨-, -, db₂, target, e₁, e₂, m, hgrant, -, -, -, rfl⟩ := provisioningCommit_ok hcommit
    obtain ⟨d, b, rfl⟩ := grantRole_frame hgrant
    constructor <;> simp [Event.writes]
  | startRefresh subject id =>
    obtain ⟨o, -, hs⟩ := bind_eq_ok.mp h
    obtain rfl := pure_eq_ok.mp hs
    exact ⟨.refl _ _, fun _ => rfl, fun _ => rfl, fun _ => rfl, fun _ => rfl, fun _ => rfl,
      fun _ => rfl, fun _ => rfl, by simp [Event.writes], fun _ => rfl, fun _ => rfl⟩
  | refresh o result =>
    simp only [System.step, bind_eq_ok, pure_eq_ok] at h
    obtain ⟨-, -, db, hrefresh, rfl⟩ := h
    refine Db.Frame.system ?_
    obtain rfl | ⟨r, x, -, -, -, -, rfl⟩ := refreshInvitation_ok hrefresh
    · exact .refl _ _
    constructor <;> simp [Event.writes]
  | claimEvent token now =>
    cases h
    obtain ⟨i, hdb⟩ := claimEvent_frame s.db now token
    refine ⟨?_, fun _ => rfl, fun _ => rfl, fun _ => rfl, fun _ => rfl, fun _ => rfl, fun _ => rfl,
      fun _ => rfl, fun _ => rfl, by simp [Event.writes], fun _ => rfl⟩
    show Db.Frame _ s.db (claimEvent s.db now token).1
    rw [hdb]
    constructor <;> simp [Event.writes]
  | applyEvent c answer now =>
    simp only [System.step, bind_eq_ok, pure_eq_ok] at h
    obtain ⟨-, -, db, happly, rfl⟩ := h
    obtain ⟨d, b, i, rfl⟩ := applyEvent_frame happly
    refine Db.Frame.system ?_
    constructor <;> simp [Event.writes]
  | authorize subject targets clients =>
    obtain ⟨c, -, hs⟩ := bind_eq_ok.mp h
    obtain rfl := pure_eq_ok.mp hs
    exact ⟨.refl _ _, fun _ => rfl, fun _ => rfl, fun _ => rfl, fun _ => rfl, fun _ => rfl,
      fun _ => rfl, fun _ => rfl, fun _ => rfl, fun _ => rfl, by simp [Event.writes]⟩
  | commit c writes =>
    simp only [System.step, bind_eq_ok, pure_eq_ok] at h
    obtain ⟨-, -, db, hcommit, rfl⟩ := h
    obtain ⟨b, rfl⟩ := commitBusiness_frame hcommit
    refine Db.Frame.system ?_
    constructor <;> simp [Event.writes]

end ShaponTravels.Identity
