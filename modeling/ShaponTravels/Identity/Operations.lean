import ShaponTravels.Identity.Agencies

/-!
# Operations — changes of role and access

`operations.rs`: one transaction checks the actor, changes the target and its agency, revokes the
clients of everyone affected and enqueues the provider effects.  Replies, audit rows and the rate
limits are left out.
-/

namespace ShaponTravels.Identity

open Library

/-- `Change`. -/
inductive Change where
  | setRole (role : Role)
  | setAccess (active : Bool)
  | provisionAgency
  | reactivateAgency (expectedAgencyVersion : Int)
  deriving DecidableEq

def Change.action : Change → Action
  | .setRole _ => .setRole
  | .setAccess _ => .setAccess
  | .provisionAgency => .provisionAgency
  | .reactivateAgency _ => .reactivateAgency

/-- `ChangeRequest`. -/
structure ChangeRequest where
  clerkUserId : String
  operationId : Uuid
  targetUserId : Uuid
  expectedVersion : Int
  change : Change
  deriving DecidableEq

/-- `scope`. -/
def scope (db : Db) (actor target : User) : Except ApiError Unit :=
  if actor.role.managesUsers then authorizeManagement actor target false
  else
    let owned := ((db.directory.ownedAgency actor.id).filter fun a => a.status = .active).map Agency.id
    let member := ((db.directory.membership target.id).filter fun m => m.kind = .sub).map
      Membership.agencyId
    authorizeSubUser actor target owned member

/-- The operation id belongs to another journal. -/
def Db.reserved (db : Db) (id : Uuid) : Bool :=
  (db.creates.rows.any fun r => r.id = id) || (db.deletions.rows.any fun r => r.id = id) ||
    (db.invitations.rows.any fun r => r.id = id)

/-- The user is a member of some agency. -/
def Directory.isMember (d : Directory) (id : Uuid) : Bool := d.memberships.any fun m => m.userId = id

/-- The role and the status a change asks for. -/
def requested (db : Db) (actor target : User) : Change → Except ApiError (Role × Status)
  | .setRole role => do
    ensure (actor.role.canGrant role) forbidden
    if role ≠ target.role then
      ensure (¬ db.directory.isMember target.id) (conflict "IDENTITY_MEMBERSHIP_DEPENDENCY")
      ensure (¬ role.requiresAgency) (conflict "IDENTITY_AGENCY_PROVISIONING_REQUIRED")
    return (role, target.status)
  | .provisionAgency => do
    ensure (actor.role.managesUsers) forbidden
    return (.b2b, .active)
  | .reactivateAgency _ => do
    ensure (actor.role.managesUsers) forbidden
    return (.b2b, .active)
  | .setAccess active => return (target.role, if active then .active else .suspended)

/-- The change brings or restores an agency itself. -/
def Change.agencyChange : Change → Bool
  | .provisionAgency | .reactivateAgency _ => true
  | _ => false

/-- The agency of the target is active, and so is its owner when that is somebody else. -/
def Directory.usable (d : Directory) (target : Uuid) : Bool :=
  d.memberships.any fun m => m.userId = target ∧ d.agencies.any fun a => a.id = m.agencyId ∧
    a.status = .active ∧ d.users.any fun o => o.id = a.ownerUserId ∧
      (o.id = target ∨ o.status = .active)

/-- The writes of a change of role or access; a suspended owner suspends the agency. -/
def setRoleStatus (db : Db) (target : User) (role : Role) (status : Status) :
    Except ApiError (Db × List Uuid) := do
  let d ← (db.directory.updateUser target.id fun u =>
    { u with role := role, status := status }).mapError .ofDb
  let agency := if target.role = .b2b ∧ status = .suspended then
      (d.ownedAgency target.id).filter fun a => a.status ≠ .archived
    else none
  match agency with
  | none => return ({ db with directory := d }, [target.id])
  | some a => do
    let d ← (d.setAgency a.id .suspended).mapError .ofDb
    let subs := d.subs a.id
    let d ← (d.invalidateMembers a.id).mapError .ofDb
    return ({ db with directory := d }, target.id :: subs)

/-- The writes of a change, and the users it affects, the target first. -/
def applyChange (db : Db) (target : User) (role : Role) (status : Status) (draw : Draw) :
    Change → Except ApiError (Db × List Uuid)
  | .provisionAgency => do
    let db ← provision db target draw
    return (db, [target.id])
  | .reactivateAgency expected => do
    let (db, agency) ← reactivate db target expected
    let subs := db.directory.subs agency
    let d ← (db.directory.invalidateMembers agency).mapError .ofDb
    return ({ db with directory := d }, target.id :: subs)
  | .setRole _ | .setAccess _ => setRoleStatus db target role status

/-- The kinds of effect a user affected by a change gets. -/
def changeKinds (target : Uuid) (u : User) : List EffectKind :=
  if u.id = target then [.revokeSessions, .mirrorMetadata] else [.revokeSessions]

/-- The effects of a change: the sessions of everyone affected are revoked, and the metadata of the
target is mirrored. -/
def changeOrders (d : Directory) (draw : Draw) (target : Uuid) (affected : List Uuid) :
    List Effects.Order :=
  let kinds := (affected.filterMap d.user).flatMap fun u =>
    (changeKinds target u).map fun kind => (kind, u)
  kinds.zipIdx.map fun x => ⟨draw.effects x.2, x.1.1, x.1.2⟩

/-- The checks of `change` on a new operation: what the target becomes. -/
def decideChange (db : Db) (actor target : User) (input : ChangeRequest) :
    Except ApiError (Role × Status) := do
  ensure (¬ db.reserved input.operationId) (conflict "IDENTITY_IDEMPOTENCY_CONFLICT")
  ensure (target.version = input.expectedVersion) (conflict "IDENTITY_VERSION_CONFLICT")
  let (role, status) ← requested db actor target input.change
  ensure (¬ (role = target.role ∧ status = target.status)) (conflict "IDENTITY_NO_CHANGE")
  if status = .active ∧ role.requiresAgency ∧ ¬ input.change.agencyChange then
    ensure (db.directory.usable target.id) (conflict "IDENTITY_AGENCY_REACTIVATION_REQUIRED")
  if status = .active then
    guardSubject db target.subject
  guardLastSuperadmin db.directory target.id role status
  return (role, status)

/-- The writes of `change` on a new operation. -/
def commitChange (db : Db) (now : Int) (actor target : User) (input : ChangeRequest)
    (fingerprint : Digest) (draw : Draw) (role : Role) (status : Status) : Except ApiError Db := do
  let (db, affected) ← applyChange db target role status draw input.change
  let users := affected.filterMap db.directory.user
  let db ← revokeClients db (users.map User.subject)
  let updated ← user db target.id
  let e ← (db.effects.insertOperation {
    id := input.operationId
    actorUserId := actor.id
    targetUserId := target.id
    action := input.change.action
    requestHash := fingerprint
    expectedVersion := input.expectedVersion
    resultingVersion := updated.version
    resultingRole := role
    resultingStatus := status
    state := .pendingEffects }).mapError .ofDb
  let e ← (e.enqueue now input.operationId
    (changeOrders db.directory draw target.id affected)).mapError .ofDb
  { db with effects := e }.commit

/-- `change`. -/
def change (hash : Uuid → ChangeRequest → Digest) (db : Db) (now : Int) (input : ChangeRequest)
    (draw : Draw) : Except ApiError Db := do
  ensure (0 < input.expectedVersion) ⟨.badRequest, "IDENTITY_INVALID_VERSION"⟩
  requireBootstrap db
  let actor ← actor db input.clerkUserId
  let target ← user db input.targetUserId
  scope db actor target
  let fingerprint := hash actor.id input
  match lookup Operation.id input.operationId db.effects.operations with
  | some previous => do
    ensure (previous.requestHash = fingerprint) (conflict "IDENTITY_IDEMPOTENCY_CONFLICT")
    return db
  | none => do
    let (role, status) ← decideChange db actor target input
    commitChange db now actor target input fingerprint draw role status

/-- `operations::query`, which recovers the leases that ran out. -/
def operationQuery (db : Db) (now : Int) (subject : String) (id : Uuid) : Except ApiError Db := do
  requireBootstrap db
  let actor ← actor db subject
  let o ← fetch (lookup Operation.id id db.effects.operations)
    ⟨.notFound, "IDENTITY_OPERATION_NOT_FOUND"⟩
  let target ← user db o.targetUserId
  scope db actor target
  return { db with effects := db.effects.recoverExpired now }

end ShaponTravels.Identity
