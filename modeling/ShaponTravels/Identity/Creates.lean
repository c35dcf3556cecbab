import ShaponTravels.Identity.Operations

/-!
# Creates — accounts created at the provider

`creates.rs` with migration 0038: an intent is prepared, claimed under a lease, finished with the
answer of the provider and finalized by a local grant.  Some calls commit the recovery of a lease
and then refuse: what they leave is `Settled`.
-/

namespace ShaponTravels.Identity

open Library

/-- What a call leaves: the database it committed, and its reply, which may still be a refusal. -/
structure Settled (α : Type) where
  db : Db
  reply : Except ApiError α

/-- `creates::Intent`. -/
structure Intent where
  email : String
  firstName : String
  lastName : String
  role : Role
  agencyId : Option Uuid
  expectedAgencyVersion : Option Int
  deriving DecidableEq

def invalidCreate : ApiError := ⟨.badRequest, "IDENTITY_INVALID_CREATE"⟩

/-- `email.trim().to_lowercase()`. -/
def normalEmail (p : Platform) (email : String) : String := p.toLowercase (trim email)

/-- The checks of `normalized` and `invitations::email` on an address. -/
def validEmail (email : String) : Bool :=
  let chars := email.toList
  let domain := (chars.dropWhile (· ≠ '@')).drop 1
  '@' ∈ chars && email.utf8ByteSize ≤ 254 && chars.takeWhile (· ≠ '@') ≠ [] && '@' ∉ domain &&
    '.' ∈ domain && domain.head? ≠ some '.' && domain.getLast? ≠ some '.' &&
    !chars.any fun c => isWhitespace c || isControl c

/-- `normalized`. -/
def normalized (p : Platform) (intent : Intent) : Except ApiError Intent := do
  let intent := { intent with
    email := normalEmail p intent.email
    firstName := trim intent.firstName
    lastName := trim intent.lastName }
  ensure (validEmail intent.email ∧ intent.firstName ≠ "" ∧ intent.firstName.utf8ByteSize ≤ 400 ∧
    intent.lastName.utf8ByteSize ≤ 400 ∧
    ¬ (intent.firstName.toList.any isControl ∨ intent.lastName.toList.any isControl) ∧
    (intent.role = .b2bSub ↔ intent.agencyId.isSome) ∧
    (intent.agencyId.isSome ↔ intent.expectedAgencyVersion.isSome) ∧
    ¬ intent.expectedAgencyVersion.any (· ≤ 0)) invalidCreate
  return intent

/-- `Row::intent`. -/
def Create.intent (r : Create) : Intent where
  email := r.email
  firstName := r.firstName
  lastName := r.lastName
  role := r.role
  agencyId := r.agencyId
  expectedAgencyVersion := r.agencyVersion

/-- `row`. -/
def createRow (db : Db) (id : Uuid) : Except ApiError Create :=
  fetch (lookup Create.id id db.creates.rows) ⟨.notFound, "IDENTITY_OPERATION_NOT_FOUND"⟩

/-- `authorize`. -/
def authorizeCreate (db : Db) (subject : String) (intent : Intent) (owner : Option Uuid) :
    Except ApiError User := do
  let actor ← actor db subject
  ensure (actor.role.canGrant intent.role ∧
    ¬ owner.any (fun id => id ≠ actor.id ∧ actor.role ≠ .superadmin)) forbidden
  return actor

/-! ## Seats -/

/-- The members of an agency that are not deleted. -/
def Directory.members (d : Directory) (agency : Uuid) : Nat :=
  d.memberships.countP fun m => m.agencyId = agency ∧
    d.users.any fun u => u.id = m.userId ∧ u.status ≠ .deleted

/-- The open creations for an agency but one. -/
def Creates.openFor (c : Creates) (agency exclude : Uuid) : Nat :=
  c.rows.countP fun r => r.agencyId = some agency ∧ r.id ≠ exclude ∧ r.state.isOpen

/-- The open invitations to an agency but one. -/
def Invitations.openFor (i : Invitations) (agency exclude : Uuid) : Nat :=
  i.rows.countP fun r => r.agencyId = some agency ∧ r.id ≠ exclude ∧ r.state.isOpen

/-- `agency_scope`. -/
def agencyScope (db : Db) (intent : Intent) (exclude : Uuid) : Except ApiError Unit :=
  match intent.agencyId with
  | none => return ()
  | some id => do
    ensure (db.directory.agencies.any fun a => a.id = id ∧
      some a.version = intent.expectedAgencyVersion ∧ a.status = .active ∧
      db.directory.users.any fun o => o.id = a.ownerUserId ∧ o.status = .active ∧ o.role = .b2b)
      (conflict "IDENTITY_AGENCY_VERSION_CONFLICT")
    ensure (db.directory.members id + db.creates.openFor id exclude +
      db.invitations.openFor id exclude < 100) (conflict "IDENTITY_AGENCY_MEMBER_LIMIT")

/-! ## Preparation -/

/-- `creates::Prepare`. -/
structure PrepareCreate where
  clerkUserId : String
  operationId : Uuid
  intent : Intent
  deriving DecidableEq

/-- `prepare`, for a new operation. -/
def insertCreate (p : Platform) (db : Db) (now : Int) (actor : User) (id : Uuid) (intent : Intent)
    (hash : Digest) (draw : Draw) : Except ApiError Db := do
  let key := p.digest intent.email
  ensure (¬ ((db.effects.operations.any fun o => o.id = id) ∨
    (db.deletions.rows.any fun r => r.id = id) ∨
    (db.creates.rows.any fun r => r.emailKey = key ∧ r.state.isOpen) ∨
    (db.invitations.rows.any fun r => r.id = id ∨ r.emailKey = key ∧ r.state.isOpen)))
    (conflict "IDENTITY_CREATE_ALREADY_PENDING")
  agencyScope db intent id
  ensure (∀ r ∈ db.creates.rows, r.userId ≠ draw.user)
    (.ofDb (.unique "portal_identity_creates_user_id_key"))
  let row : Create := {
    id := id
    actorUserId := actor.id
    userId := draw.user
    requestHash := hash
    email := intent.email
    emailKey := key
    firstName := intent.firstName
    lastName := intent.lastName
    role := intent.role
    agencyId := intent.agencyId
    agencyVersion := intent.expectedAgencyVersion
    state := .prepared
    fence := 0
    attempts := 0
    nextAttemptAt := now
    errorCode := none }
  return { db with creates := { db.creates with rows := db.creates.rows ++ [row] } }

/-- `prepare`. -/
def prepareCreate (p : Platform) (hash : Uuid → Intent → Digest) (db : Db) (now : Int)
    (input : PrepareCreate) (draw : Draw) : Except ApiError Db := do
  let intent ← normalized p input.intent
  requireBootstrap db
  let actor ← authorizeCreate db input.clerkUserId intent none
  let fingerprint := hash actor.id intent
  match lookup Create.id input.operationId db.creates.rows with
  | some old => do
    ensure (old.requestHash = fingerprint) (conflict "IDENTITY_IDEMPOTENCY_CONFLICT")
    return db
  | none => insertCreate p db now actor input.operationId intent fingerprint draw

/-! ## Leases -/

/-- `UPDATE portal_identity_creates … WHERE id = $1`. -/
def Creates.update (c : Creates) (id : Uuid) (f : Create → Create) : Creates :=
  { c with rows := modify Create.id id f c.rows }

/-- The outcome of an attempt that has none is set. -/
def recordOutcome (token : Uuid) (outcome : AttemptOutcome) (attempts : List Attempt) :
    List Attempt :=
  modify Attempt.claimToken token
    (fun a => if a.outcome = none then { a with outcome := some outcome } else a) attempts

/-- `recover`. -/
def Creates.recover (c : Creates) (now : Int) (r : Create) : Creates :=
  match r.state with
  | .dispatching l | .reconciling l =>
    if l.leaseUntil ≤ now then
      { c.update r.id (fun r => { r with
          state := .needsReconciliation
          errorCode := some "IDENTITY_PROVIDER_OUTCOME_UNKNOWN" }) with
        attempts := recordOutcome l.token .unknown c.attempts }
    else c
  | _ => c

/-- `query`. -/
def queryCreate (db : Db) (now : Int) (subject : String) (id : Uuid) : Except ApiError Db := do
  requireBootstrap db
  let r ← createRow db id
  let _ ← authorizeCreate db subject r.intent (some r.actorUserId)
  return { db with creates := db.creates.recover now r }

/-! ## Claims -/

/-- `creates::Claim`. -/
structure CreateClaim where
  operationId : Uuid
  intent : Intent
  token : Uuid
  fence : Int
  actor : String
  reconcile : Bool
  deriving DecidableEq

/-- The row may be claimed: a write from `prepared`, a read from `needs_reconciliation`. -/
def Create.claimable (r : Create) (reconcile : Bool) (expectedFence : Option Int) : Bool :=
  if reconcile then r.state = .needsReconciliation && expectedFence = some r.fence
  else r.state = .prepared

/-- The writes of a claim. -/
def takeCreate (db : Db) (now : Int) (r : Create) (subject : String) (reconcile : Bool)
    (token : Uuid) : Except ApiError (Db × CreateClaim) := do
  let lease : Lease := ⟨token, now + 30000000⟩
  let fence := r.fence + 1
  ensure (∀ a ∈ db.creates.attempts, a.claimToken ≠ token)
    (.ofDb (.unique "portal_identity_create_attempts_pkey"))
  let attempt : Attempt := ⟨token, r.id, fence, if reconcile then .reconcile else .dispatch, none⟩
  let creates := { db.creates.update r.id (fun r => { r with
      state := if reconcile then .reconciling lease else .dispatching lease
      fence := fence
      attempts := if reconcile then r.attempts else r.attempts + 1
      errorCode := none }) with
    attempts := db.creates.attempts ++ [attempt] }
  return ({ db with creates := creates }, ⟨r.id, r.intent, token, fence, subject, reconcile⟩)

/-- `claim`. -/
def claimCreate (db : Db) (now : Int) (subject : String) (id : Uuid) (reconcile : Bool)
    (expectedFence : Option Int) (token : Uuid) : Except ApiError (Settled CreateClaim) := do
  requireBootstrap db
  let r ← createRow db id
  let _ ← authorizeCreate db subject r.intent (some r.actorUserId)
  let db := { db with creates := db.creates.recover now r }
  let r ← createRow db id
  if ¬ r.claimable reconcile expectedFence then
    return ⟨db, .error (conflict "IDENTITY_CREATE_STATE_CONFLICT")⟩
  else do
    if ¬ reconcile then
      agencyScope db r.intent id
      ensure (r.nextAttemptAt ≤ now ∧ r.attempts < 5) (conflict "IDENTITY_CREATE_RETRY_LATER")
    let (db, claim) ← takeCreate db now r subject reconcile token
    return ⟨db, .ok claim⟩

/-- `creates::Confirmation`. -/
structure CreateConfirmation where
  operationId : Uuid
  user : ProviderUser
  deriving DecidableEq

/-- `creates::ResultFromProvider`. -/
inductive CreateResult where
  | confirmed (c : CreateConfirmation)
  | notSent
  | unknown
  deriving DecidableEq

/-- The confirmation is of this operation and of an account with the intended email. -/
def CreateClaim.verifies (p : Platform) (claim : CreateClaim) (c : CreateConfirmation) : Bool :=
  c.operationId = claim.operationId && (validateSubject c.user.id).isOk &&
    (c.user.validate c.user.id).isOk &&
    c.user.email.any fun e => normalEmail p e = claim.intent.email

/-- The provider subject a result confirms. -/
def CreateClaim.confirmed (p : Platform) (claim : CreateClaim) : CreateResult → Option String
  | .confirmed c => if claim.verifies p c then some c.user.id else none
  | _ => none

/-- The outcome a result is recorded with. -/
def CreateClaim.outcome (p : Platform) (claim : CreateClaim) (result : CreateResult) :
    AttemptOutcome :=
  if (claim.confirmed p result).isSome then .confirmed
  else if result = .notSent ∧ ¬ claim.reconcile then .notSent
  else .unknown

/-- The state and the error a result leaves a creation in. -/
def createResultState (attempts : Nat) (confirmed : Option String) (outcome : AttemptOutcome) :
    CreateState × Option String :=
  match confirmed, outcome with
  | some subject, _ => (.providerConfirmed subject, none)
  | none, .notSent =>
    if attempts < 5 then (.prepared, some "IDENTITY_PROVIDER_NOT_SENT")
    else (.cancelled, some "IDENTITY_PROVIDER_RETRY_LIMIT")
  | none, _ => (.needsReconciliation, some "IDENTITY_PROVIDER_OUTCOME_UNKNOWN")

/-- The claim is the current one of the row and its lease has not run out. -/
def CreateClaim.holds (claim : CreateClaim) (r : Create) (now : Int) : Bool :=
  r.fence = claim.fence &&
    match r.state with
    | .dispatching l => !claim.reconcile && l.token = claim.token && now < l.leaseUntil
    | .reconciling l => claim.reconcile && l.token = claim.token && now < l.leaseUntil
    | _ => false

/-- `finish`. -/
def finishCreate (p : Platform) (db : Db) (now : Int) (claim : CreateClaim)
    (result : CreateResult) : Except ApiError Db := do
  let confirmed := claim.confirmed p result
  let outcome := claim.outcome p result
  let r ← createRow db claim.operationId
  let attempt ← fetch (lookup Attempt.claimToken claim.token db.creates.attempts) (.ofDb .noRow)
  if r.fence = claim.fence ∧ attempt.outcome = some outcome ∧
      (outcome = .confirmed → r.clerkUserId = confirmed) then return db
  else do
    ensure (claim.holds r now) (conflict "IDENTITY_EFFECT_CLAIM_STALE")
    ensure (confirmed.isSome → ∀ r' ∈ db.creates.rows, r'.clerkUserId ≠ confirmed)
      (.ofDb (.unique "portal_identity_creates_clerk_user_id_key"))
    let (state, errorCode) := createResultState r.attempts confirmed outcome
    let creates := { db.creates.update r.id (fun r => { r with
        state := state
        errorCode := errorCode
        nextAttemptAt := now + 30000000 }) with
      attempts := recordOutcome claim.token outcome db.creates.attempts }
    return { db with creates := creates }

/-! ## The end of a creation -/

/-- `cancel`. -/
def cancelCreate (db : Db) (subject : String) (id : Uuid) : Except ApiError Db := do
  requireBootstrap db
  let r ← createRow db id
  let _ ← authorizeCreate db subject r.intent (some r.actorUserId)
  if r.state = .cancelled then return db
  else do
    ensure (r.state = .prepared) (conflict "IDENTITY_CREATE_STATE_CONFLICT")
    return { db with creates := db.creates.update id fun r => { r with state := .cancelled } }

/-- The profile of a new account: the evidence of the provider under the intended names. -/
def Intent.profile (i : Intent) (verified : ProviderUser) : ProviderUser :=
  { verified with
    email := some i.email
    firstName := some i.firstName
    lastName := some i.lastName }

/-- `finalize`, after its read at the provider; `clerk` is the subject it asked for. -/
def finalizeCreate (db : Db) (now : Int) (subject : String) (id : Uuid) (clerk : String)
    (verified : ProviderUser) (draw : Draw) : Except ApiError Db := do
  verified.validate clerk
  let r ← createRow db id
  let actor ← authorizeCreate db subject r.intent (some r.actorUserId)
  match r.state with
  | .completed _ => return db
  | .providerConfirmed confirmed => do
    ensure (confirmed = clerk) (conflict "IDENTITY_CREATE_STATE_CONFLICT")
    agencyScope db r.intent id
    let db ← provisioningCommit db now (r.intent.profile verified) {
      operationId := id
      actorId := actor.id
      userId := r.userId
      requestHash := r.requestHash
      role := r.role
      agencyId := r.agencyId
      action := .createAccount } draw
    { db with
      creates := db.creates.update id fun r => { r with state := .completed confirmed } }.commit
  | _ => .error (conflict "IDENTITY_CREATE_STATE_CONFLICT")

/-- `creates::guard_onboarding`. -/
def guardCreateOnboarding (p : Platform) (db : Db) (u : ProviderUser) : Except ApiError Unit :=
  let key := u.email.map fun e => p.digest (normalEmail p e)
  ensure (¬ db.creates.rows.any fun r => r.state.isOpen ∧
    (r.clerkUserId = some u.id ∨ some r.emailKey = key)) (conflict "IDENTITY_CREATE_PENDING")

end ShaponTravels.Identity
