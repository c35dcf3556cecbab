import ShaponTravels.Identity.Creates

/-!
# Invitations — issuing, revoking and accepting

`invitations.rs` with migrations 0039 and 0041.  A revocation is a request that the row keeps; every
later step reads it.
-/

namespace ShaponTravels.Identity

open Library

def invitationForbidden : ApiError := ⟨.forbidden, "IDENTITY_INVITATION_FORBIDDEN"⟩

def invalidInvitation : ApiError := ⟨.badRequest, "IDENTITY_INVALID_INVITATION"⟩

/-- `invitations::Grant`. -/
inductive InvitationGrant where
  | manager (role : Role) (agencyId : Option Uuid) (expectedAgencyVersion : Option Int)
  | ownAgency
  deriving DecidableEq

/-- `invitations::Prepare`. -/
structure PrepareInvitation where
  clerkUserId : String
  operationId : Uuid
  email : String
  grant : InvitationGrant
  deriving DecidableEq

/-- `invitations::Invitation`, what a worker knows of a row. -/
structure InvitationInput where
  operationId : Uuid
  email : String
  role : Role
  agencyId : Option Uuid
  providerId : Option String
  deriving DecidableEq

/-- `Row::intent`. -/
def Invitation.intent (r : Invitation) : Intent := ⟨r.email, "", "", r.role, r.agencyId, r.agencyVersion⟩

/-- `Row::invitation`. -/
def Invitation.input (r : Invitation) : InvitationInput :=
  ⟨r.id, r.email, r.role, r.agencyId, r.providerId⟩

/-- `email`. -/
def invitationEmail (p : Platform) (input : String) : Except ApiError String := do
  let value := normalEmail p input
  ensure (validEmail value) invalidInvitation
  return value

/-- `row`. -/
def invitationRow (db : Db) (id : Uuid) : Except ApiError Invitation :=
  fetch (lookup Invitation.id id db.invitations.rows) ⟨.notFound, "IDENTITY_INVITATION_NOT_FOUND"⟩

/-- `permitted`. -/
def permitted (db : Db) (actor : User) (role : Role) (agency : Option Uuid) :
    Except ApiError Unit := do
  ensure (actor.status = .active) invitationForbidden
  if actor.role.managesUsers then ensure (actor.role.canGrant role) invitationForbidden
  else do
    ensure (actor.role = .b2b ∧ role = .b2bSub) invitationForbidden
    ensure (db.directory.agencies.any fun a =>
      some a.id = agency ∧ a.ownerUserId = actor.id ∧ a.status = .active) invitationForbidden

/-- `authorize`. -/
def authorizeInvitation (db : Db) (subject : String) (r : Invitation) : Except ApiError User := do
  let actor ← actor db subject
  permitted db actor r.role r.agencyId
  return actor

/-- `issuer`. -/
def checkIssuer (db : Db) (r : Invitation) : Except ApiError Unit := do
  let actor ← user db r.issuerUserId
  permitted db actor r.role r.agencyId

/-- `UPDATE portal_identity_invitations … WHERE id = $1`, with the version of
`guard_portal_identity_invitation`. -/
def Invitations.update (i : Invitations) (id : Uuid) (f : Invitation → Invitation) : Invitations :=
  { i with rows := modify Invitation.id id (fun r => { f r with version := r.version + 1 }) i.rows }

/-- `block_mail`. -/
def Invitations.blockMail (i : Invitations) (id : Uuid) : Invitations :=
  { i with intents := modify MailIntent.invitationId id (fun m => { m with blocked := true }) i.intents }

/-! ## Preparation -/

/-- The role, the agency and its version a grant stands for. -/
def InvitationGrant.resolve (db : Db) (actor : User) :
    InvitationGrant → Except ApiError (Role × Option Uuid × Option Int)
  | .ownAgency => do
    ensure (actor.role = .b2b) invitationForbidden
    let a ← fetch ((db.directory.ownedAgency actor.id).filter fun a => a.status = .active)
      invitationForbidden
    return (.b2bSub, some a.id, some a.version)
  | .manager role agencyId expectedAgencyVersion => do
    ensure (actor.role.managesUsers ∧ actor.role.canGrant role) invitationForbidden
    ensure ((role = .b2bSub ↔ agencyId.isSome) ∧
      (agencyId.isSome ↔ expectedAgencyVersion.isSome) ∧
      ¬ expectedAgencyVersion.any (· ≤ 0)) invalidInvitation
    return (role, agencyId, expectedAgencyVersion)

/-- `prepare`, for a new invitation. -/
def insertInvitation (p : Platform) (db : Db) (now : Int) (actor : User) (id : Uuid)
    (address : String) (grant : InvitationGrant) (hash : Digest) (draw : Draw) :
    Except ApiError Db := do
  let (role, agencyId, version) ← grant.resolve db actor
  let key := p.digest address
  ensure (¬ ((db.effects.operations.any fun o => o.id = id) ∨
    (db.deletions.rows.any fun r => r.id = id) ∨
    (db.creates.rows.any fun r => r.id = id ∨ r.emailKey = key ∧ r.state.isOpen) ∨
    (db.invitations.rows.any fun r => r.emailKey = key ∧ r.state.isOpen)))
    (conflict "IDENTITY_INVITATION_ALREADY_PENDING")
  agencyScope db ⟨address, "", "", role, agencyId, version⟩ id
  ensure (∀ r ∈ db.invitations.rows, r.userId ≠ draw.user)
    (.ofDb (.unique "portal_identity_invitations_user_id_key"))
  let row : Invitation := {
    id := id
    issuerUserId := actor.id
    userId := draw.user
    requestHash := hash
    email := address
    emailKey := key
    role := role
    agencyId := agencyId
    agencyVersion := version
    state := .prepared
    providerId := none
    revocationRequested := false
    version := 1
    fence := 0
    issueAttempts := 0
    revokeAttempts := 0
    nextAttemptAt := now
    errorCode := none }
  return { db with invitations := { db.invitations with rows := db.invitations.rows ++ [row] } }

/-- `prepare`. -/
def prepareInvitation (p : Platform) (hash : Uuid → String → InvitationGrant → Digest) (db : Db)
    (now : Int) (input : PrepareInvitation) (draw : Draw) : Except ApiError Db := do
  let address ← invitationEmail p input.email
  requireBootstrap db
  let actor ← actor db input.clerkUserId
  let fingerprint := hash actor.id address input.grant
  match lookup Invitation.id input.operationId db.invitations.rows with
  | some old => do
    let _ ← authorizeInvitation db input.clerkUserId old
    ensure (old.requestHash = fingerprint) (conflict "IDENTITY_IDEMPOTENCY_CONFLICT")
    return db
  | none => insertInvitation p db now actor input.operationId address input.grant fingerprint draw

/-! ## Leases and revocation -/

/-- The state a lease that ran out leaves. -/
def InvitationState.expiredTo : InvitationState → InvitationState
  | .issuing _ | .observingIssue _ => .issueUnknown
  | _ => .revokeUnknown

/-- An attempt is finished. -/
def Invitations.recordAttempt (i : Invitations) (token : Uuid) (outcome : AttemptOutcome)
    (evidence : Option InvitationEvidence) : Invitations :=
  { i with
    attempts := modify InvitationAttempt.claimToken token
      (fun a => if a.outcome = none then
        { a with outcome := some outcome, providerState := evidence } else a) i.attempts }

/-- `recover`. -/
def Invitations.recover (i : Invitations) (now : Int) (r : Invitation) : Invitations :=
  match r.state.lease? with
  | none => i
  | some l =>
    if l.leaseUntil ≤ now then
      (i.update r.id fun r => { r with
        state := r.state.expiredTo
        errorCode := some "IDENTITY_PROVIDER_OUTCOME_UNKNOWN" }).recordAttempt l.token .unknown none
    else i

/-- `query`. -/
def queryInvitation (db : Db) (now : Int) (subject : String) (id : Uuid) : Except ApiError Db := do
  requireBootstrap db
  let r ← invitationRow db id
  let _ ← authorizeInvitation db subject r
  return { db with invitations := db.invitations.recover now r }

/-- `invitations::Revoke`. -/
structure RevokeInvitation where
  clerkUserId : String
  operationId : Uuid
  expectedVersion : Int
  deriving DecidableEq

/-- `request_revoke`. -/
def requestRevoke (db : Db) (input : RevokeInvitation) : Except ApiError Db := do
  ensure (0 < input.expectedVersion) invalidInvitation
  requireBootstrap db
  let r ← invitationRow db input.operationId
  let _ ← authorizeInvitation db input.clerkUserId r
  match r.state with
  | .accepted _ => .error (conflict "IDENTITY_INVITATION_ALREADY_ACCEPTED")
  | state =>
    if r.revocationRequested ∨ ¬ state.isOpen then return db
    else do
      ensure (r.version = input.expectedVersion) (conflict "IDENTITY_VERSION_CONFLICT")
      let invitations := (db.invitations.update r.id fun r => { r with
        revocationRequested := true
        state := if r.state = .prepared then .cancelled else r.state }).blockMail r.id
      return { db with invitations := invitations }

/-! ## Claims -/

/-- `invitations::Claim`. -/
structure InvitationClaim where
  input : InvitationInput
  token : Uuid
  fence : Int
  subject : String
  revoke : Bool
  observe : Bool
  deriving DecidableEq

/-- Whether a claim is to revoke, for the rows that can be claimed. -/
def Invitation.claimed (r : Invitation) (observe : Bool) : Option Bool :=
  match observe, r.state, r.revocationRequested with
  | false, .prepared, false => some false
  | false, .pending, true => some true
  | true, .issueUnknown, _ => some false
  | true, .revokeUnknown, _ => some true
  | _, _, _ => none

/-- The state of a row under a claim. -/
def claimedState (revoke observe : Bool) (l : Lease) : InvitationState :=
  match revoke, observe with
  | false, false => .issuing l
  | false, true => .observingIssue l
  | true, false => .revoking l
  | true, true => .observingRevoke l

def claimedKind (revoke observe : Bool) : InvitationAttemptKind :=
  match revoke, observe with
  | false, false => .issue
  | false, true => .observeIssue
  | true, false => .revoke
  | true, true => .observeRevoke

/-- The writes of a claim. -/
def takeInvitation (db : Db) (now : Int) (r : Invitation) (subject : String)
    (revoke observe : Bool) (token : Uuid) : Except ApiError (Db × InvitationClaim) := do
  let kind := claimedKind revoke observe
  let fence := r.fence + 1
  ensure (∀ a ∈ db.invitations.attempts, a.claimToken ≠ token)
    (.ofDb (.unique "portal_identity_invitation_attempts_pkey"))
  let updated := db.invitations.update r.id fun r => { r with
    state := claimedState revoke observe ⟨token, now + 30000000⟩
    fence := fence
    issueAttempts := if kind = .issue then r.issueAttempts + 1 else r.issueAttempts
    revokeAttempts := if kind = .revoke then r.revokeAttempts + 1 else r.revokeAttempts
    errorCode := none }
  let invitations := { updated with
    attempts := db.invitations.attempts ++ [⟨token, r.id, fence, kind, none, none⟩] }
  return ({ db with invitations := invitations }, ⟨r.input, token, fence, subject, revoke, observe⟩)

/-- The checks of a claim that writes at the provider. -/
def checkDispatch (db : Db) (now : Int) (r : Invitation) (revoke : Bool) : Except ApiError Unit := do
  if ¬ revoke then
    checkIssuer db r
    agencyScope db r.intent r.id
  ensure (r.nextAttemptAt ≤ now ∧ (if revoke then r.revokeAttempts else r.issueAttempts) < 5)
    (conflict "IDENTITY_INVITATION_RETRY_LATER")

/-- `claim`. -/
def claimInvitation (db : Db) (now : Int) (subject : String) (id : Uuid) (observe : Bool)
    (expectedFence : Option Int) (token : Uuid) : Except ApiError (Settled InvitationClaim) := do
  requireBootstrap db
  let r ← invitationRow db id
  let _ ← authorizeInvitation db subject r
  let db := { db with invitations := db.invitations.recover now r }
  let r ← invitationRow db id
  match r.claimed observe with
  | none => return ⟨db, .error (conflict "IDENTITY_INVITATION_STATE_CONFLICT")⟩
  | some revoke =>
    if observe ∧ expectedFence ≠ some r.fence then
      return ⟨db, .error (conflict "IDENTITY_EFFECT_CLAIM_STALE")⟩
    else do
      if ¬ observe then
        checkDispatch db now r revoke
      let (db, claim) ← takeInvitation db now r subject revoke observe token
      return ⟨db, .ok claim⟩

/-- `invitations::Snapshot`. -/
structure Snapshot where
  operationId : Uuid
  invitationId : String
  email : String
  state : InvitationEvidence
  user : Option ProviderUser
  deriving DecidableEq

/-- `invitations::ProviderResult`. -/
inductive InvitationResult where
  | confirmed (s : Snapshot)
  | notSent
  | unknown
  deriving DecidableEq

/-- `valid`. -/
def Snapshot.valid (p : Platform) (s : Snapshot) (input : InvitationInput) : Bool :=
  s.operationId = input.operationId && normalEmail p s.email = input.email &&
    s.invitationId ≠ "" && s.invitationId.utf8ByteSize ≤ 128 &&
    s.invitationId.toList.all (fun c => c.isAlphanum || c = '_' || c = '-') &&
    input.providerId.all fun id => id = s.invitationId

/-- The evidence `finish` accepts. -/
def InvitationClaim.proof (p : Platform) (c : InvitationClaim) : InvitationResult → Option Snapshot
  | .confirmed s =>
    if s.valid p c.input ∧ (c.revoke → s.state = .revoked ∨ s.state = .expired) then some s else none
  | _ => none

/-- The outcome a result is recorded with. -/
def InvitationClaim.outcome (c : InvitationClaim) (proof : Option Snapshot)
    (result : InvitationResult) : AttemptOutcome :=
  if proof.isSome then .confirmed
  else if result = .notSent ∧ ¬ c.observe then .notSent
  else .unknown

/-- The claim is the current one of the row and its lease has not run out. -/
def InvitationClaim.holds (c : InvitationClaim) (r : Invitation) (now : Int) : Bool :=
  r.fence = c.fence && (r.state.lease?.any fun l => l.token = c.token && now < l.leaseUntil &&
    r.state = claimedState c.revoke c.observe l)

/-- The state and the error evidence leaves an invitation in. -/
def evidenceState : InvitationEvidence → InvitationState
  | .expired => .expired
  | .revoked => .revoked
  | .pending | .accepted => .pending

/-- The state and the error a result leaves an invitation in. -/
def invitationResultState (r : Invitation) (revoke : Bool) (proof : Option Snapshot)
    (outcome : AttemptOutcome) : InvitationState × Option String :=
  match proof, outcome with
  | some s, _ => (evidenceState s.state, none)
  | none, .notSent =>
    if revoke then
      if 5 ≤ r.revokeAttempts then (.revokeUnknown, some "IDENTITY_PROVIDER_RETRY_LIMIT")
      else (.pending, some "IDENTITY_PROVIDER_NOT_SENT")
    else if 5 ≤ r.issueAttempts then (.cancelled, some "IDENTITY_PROVIDER_RETRY_LIMIT")
    else if r.revocationRequested then (.cancelled, some "IDENTITY_PROVIDER_NOT_SENT")
    else (.prepared, some "IDENTITY_PROVIDER_NOT_SENT")
  | none, _ =>
    (if revoke then .revokeUnknown else .issueUnknown, some "IDENTITY_PROVIDER_OUTCOME_UNKNOWN")

/-- The mail of an issued invitation, unless it is blocked. -/
def Invitations.insertIntent (i : Invitations) (id : Uuid) (blocked : Bool) : Invitations :=
  if i.intents.any fun m => m.invitationId = id then i
  else { i with intents := i.intents ++ [⟨id, blocked⟩] }

/-- What `finish_result` does with the mail. -/
def Invitations.settleMail (i : Invitations) (c : InvitationClaim) (r : Invitation)
    (proof : Option Snapshot) (state : InvitationState) : Invitations :=
  let blocked : Bool := r.revocationRequested || state = .revoked || state = .expired
  let i := if ¬ c.revoke ∧ proof.isSome then i.insertIntent r.id blocked else i
  if blocked then i.blockMail r.id else i

/-- `finish` and `finish_result`. -/
def finishInvitation (p : Platform) (db : Db) (now : Int) (c : InvitationClaim)
    (result : InvitationResult) (mail : Uuid) : Except ApiError Db := do
  let proof := c.proof p result
  let outcome := c.outcome proof result
  let r ← invitationRow db c.input.operationId
  let attempt ← fetch (lookup InvitationAttempt.claimToken c.token db.invitations.attempts)
    (.ofDb .noRow)
  if r.fence = c.fence ∧ attempt.outcome = some outcome ∧
      attempt.providerState = proof.map Snapshot.state ∧
      (∀ s ∈ proof, r.providerId = some s.invitationId) then return db
  else do
    ensure (c.holds r now) (conflict "IDENTITY_EFFECT_CLAIM_STALE")
    let providerId := r.providerId.or (proof.map Snapshot.invitationId)
    ensure (r.providerId.isNone → providerId.isSome →
      ∀ r' ∈ db.invitations.rows, r'.providerId ≠ providerId)
      (.ofDb (.unique "portal_identity_invitations_provider_id_key"))
    let (state, errorCode) := invitationResultState r c.revoke proof outcome
    let updated := (db.invitations.update r.id fun r => { r with
      state := state
      providerId := providerId
      errorCode := errorCode
      nextAttemptAt := if outcome = .notSent then now + 30000000 else now }).recordAttempt c.token
        outcome (proof.map Snapshot.state)
    let mails := if ¬ c.revoke ∧ proof.isSome ∧ state = .pending ∧ ¬ r.revocationRequested then
        db.mails.enqueue now mail (.invitation r.id)
      else db.mails
    return { db with invitations := updated.settleMail c r proof state, mails := mails }

/-! ## Acceptance and refresh -/

/-- A request between its two transactions: what it read of the invitation. -/
structure Observation where
  subject : String
  id : Uuid
  input : InvitationInput
  version : Int
  deriving DecidableEq

/-- The checks `accept` makes in both of its transactions. -/
def checkAcceptance (db : Db) (r : Invitation) : Except ApiError Unit := do
  ensure (r.state = .pending ∧ ¬ r.revocationRequested)
    (conflict "IDENTITY_INVITATION_STATE_CONFLICT")
  checkIssuer db r
  agencyScope db r.intent r.id

/-- The first transaction of `accept`, when the invitation is still to be accepted. -/
def startAccept (db : Db) (subject : String) (id : Uuid) : Except ApiError Observation := do
  validateSubject subject
  requireBootstrap db
  let r ← invitationRow db id
  checkAcceptance db r
  return ⟨subject, id, r.input, r.version⟩

/-- The provider user an acceptance is verified with. -/
def acceptedUser (p : Platform) (o : Observation) (result : InvitationResult) :
    Except ApiError ProviderUser := do
  let unverified := conflict "IDENTITY_INVITATION_ACCEPTANCE_UNVERIFIED"
  match result with
  | .confirmed s => do
    ensure (s.valid p o.input ∧ s.state = .accepted) unverified
    let u ← fetch s.user unverified
    u.validate o.subject
    ensure (u.email.any fun e => normalEmail p e = o.input.email) unverified
    return u
  | _ => .error unverified

/-- The second transaction of `accept`. -/
def accept (p : Platform) (db : Db) (now : Int) (o : Observation) (result : InvitationResult)
    (draw : Draw) : Except ApiError Db := do
  let u ← acceptedUser p o result
  let r ← invitationRow db o.id
  if r.state = .accepted o.subject then return db
  else do
    checkAcceptance db r
    let db ← provisioningCommit db now u {
      operationId := o.id
      actorId := r.issuerUserId
      userId := r.userId
      requestHash := r.requestHash
      role := r.role
      agencyId := r.agencyId
      action := .acceptInvitation } draw
    ensure (∀ r' ∈ db.invitations.rows, r'.state ≠ .accepted o.subject)
      (.ofDb (.unique "portal_identity_invitations_accepted_subject_key"))
    let invitations := (db.invitations.update o.id fun r => { r with
      state := .accepted o.subject }).blockMail o.id
    { db with invitations := invitations }.commit

/-- The first transaction of `refresh`, for a pending invitation. -/
def startRefresh (db : Db) (subject : String) (id : Uuid) : Except ApiError Observation := do
  let r ← invitationRow db id
  let _ ← authorizeInvitation db subject r
  ensure (r.state = .pending) (conflict "IDENTITY_INVITATION_STATE_CONFLICT")
  return ⟨subject, id, r.input, r.version⟩

/-- The second transaction of `refresh`. -/
def refreshInvitation (p : Platform) (db : Db) (o : Observation) (result : InvitationResult) :
    Except ApiError Db := do
  let unverified := conflict "IDENTITY_INVITATION_ACCEPTANCE_UNVERIFIED"
  match result with
  | .confirmed s => do
    ensure (s.valid p o.input) unverified
    let r ← invitationRow db o.id
    let _ ← authorizeInvitation db o.subject r
    ensure (r.version = o.version) (conflict "IDENTITY_VERSION_CONFLICT")
    if s.state = .expired ∨ s.state = .revoked then
      let invitations := (db.invitations.update o.id fun r => { r with
        state := evidenceState s.state }).blockMail o.id
      return { db with invitations := invitations }
    else return db
  | _ => .error unverified

/-- `invitations::guard_onboarding`. -/
def guardInvitationOnboarding (p : Platform) (db : Db) (u : ProviderUser) : Except ApiError Unit :=
  let key := u.email.map fun e => p.digest (normalEmail p e)
  ensure (¬ db.invitations.rows.any fun r => r.state.isOpen ∧ some r.emailKey = key)
    (conflict "IDENTITY_INVITATION_PENDING")

end ShaponTravels.Identity
