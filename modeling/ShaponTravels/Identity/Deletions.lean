import ShaponTravels.Identity.Creates

/-!
# Deletions — staged, deny-first deletion

`deletions.rs` with migration 0040: access is denied before anything is asked of the provider, and
what still stands for the identity is reviewed before every step.
-/

namespace ShaponTravels.Identity

open Library

/-- `deletions::Prepare`. -/
structure PrepareDeletion where
  clerkUserId : String
  operationId : Uuid
  targetUserId : Uuid
  expectedVersion : Int
  reviewToken : String
  deriving DecidableEq

/-- `Blocker`. -/
inductive Blocker where
  | liveMembers
  | providerWork
  | walletReferences
  | clientReferences
  | bookingReferences
  | financialHistory
  | lastSuperadmin
  | terminalTarget
  deriving DecidableEq, Repr

def deletionForbidden : ApiError := ⟨.forbidden, "IDENTITY_DELETION_FORBIDDEN"⟩

/-- `row`. -/
def deletionRow (db : Db) (id : Uuid) : Except ApiError Deletion :=
  fetch (lookup Deletion.id id db.deletions.rows) ⟨.notFound, "IDENTITY_DELETION_NOT_FOUND"⟩

/-- The target is a sub-user of an active agency the actor owns. -/
def Directory.ownsSub (d : Directory) (actor target : Uuid) : Bool :=
  d.memberships.any fun m => m.userId = target ∧ m.kind = .sub ∧
    d.agencies.any fun a => a.id = m.agencyId ∧ a.ownerUserId = actor ∧ a.status = .active

/-- `scope`. -/
def deletionScope (db : Db) (actor target : User) : Except ApiError Unit := do
  ensure (actor.id ≠ target.id) ⟨.forbidden, "IDENTITY_SELF_CHANGE_FORBIDDEN"⟩
  ensure (actor.status = .active) deletionForbidden
  ensure (actor.role = .superadmin ∨ actor.role = .b2b ∧ target.role = .b2bSub ∧
    db.directory.ownsSub actor.id target.id) deletionForbidden

/-- `authorize`. -/
def authorizeDeletion (db : Db) (subject : String) (target : Uuid) : Except ApiError User := do
  let actor ← actor db subject
  let target ← user db target
  deletionScope db actor target
  return actor

/-! ## Dependencies -/

/-- The owner is the one of the subject, or the one of the agency. -/
def Db.stands (db : Db) (subject : String) (agency : Option Uuid) (w : Wallet.WalletOwner) : Bool :=
  match w.ownerType with
  | .user => w.ownerKey = subject
  | .agency => db.directory.agencies.any fun a => a.code = w.ownerKey ∧ some a.id = agency

/-- The wallet accounts of a subject and its agency. -/
def Db.accountsOf (db : Db) (subject : String) (agency : Option Uuid) : List Wallet.WalletAccount :=
  db.business.accounts.filter fun a =>
    db.business.owners.any fun w => w.id = a.ownerId ∧ db.stands subject agency w

/-- Members of the agency that are not deleted. -/
def liveMembers (db : Db) (agency : Option Uuid) : Bool :=
  db.directory.memberships.any fun m => some m.agencyId = agency ∧ m.kind = .sub ∧
    db.directory.users.any fun u => u.id = m.userId ∧ u.status ≠ .deleted

/-- Work at the provider; an open invitation has no accepted subject yet. -/
def providerWork (db : Db) (target : User) (agency : Option Uuid) : Bool :=
  (db.effects.rows.any fun r => r.targetUserId = target.id ∧ ¬ r.state.terminal) ||
  (db.creates.rows.any fun r => r.state.isOpen ∧ (r.actorUserId = target.id ∨ r.userId = target.id ∨
    r.clerkUserId = some target.subject ∨ agency.isSome ∧ r.agencyId = agency)) ||
  (db.invitations.rows.any fun r => r.state.isOpen ∧ (r.issuerUserId = target.id ∨
    r.userId = target.id ∨ agency.isSome ∧ r.agencyId = agency))

/-- Money, holds or requests on the accounts. -/
def walletReferences (db : Db) (accounts : List Uuid) : Bool :=
  (db.business.accounts.any fun a =>
    a.id ∈ accounts ∧ (a.availableBalance ≠ 0 ∨ a.holdBalance ≠ 0)) ||
  (db.business.operations.any fun o => o.walletAccountId ∈ accounts ∧ o.state.isOpen) ||
  (db.business.requests.any fun r => r.walletAccountId ∈ accounts ∧ r.status = .pending)

/-- The clients whose bookings block a deletion. -/
def deletionClients (db : Db) (subject : String) (accounts : List Wallet.WalletAccount) :
    List Uuid :=
  ((db.business.access.clients.filter fun c => c.externalUserId = some subject).map
    Access.ApiClient.id) ++
  ((db.business.access.staffClients.filter fun s => s.externalUserId = subject).map
    Access.StaffClient.clientId) ++
  ((db.business.links.filter fun l => accounts.any fun a => a.ownerId = l.ownerId).map
    Wallet.ClientLink.clientId)

/-- The draft names the subject as its owner or its creator. -/
def draftNames (h : Booking.HoldDraft) (subject : String) : Bool :=
  h.creatorExternalUserId = subject || h.ownerExternalUserId = subject

/-- The booking is the subject's: it created it, its client did, or it is one of its drafts. -/
def Db.booked (db : Db) (subject : String) (clients : List Uuid) (b : Booking.FlightBooking) : Bool :=
  b.createdByExternalUserId = some subject || b.clientId ∈ clients ||
    db.business.drafts.any fun h => b.portalHoldDraftId = some h.id ∧ draftNames h subject

/-- The booking is not settled. -/
def Business.unsettled (b : Business) (k : Booking.FlightBooking) : Bool :=
  k.state = .pending || k.state = .outcomeUnknown ||
  (k.state = .held &&
    !(b.cancellations.any fun c => c.bookingId = k.id ∧ c.state = .cancelled) &&
    !(b.issues.any fun t => t.bookingId = k.id ∧ t.state = .issued)) ||
  (b.issues.any fun t => t.bookingId = k.id ∧ (t.state = .pending ∨ t.state = .outcomeUnknown)) ||
  (b.cancellations.any fun c =>
    c.bookingId = k.id ∧ (c.state = .pending ∨ c.state = .outcomeUnknown))

def bookingReferences (db : Db) (subject : String) (clients : List Uuid) : Bool :=
  (db.business.bookings.any fun k => db.booked subject clients k ∧ db.business.unsettled k) ||
  (db.business.drafts.any fun h =>
    (draftNames h subject ∨ h.clientId ∈ clients) ∧
    ¬ db.business.bookings.any fun k => k.portalHoldDraftId = some h.id)

def financialHistory (db : Db) (subject : String) : Bool :=
  (db.business.requests.any fun r =>
    (r.requestedByUserId = subject ∨ r.reviewedByUserId = some subject) ∧ r.status = .pending) ||
  (db.business.operations.any fun o => o.actorId = subject ∧ o.state.isOpen)

/-- `dependencies`. -/
def dependencies (db : Db) (target : User) (agency : Option Uuid) : List Blocker :=
  let accounts := db.accountsOf target.subject agency
  let clients := deletionClients db target.subject accounts
  (if liveMembers db agency then [.liveMembers] else []) ++
  (if providerWork db target agency then [.providerWork] else []) ++
  (if walletReferences db (accounts.map Wallet.WalletAccount.id) then [.walletReferences] else []) ++
  (if bookingReferences db target.subject clients then [.bookingReferences] else []) ++
  (if financialHistory db target.subject then [.financialHistory] else [])

/-- The blockers `preview_locked` reports. -/
def previewBlockers (db : Db) (target : User) (agency : Option Agency) : List Blocker :=
  dependencies db target (agency.map Agency.id) ++
  (if target.status.terminal then [.terminalTarget] else []) ++
  (if target.role = .superadmin ∧ target.status = .active ∧
      db.directory.users.countP (fun u => u.role = .superadmin ∧ u.status = .active) ≤ 1
    then [.lastSuperadmin] else [])

/-! ## Denial -/

/-- `UPDATE wallet_owners SET status='frozen' …`. -/
def freezeOwners (db : Db) (subject : String) (agency : Option Uuid) : Db :=
  let owners := db.business.owners.map fun w =>
    if db.stands subject agency w then { w with status := .frozen } else w
  { db with business := { db.business with owners := owners } }

/-- Some client of the subject still has access. -/
def exposed (db : Db) (subject : String) : Bool :=
  let access := db.business.access
  access.clients.any fun c =>
    (c.externalUserId = some subject ∨
      access.staffClients.any fun s => s.externalUserId = subject ∧ s.clientId = c.id) ∧
    (c.active ∨ c.apiManagementEnabled ∨
      (access.credentials.any fun k => k.clientId = c.id ∧ k.active) ∨
      (access.tokens.any fun t => t.clientId = c.id) ∨
      access.sessions.any fun p => p.clientId = c.id)

/-- `maintain_denial`. -/
def maintainDenial (db : Db) (r : Deletion) : Except ApiError Db :=
  let exposed := exposed db r.clerkUserId
  let db := freezeOwners db r.clerkUserId r.agencyId
  if exposed then revokeClients db [r.clerkUserId] else return db

/-! ## Preparation -/

/-- `UPDATE portal_agencies SET status='suspended' WHERE id=$1 AND status='active'`. -/
def Directory.suspendAgency (d : Directory) (agency : Option Uuid) : Except DbError Directory :=
  match (agency.bind d.agency).filter fun a => a.status = .active with
  | none => return d
  | some a => d.setAgency a.id .suspended

/-- The writes of `prepare`. -/
def commitDeletion (db : Db) (now : Int) (actor target : User) (agency : Option Uuid)
    (input : PrepareDeletion) (hash : Digest) : Except ApiError Db := do
  let row : Deletion := {
    id := input.operationId
    actorUserId := actor.id
    targetUserId := target.id
    clerkUserId := target.subject
    agencyId := agency
    requestHash := hash
    expectedVersion := input.expectedVersion
    state := .prepared
    fence := 0
    attempts := 0
    nextAttemptAt := now
    errorCode := none }
  let d ← (db.directory.updateUser target.id fun u => { u with status := .deleting }).mapError .ofDb
  let d ← (d.suspendAgency agency).mapError .ofDb
  let db ← revokeClients (freezeOwners { db with
    directory := d
    deletions := { db.deletions with rows := db.deletions.rows ++ [row] } } target.subject agency)
    [target.subject]
  db.commit

/-- What `prepare` takes from its platform: the token of a review and the hash of a request. -/
structure Review where
  token : User → Option Agency → List Blocker → String
  hash : Uuid → PrepareDeletion → Digest

/-- `prepare`. -/
def prepareDeletion (review : Review) (db : Db) (now : Int) (input : PrepareDeletion) :
    Except ApiError Db := do
  ensure (0 < input.expectedVersion ∧ input.reviewToken.utf8ByteSize = 64 ∧
    input.reviewToken.toList.all fun c => c.isDigit || ('a' ≤ c && c ≤ 'f') || ('A' ≤ c && c ≤ 'F'))
    ⟨.badRequest, "IDENTITY_INVALID_DELETION"⟩
  requireBootstrap db
  let actor ← authorizeDeletion db input.clerkUserId input.targetUserId
  let hash := review.hash actor.id input
  match lookup Deletion.id input.operationId db.deletions.rows with
  | some old => do
    ensure (old.requestHash = hash) (conflict "IDENTITY_IDEMPOTENCY_CONFLICT")
    return db
  | none => do
    ensure (¬ ((db.effects.operations.any fun o => o.id = input.operationId) ∨
      (db.creates.rows.any fun r => r.id = input.operationId) ∨
      (db.invitations.rows.any fun r => r.id = input.operationId) ∨
      (db.deletions.rows.any fun r => r.targetUserId = input.targetUserId)))
      (conflict "IDENTITY_IDEMPOTENCY_CONFLICT")
    let target ← user db input.targetUserId
    let agency := db.directory.ownedAgency target.id
    let blockers := previewBlockers db target agency
    ensure (target.version = input.expectedVersion ∧
      review.token target agency blockers = input.reviewToken)
      (conflict "IDENTITY_DELETION_REVIEW_STALE")
    ensure (blockers = []) (conflict "IDENTITY_DELETION_BLOCKED")
    guardLastSuperadmin db.directory target.id target.role .deleting
    commitDeletion db now actor target (agency.map Agency.id) input hash

/-! ## Leases -/

def Deletions.update (d : Deletions) (id : Uuid) (f : Deletion → Deletion) : Deletions :=
  { d with rows := modify Deletion.id id f d.rows }

/-- `recover`. -/
def Deletions.recover (d : Deletions) (now : Int) (r : Deletion) : Deletions :=
  match r.state with
  | .dispatching l | .reconciling l =>
    if l.leaseUntil ≤ now then
      { d.update r.id (fun r => { r with
          state := .needsReconciliation
          errorCode := some "IDENTITY_PROVIDER_OUTCOME_UNKNOWN" }) with
        attempts := recordOutcome l.token .unknown d.attempts }
    else d
  | _ => d

/-- `query`. -/
def queryDeletion (db : Db) (now : Int) (subject : String) (id : Uuid) : Except ApiError Db := do
  requireBootstrap db
  let r ← deletionRow db id
  let _ ← authorizeDeletion db subject r.targetUserId
  let db ← maintainDenial db r
  return { db with deletions := db.deletions.recover now r }

/-- `deletions::Claim`. -/
structure DeletionClaim where
  operationId : Uuid
  targetUserId : Uuid
  clerkUserId : String
  token : Uuid
  fence : Int
  subject : String
  reconcile : Bool
  deriving DecidableEq

/-- The target is denied, and nothing stands for it any more. -/
def deletionClear (db : Db) (r : Deletion) (target : User) : Bool :=
  target.status = .deleting && dependencies db target r.agencyId = []

/-- The writes of a claim. -/
def takeDeletion (db : Db) (now : Int) (r : Deletion) (subject : String) (reconcile : Bool)
    (token : Uuid) : Except ApiError (Db × DeletionClaim) := do
  let lease : Lease := ⟨token, now + 30000000⟩
  let fence := r.fence + 1
  ensure (∀ a ∈ db.deletions.attempts, a.claimToken ≠ token)
    (.ofDb (.unique "portal_identity_deletion_attempts_pkey"))
  let attempt : Attempt := ⟨token, r.id, fence, if reconcile then .reconcile else .dispatch, none⟩
  let deletions := { db.deletions.update r.id (fun r => { r with
      state := if reconcile then .reconciling lease else .dispatching lease
      fence := fence
      attempts := if reconcile then r.attempts else r.attempts + 1
      errorCode := none }) with
    attempts := db.deletions.attempts ++ [attempt] }
  return ({ db with deletions := deletions },
    ⟨r.id, r.targetUserId, r.clerkUserId, token, fence, subject, reconcile⟩)

/-- The part of `claim` that follows the recovery of the lease. -/
def grantDeletion (db : Db) (now : Int) (r : Deletion) (subject : String) (reconcile : Bool)
    (expectedFence : Option Int) (token : Uuid) : Except ApiError (Settled DeletionClaim) :=
  if r.state ≠ (if reconcile then .needsReconciliation else .prepared) then
    return ⟨db, .error (conflict "IDENTITY_DELETION_STATE_CONFLICT")⟩
  else if reconcile ∧ expectedFence ≠ some r.fence then
    return ⟨db, .error (conflict "IDENTITY_EFFECT_CLAIM_STALE")⟩
  else do
    let target ← user db r.targetUserId
    if ¬ reconcile ∧ ¬ deletionClear db r target then
      let db ← maintainDenial db r
      return ⟨db, .error (conflict "IDENTITY_DELETION_BLOCKED")⟩
    else do
      ensure (reconcile ∨ r.nextAttemptAt ≤ now ∧ r.attempts < 5)
        (conflict "IDENTITY_DELETION_RETRY_LATER")
      let (db, claim) ← takeDeletion db now r subject reconcile token
      return ⟨db, .ok claim⟩

/-- `claim`. -/
def claimDeletion (db : Db) (now : Int) (subject : String) (id : Uuid) (reconcile : Bool)
    (expectedFence : Option Int) (token : Uuid) : Except ApiError (Settled DeletionClaim) := do
  requireBootstrap db
  let r ← deletionRow db id
  let _ ← authorizeDeletion db subject r.targetUserId
  let db := { db with deletions := db.deletions.recover now r }
  let r ← deletionRow db id
  grantDeletion db now r subject reconcile expectedFence token

/-- `deletions::Confirmation`. -/
structure DeletionConfirmation where
  operationId : Uuid
  clerkUserId : String
  deriving DecidableEq

/-- `deletions::ProviderResult`. -/
inductive DeletionResult where
  | confirmed (c : DeletionConfirmation)
  | notSent
  | unknown
  deriving DecidableEq

/-- The outcome a result is recorded with: a confirmation has to name this very deletion. -/
def DeletionClaim.outcome (c : DeletionClaim) : DeletionResult → AttemptOutcome
  | .confirmed p =>
    if p.operationId = c.operationId ∧ p.clerkUserId = c.clerkUserId then .confirmed else .unknown
  | .notSent => if c.reconcile then .unknown else .notSent
  | .unknown => .unknown

/-- The claim is the current one of the row and its lease has not run out. -/
def DeletionClaim.holds (c : DeletionClaim) (r : Deletion) (now : Int) : Bool :=
  r.fence = c.fence &&
    match r.state with
    | .dispatching l => !c.reconcile && l.token = c.token && now < l.leaseUntil
    | .reconciling l => c.reconcile && l.token = c.token && now < l.leaseUntil
    | _ => false

/-- The state and the error a result leaves a deletion in. -/
def deletionResultState (attempts : Nat) : AttemptOutcome → DeletionState × Option String
  | .confirmed => (.providerConfirmed, none)
  | .notSent =>
    if attempts < 5 then (.prepared, some "IDENTITY_PROVIDER_NOT_SENT")
    else (.needsReconciliation, some "IDENTITY_PROVIDER_RETRY_LIMIT")
  | .unknown => (.needsReconciliation, some "IDENTITY_PROVIDER_OUTCOME_UNKNOWN")

/-- `finish`. -/
def finishDeletion (db : Db) (now : Int) (c : DeletionClaim) (result : DeletionResult) :
    Except ApiError Db := do
  let outcome := c.outcome result
  let r ← deletionRow db c.operationId
  let attempt ← fetch (lookup Attempt.claimToken c.token db.deletions.attempts) (.ofDb .noRow)
  if r.fence = c.fence ∧ attempt.outcome = some outcome then return db
  else do
    ensure (c.holds r now) (conflict "IDENTITY_EFFECT_CLAIM_STALE")
    let (state, errorCode) := deletionResultState r.attempts outcome
    let deletions := { db.deletions.update r.id (fun r => { r with
        state := state
        errorCode := errorCode
        nextAttemptAt := if outcome = .notSent then now + 30000000 else now }) with
      attempts := recordOutcome c.token outcome db.deletions.attempts }
    maintainDenial { db with deletions := deletions } r

/-! ## The end of a deletion -/

/-- `UPDATE portal_agencies SET status='archived' WHERE id=$1 AND status<>'archived'`. -/
def Directory.archiveAgency (d : Directory) (agency : Option Uuid) : Except DbError Directory :=
  match (agency.bind d.agency).filter fun a => a.status ≠ .archived with
  | none => return d
  | some a => d.setAgency a.id .archived

/-- The writes of `finalize`. -/
def completeDeletion (db : Db) (r : Deletion) (target : User) : Except ApiError Db := do
  let db ← revokeClients db [target.subject]
  let d ← (db.directory.updateUser r.targetUserId fun u => { u with status := .deleted }).mapError .ofDb
  let d ← (d.archiveAgency r.agencyId).mapError .ofDb
  { db with
    directory := d
    deletions := db.deletions.update r.id fun r => { r with state := .completed } }.commit

/-- `finalize`. -/
def finalizeDeletion (db : Db) (subject : String) (id : Uuid) : Except ApiError (Settled Unit) := do
  requireBootstrap db
  let r ← deletionRow db id
  let _ ← authorizeDeletion db subject r.targetUserId
  if r.state = .completed then return ⟨db, .ok ()⟩
  else do
    ensure (r.state = .providerConfirmed) (conflict "IDENTITY_DELETION_STATE_CONFLICT")
    let target ← user db r.targetUserId
    if target.subject = r.clerkUserId ∧ deletionClear db r target then
      let db ← completeDeletion db r target
      return ⟨db, .ok ()⟩
    else do
      let db ← maintainDenial db r
      return ⟨db, .error (conflict "IDENTITY_DELETION_BLOCKED")⟩

end ShaponTravels.Identity
