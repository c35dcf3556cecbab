import ShaponTravels.Identity.Deletions

/-!
# Business — writes to the business tables and the authority they are made under

The trigger of migration 0042 on the fifteen tables that name identities, with the triggers of
migrations 0021 to 0029 that keep their keys, and the contexts of `business.rs`.
-/

namespace ShaponTravels.Identity

open Library

/-! ## The barrier -/

/-- A row of a table with the trigger `identity_business_barrier`. -/
inductive Row where
  | client (r : Access.ApiClient)
  | credential (r : Access.ClientCredential)
  | token (r : Access.MachineToken)
  | session (r : Access.PrebookingSession)
  | staffClient (r : Access.StaffClient)
  | owner (r : Wallet.WalletOwner)
  | link (r : Wallet.ClientLink)
  | account (r : Wallet.WalletAccount)
  | operation (r : Wallet.WalletOperation)
  | request (r : Wallet.Workflows.WalletRequest)
  | entry (r : Wallet.LedgerEntry)
  | draft (r : Booking.HoldDraft)
  | booking (r : Booking.FlightBooking)
  | issue (r : Booking.TicketIssue)
  | cancellation (r : Booking.Cancellation)

namespace Row

/-- The subjects in the columns the trigger reads of the old row. -/
def subjects : Row → List String
  | .client r => r.externalUserId.toList
  | .staffClient r => [r.externalUserId]
  | .operation r => [r.actorId]
  | .request r => [r.requestedByUserId]
  | .entry r => [r.createdByUserId]
  | .draft r => [r.creatorExternalUserId, r.ownerExternalUserId]
  | .booking r => r.createdByExternalUserId.toList
  | _ => []

/-- The reviewer of a request, whom the trigger reads of the new row only. -/
def reviewer : Row → List String
  | .request r => r.reviewedByUserId.toList
  | _ => []

/-- The column `client_id`. -/
def clientId? : Row → Option Uuid
  | .credential r => some r.clientId
  | .token r => some r.clientId
  | .session r => some r.clientId
  | .staffClient r => some r.clientId
  | .link r => some r.clientId
  | .draft r => some r.clientId
  | .booking r => some r.clientId
  | .issue r => some r.clientId
  | .cancellation r => some r.clientId
  | _ => none

/-- The column `owner_id`. -/
def ownerId? : Row → Option Uuid
  | .link r => some r.ownerId
  | .account r => some r.ownerId
  | _ => none

/-- The column `wallet_account_id`. -/
def accountId? : Row → Option Uuid
  | .operation r => some r.walletAccountId
  | .request r => some r.walletAccountId
  | .entry r => some r.walletAccountId
  | _ => none

/-- The column `booking_id`. -/
def bookingId? : Row → Option Uuid
  | .operation r => r.bookingId
  | .entry r => r.bookingId
  | .issue r => some r.bookingId
  | .cancellation r => some r.bookingId
  | _ => none

end Row

/-- `identity_assert_subject_writable`. -/
def Db.subjectWritable (db : Db) (subject : String) : Bool :=
  !(db.directory.users.any fun u => u.subject = subject ∧ u.status.terminal) &&
    !db.inbox.isDeleted subject

/-- The subjects an owner stands for. -/
def Db.ownerSubjects (db : Db) (w : Wallet.WalletOwner) : List String :=
  match w.ownerType with
  | .user => [w.ownerKey]
  | .agency => (db.directory.users.filter fun u => db.directory.agencies.any fun a =>
      a.code = w.ownerKey ∧ a.ownerUserId = u.id).map User.subject

/-- `identity_assert_owner_writable`. -/
def Db.ownerWritable (db : Db) (owner : Uuid) : Bool :=
  db.business.owners.all fun w => w.id = owner → (db.ownerSubjects w).all db.subjectWritable

/-- `identity_assert_client_writable`. -/
def Db.clientWritable (db : Db) (client : Uuid) : Bool :=
  (db.business.access.clients.all fun c => c.id = client → c.externalUserId.all db.subjectWritable) &&
  (db.business.access.staffClients.all fun s =>
    s.clientId = client → db.subjectWritable s.externalUserId) &&
  (db.business.links.all fun l => l.clientId = client → db.ownerWritable l.ownerId)

/-- The owner of an account. -/
def Db.accountWritable (db : Db) (account : Uuid) : Bool :=
  db.business.accounts.all fun a => a.id = account → db.ownerWritable a.ownerId

/-- The client and the creator of a booking. -/
def Db.bookingWritable (db : Db) (booking : Uuid) : Bool :=
  db.business.bookings.all fun b => b.id = booking →
    db.clientWritable b.clientId ∧ b.createdByExternalUserId.all db.subjectWritable

/-- What the trigger checks of a row that is stored. -/
def Db.rowWritable (db : Db) (r : Row) : Bool :=
  (r.subjects ++ r.reviewer).all db.subjectWritable && r.clientId?.all db.clientWritable &&
    r.ownerId?.all db.ownerWritable && r.accountId?.all db.accountWritable &&
    r.bookingId?.all db.bookingWritable && match r with
    | .owner w => (db.ownerSubjects w).all db.subjectWritable
    | _ => true

/-- What the trigger checks of a row that is replaced, before the checks of the new one. -/
def Db.oldWritable (db : Db) (r : Row) : Bool :=
  r.subjects.all db.subjectWritable && r.clientId?.all db.clientWritable && match r with
  | .client c => db.clientWritable c.id
  | _ => true

/-- Revocation and freezing, which stay possible. -/
def Row.revokes (old new : Row) : Bool :=
  match old, new with
  | .client c, .client c' =>
    !c'.active && !c'.apiManagementEnabled && c'.externalUserId = c.externalUserId
  | .credential _, .credential k => !k.active
  | .owner _, .owner w => w.status = .frozen
  | _, _ => false

/-- A write of one row. -/
inductive Write where
  | insert (row : Row)
  | update (old new : Row)
  /-- tokens and sessions are the only rows that are deleted -/
  | deleteToken (hash : Digest)
  | deleteSession (hash : Digest)

/-- `identity_business_barrier`. -/
def identityBusinessBarrier (db : Db) : Write → Except DbError Unit
  | .insert row => ensure (db.rowWritable row) (.raised "identity terminal; business write denied")
  | .update old new => ensure (old.revokes new ∨ db.oldWritable old ∧ db.rowWritable new)
      (.raised "identity terminal; business write denied")
  | .deleteToken _ | .deleteSession _ => return ()

/-! ## Keys -/

/-- The row is in its table. -/
def Business.has (b : Business) : Row → Bool
  | .client r => r ∈ b.access.clients
  | .credential r => r ∈ b.access.credentials
  | .token r => r ∈ b.access.tokens
  | .session r => r ∈ b.access.sessions
  | .staffClient r => r ∈ b.access.staffClients
  | .owner r => r ∈ b.owners
  | .link r => r ∈ b.links
  | .account r => r ∈ b.accounts
  | .operation r => r ∈ b.operations
  | .request r => r ∈ b.requests
  | .entry r => r ∈ b.entries
  | .draft r => r ∈ b.drafts
  | .booking r => r ∈ b.bookings
  | .issue r => r ∈ b.issues
  | .cancellation r => r ∈ b.cancellations

/-- The primary keys, the draft of a booking and the references of a new row. -/
def Business.accepts (b : Business) : Row → Bool
  | .client r => b.access.clients.all fun r' => r'.id ≠ r.id
  | .credential r => b.access.credentials.all fun r' => r'.id ≠ r.id
  | .token r => b.access.tokens.all fun r' => r'.tokenHash ≠ r.tokenHash
  | .session r => b.access.sessions.all fun r' => r'.tokenHash ≠ r.tokenHash
  | .staffClient r => (b.access.staffClients.all fun r' => r'.externalUserId ≠ r.externalUserId) &&
      b.access.clients.any fun c => c.id = r.clientId
  | .owner r => b.owners.all fun r' => r'.id ≠ r.id
  | .link r => (b.links.all fun r' => r'.clientId ≠ r.clientId) &&
      (b.access.clients.any fun c => c.id = r.clientId) && b.owners.any fun w => w.id = r.ownerId
  | .account r => (b.accounts.all fun r' => r'.id ≠ r.id) && b.owners.any fun w => w.id = r.ownerId
  | .operation r => (b.operations.all fun r' => r'.id ≠ r.id) &&
      b.accounts.any fun a => a.id = r.walletAccountId
  | .request r => (b.requests.all fun r' => r'.id ≠ r.id) &&
      b.accounts.any fun a => a.id = r.walletAccountId
  | .entry r => (b.entries.all fun r' => r'.id ≠ r.id) &&
      b.accounts.any fun a => a.id = r.walletAccountId
  | .draft r => b.drafts.all fun r' => r'.id ≠ r.id
  | .booking r => (b.bookings.all fun r' => r'.id ≠ r.id ∧
      (r.portalHoldDraftId.isSome → r'.portalHoldDraftId ≠ r.portalHoldDraftId)) &&
      r.portalHoldDraftId.all fun id => b.drafts.any fun h => h.id = id
  | .issue r => b.issues.all fun r' => r'.id ≠ r.id
  | .cancellation r => b.cancellations.all fun r' => r'.id ≠ r.id

/-- The columns an update of a row keeps: its primary key, what the triggers call immutable, and the
draft of a booking once it is set. -/
def Business.keeps (b : Business) (old new : Row) : Bool :=
  match old, new with
  | .client r, .client r' => r'.id = r.id
  | .credential r, .credential r' => r'.id = r.id
  | .token r, .token r' => r'.tokenHash = r.tokenHash
  | .session r, .session r' => r'.tokenHash = r.tokenHash
  | .staffClient r, .staffClient r' => r'.externalUserId = r.externalUserId &&
      b.access.clients.any fun c => c.id = r'.clientId
  | .owner r, .owner r' => r'.id = r.id && r'.ownerType = r.ownerType && r'.ownerKey = r.ownerKey
  | .account r, .account r' => r'.id = r.id && r'.ownerId = r.ownerId && r'.currency = r.currency
  | .operation r, .operation r' => r'.id = r.id && r'.walletAccountId = r.walletAccountId &&
      r'.bookingId = r.bookingId && r'.actorId = r.actorId
  | .request r, .request r' => r'.id = r.id && b.accounts.any fun a => a.id = r'.walletAccountId
  | .draft r, .draft r' => r'.id = r.id
  | .booking r, .booking r' => r'.id = r.id &&
      (r'.portalHoldDraftId = r.portalHoldDraftId || (r.portalHoldDraftId = none &&
        (b.bookings.all fun k => k.portalHoldDraftId ≠ r'.portalHoldDraftId) &&
        r'.portalHoldDraftId.all fun id => b.drafts.any fun h => h.id = id))
  | .issue r, .issue r' => r'.id = r.id && r'.bookingId = r.bookingId
  | .cancellation r, .cancellation r' => r'.id = r.id && r'.bookingId = r.bookingId
  | _, _ => false

/-! ## Writes -/

/-- The row is added to its table. -/
def Business.add (b : Business) : Row → Business
  | .client r => { b with access := { b.access with clients := b.access.clients ++ [r] } }
  | .credential r => { b with access := { b.access with credentials := b.access.credentials ++ [r] } }
  | .token r => { b with access := { b.access with tokens := b.access.tokens ++ [r] } }
  | .session r => { b with access := { b.access with sessions := b.access.sessions ++ [r] } }
  | .staffClient r => { b with access := { b.access with
      staffClients := b.access.staffClients ++ [r] } }
  | .owner r => { b with owners := b.owners ++ [r] }
  | .link r => { b with links := b.links ++ [r] }
  | .account r => { b with accounts := b.accounts ++ [r] }
  | .operation r => { b with operations := b.operations ++ [r] }
  | .request r => { b with requests := b.requests ++ [r] }
  | .entry r => { b with entries := b.entries ++ [r] }
  | .draft r => { b with drafts := b.drafts ++ [r] }
  | .booking r => { b with bookings := b.bookings ++ [r] }
  | .issue r => { b with issues := b.issues ++ [r] }
  | .cancellation r => { b with cancellations := b.cancellations ++ [r] }

/-- The row with the key of `new` becomes `new`; an update of a client fires its triggers. -/
def Business.replace (b : Business) : Row → Row → Except DbError Business
  | .client old, .client new => do
    let access ← b.access.updateRow old new
    return { b with access := access }
  | _, .credential r => return { b with access := { b.access with
      credentials := modify Access.ClientCredential.id r.id (fun _ => r) b.access.credentials } }
  | _, .token r => return { b with access := { b.access with
      tokens := modify Access.MachineToken.tokenHash r.tokenHash (fun _ => r) b.access.tokens } }
  | _, .session r => return { b with access := { b.access with
      sessions := modify Access.PrebookingSession.tokenHash r.tokenHash (fun _ => r) b.access.sessions } }
  | _, .staffClient r => return { b with access := { b.access with
      staffClients := modify Access.StaffClient.externalUserId r.externalUserId (fun _ => r)
        b.access.staffClients } }
  | _, .owner r => return { b with owners := modify Wallet.WalletOwner.id r.id (fun _ => r) b.owners }
  | _, .account r =>
    return { b with accounts := modify Wallet.WalletAccount.id r.id (fun _ => r) b.accounts }
  | _, .operation r =>
    return { b with operations := modify Wallet.WalletOperation.id r.id (fun _ => r) b.operations }
  | _, .request r =>
    return { b with
      requests := modify Wallet.Workflows.WalletRequest.id r.id (fun _ => r) b.requests }
  | _, .draft r => return { b with drafts := modify Booking.HoldDraft.id r.id (fun _ => r) b.drafts }
  | _, .booking r =>
    return { b with bookings := modify Booking.FlightBooking.id r.id (fun _ => r) b.bookings }
  | _, .issue r => return { b with issues := modify Booking.TicketIssue.id r.id (fun _ => r) b.issues }
  | _, .cancellation r =>
    return { b with
      cancellations := modify Booking.Cancellation.id r.id (fun _ => r) b.cancellations }
  | _, _ => return b

/-- The write of one row. -/
def Business.write (b : Business) : Write → Except DbError Business
  | .insert row => do
    ensure (b.accepts row) (.violated "business_key")
    return b.add row
  | .update old new => do
    ensure (b.has old ∧ b.keeps old new) (.raised "immutable")
    b.replace old new
  | .deleteToken hash => return { b with access := { b.access with
      tokens := b.access.tokens.filter fun t => t.tokenHash ≠ hash } }
  | .deleteSession hash => return { b with access := { b.access with
      sessions := b.access.sessions.filter fun s => s.tokenHash ≠ hash } }

/-- A write, behind the barrier. -/
def Db.write (db : Db) (w : Write) : Except ApiError Db := do
  (identityBusinessBarrier db w).mapError .ofDb
  let business ← (db.business.write w).mapError .ofDb
  return { db with business := business }

/-! ## Authority -/

/-- `Principal`, without the texts that are only displayed. -/
structure Principal where
  id : Uuid
  subject : String
  role : Role
  authorizationVersion : Int
  agencyId : Option Uuid
  agencyCode : Option String
  ownerSubject : Option String
  deriving DecidableEq

def businessForbidden : ApiError := ⟨.forbidden, "IDENTITY_BUSINESS_FORBIDDEN"⟩

/-- `principal`. -/
def principal (db : Db) (subject : String) : Except ApiError Principal := do
  let u ← phase5Actor db subject
  ensure (u.status = .active ∧ u.role ≠ .customer) businessForbidden
  let agency := (db.directory.membership u.id).bind fun m => db.directory.agency m.agencyId
  return {
    id := u.id
    subject := u.subject
    role := u.role
    authorizationVersion := u.authorizationVersion
    agencyId := (db.directory.membership u.id).map Membership.agencyId
    agencyCode := agency.map Agency.code
    ownerSubject := (agency.bind fun a => db.directory.user a.ownerUserId).map User.subject }

/-- `Context`; `same_authority` compares all a `Principal` has here. -/
structure Context where
  actor : Principal
  targets : List Principal
  clients : List (Uuid × Int)
  deriving DecidableEq

/-- The context `execute` gives a request, for the targets and the clients its path names. -/
def authorizeContext (db : Db) (subject : String) (targets : List String) (clients : List Uuid) :
    Except ApiError Context := do
  let actor ← principal db subject
  let targets ← targets.mapM fun s => principal db s
  let clients ← clients.mapM fun id => do
    let c ← fetch (db.business.access.client id) (.ofDb .noRow)
    return (id, c.managementVersion)
  return ⟨actor, targets, clients⟩

/-- The check of one principal in `begin`. -/
def sameAuthority (db : Db) (previous : Principal) : Except ApiError Unit := do
  let current ← principal db previous.subject
  ensure (previous = current) (conflict "IDENTITY_AUTHORITY_CHANGED")

/-- The check of one client in `begin`. -/
def sameClient (db : Db) (client : Uuid × Int) : Except ApiError Unit := do
  let c ← fetch (db.business.access.client client.1) (.ofDb .noRow)
  ensure (c.managementVersion = client.2) (conflict "IDENTITY_CLIENT_CHANGED")

/-- `begin`, for a request in a context. -/
def beginBusiness (db : Db) (c : Context) : Except ApiError Unit := do
  (c.actor :: c.targets).forM (sameAuthority db)
  c.clients.forM (sameClient db)

/-- A transaction opened with `begin` and its writes. -/
def commitBusiness (db : Db) (c : Context) (writes : List Write) : Except ApiError Db := do
  beginBusiness db c
  writes.foldlM Db.write db

end ShaponTravels.Identity
