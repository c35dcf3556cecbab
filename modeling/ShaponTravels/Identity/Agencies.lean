import ShaponTravels.Identity.Effects

/-!
# Agencies — agencies, new users and the revocation of clients

`agencies.rs`, `provisioning.rs`, `provider.rs`, `mail::enqueue`, the reference checks of `api.rs`
and `operations::revoke_clients`.  What a transaction draws (identifiers, the next agency number)
is an argument; the primary keys reject what is not fresh.
-/

namespace ShaponTravels.Identity

open Library

/-- What a transaction draws: the identifiers of the rows it inserts and an agency number. -/
structure Draw where
  user : Uuid
  agency : Uuid
  wallet : Uuid
  account : Uuid
  mail : Uuid
  effects : Nat → Uuid
  number : Nat

/-- The deferred constraints, at the end of a transaction that wrote the directory. -/
def Db.commit (db : Db) : Except ApiError Db := do
  let directory ← db.directory.commit.mapError .ofDb
  return { db with directory := directory }

/-! ## Clients -/

/-- The wallet owner stands for a subject of the list, or for an agency one of them owns. -/
def ownerOf (d : Directory) (subjects : List String) (w : Wallet.WalletOwner) : Bool :=
  match w.ownerType with
  | .user => w.ownerKey ∈ subjects
  | .agency => d.agencies.any fun a => a.code = w.ownerKey ∧
      d.users.any fun u => u.id = a.ownerUserId ∧ u.subject ∈ subjects

/-- The clients of the subjects: linked with them, with their staff client or with a wallet. -/
def Business.clientsOf (b : Business) (d : Directory) (subjects : List String) : List Uuid :=
  (b.access.clients.filter fun c => c.externalUserId.any (fun s => s ∈ subjects) ∨
    (b.access.staffClients.any fun s => s.clientId = c.id ∧ s.externalUserId ∈ subjects) ∨
    (b.links.any fun l => l.clientId = c.id ∧
      b.owners.any fun w => w.id = l.ownerId ∧ ownerOf d subjects w)).map Access.ApiClient.id

/-- `revoke_clients`. -/
def revokeClients (db : Db) (subjects : List String) : Except ApiError Db := do
  let access ← (Access.revokeClients db.business.access
    (db.business.clientsOf db.directory subjects)).mapError .ofDb
  return { db with business := { db.business with access := access } }

/-- `api::guard_retained_references`. -/
def guardRetainedReferences (db : Db) (subject : String) : Except ApiError Unit :=
  ensure (¬ ((db.business.access.clients.any fun c => c.externalUserId = some subject) ∨
    (db.business.owners.any fun w => w.ownerType = .user ∧ w.ownerKey = subject) ∨
    (db.business.access.staffClients.any fun s => s.externalUserId = subject) ∨
    (db.business.drafts.any fun h =>
      h.ownerExternalUserId = subject ∨ h.creatorExternalUserId = subject) ∨
    (db.business.bookings.any fun k => k.createdByExternalUserId = some subject)))
    (conflict "IDENTITY_MATCHING_REVIEW_REQUIRED")

/-! ## Agencies -/

/-- `fresh_code`, for the number its loop stops at. -/
def freshCode (db : Db) (number : Nat) : Except ApiError String := do
  ensure (number ≤ 999999) (conflict "IDENTITY_AGENCY_CODES_EXHAUSTED")
  let code := "ST-B2B" ++ toString number
  ensure (¬ ((db.directory.agencies.any fun a => a.code = code) ∨
    (db.business.owners.any fun w => w.ownerType = .agency ∧ w.ownerKey = code)))
    (conflict "IDENTITY_AGENCY_CODE_BUSY")
  return code

/-- The wallet of a new agency. -/
def Business.insertWallet (b : Business) (wallet account : Uuid) (code : String) :
    Except DbError Business := do
  ensure (∀ w ∈ b.owners, w.id ≠ wallet) (.unique "wallet_owners_pkey")
  ensure (∀ w ∈ b.owners, ¬ (w.ownerType = .agency ∧ w.ownerKey = code))
    (.unique "wallet_owners_owner_type_owner_key_key")
  ensure (∀ a ∈ b.accounts, a.id ≠ account) (.unique "wallet_accounts_pkey")
  return { b with
    owners := b.owners ++ [⟨wallet, .agency, code, .active, .object []⟩]
    accounts := b.accounts ++ [⟨account, wallet, .bdt, 0, 0, 0⟩] }

/-- The rows of a new agency: its owner becomes an active agency user. -/
def Directory.provision (d : Directory) (owner agency : Uuid) (code : String) :
    Except DbError Directory := do
  let d ← d.updateUser owner fun u => { u with role := .b2b, status := .active }
  let d ← d.insertAgency ⟨agency, code, owner, .active, 1⟩
  d.insertMembership ⟨owner, agency, .owner⟩

/-- `provision`. -/
def provision (db : Db) (target : User) (draw : Draw) : Except ApiError Db := do
  ensure (¬ ((db.directory.memberships.any fun m => m.userId = target.id) ∨
    (db.directory.agencies.any fun a => a.ownerUserId = target.id)))
    (conflict "IDENTITY_MEMBERSHIP_DEPENDENCY")
  ensure (target.role = .customer ∧ (target.status = .onboarding ∨ target.status = .active))
    (conflict "IDENTITY_AGENCY_PROVISIONING_INELIGIBLE")
  guardRetainedReferences db target.subject
  let code ← freshCode db draw.number
  let directory ← (db.directory.provision target.id draw.agency code).mapError .ofDb
  let business ← (db.business.insertWallet draw.wallet draw.account code).mapError .ofDb
  return { db with directory := directory, business := business }

/-- `reactivate`. -/
def reactivate (db : Db) (target : User) (expected : Int) : Except ApiError (Db × Uuid) := do
  ensure (0 < expected) ⟨.badRequest, "IDENTITY_INVALID_VERSION"⟩
  ensure (target.role = .b2b ∧ target.status = .suspended)
    (conflict "IDENTITY_AGENCY_REACTIVATION_INELIGIBLE")
  let a ← fetch ((db.directory.ownedAgency target.id).filter fun a =>
    db.directory.memberships.any fun m =>
      m.agencyId = a.id ∧ m.userId = a.ownerUserId ∧ m.kind = .owner)
    (conflict "IDENTITY_MEMBERSHIP_DEPENDENCY")
  ensure (a.version = expected) (conflict "IDENTITY_AGENCY_VERSION_CONFLICT")
  ensure (a.status = .suspended) (conflict "IDENTITY_AGENCY_REACTIVATION_INELIGIBLE")
  let d ← (db.directory.updateUser target.id fun u => { u with status := .active }).mapError .ofDb
  let d ← (d.setAgency a.id .active).mapError .ofDb
  return ({ db with directory := d }, a.id)

/-- The update of one sub-user in `invalidate_members`. -/
def invalidateMember (d : Directory) (id : Uuid) : Except DbError Directory :=
  d.updateUser id fun u => { u with authorizationVersion := u.authorizationVersion + 1 }

/-- `invalidate_members`. -/
def Directory.invalidateMembers (d : Directory) (agency : Uuid) : Except DbError Directory :=
  (d.subs agency).foldlM invalidateMember d

/-! ## Mail -/

/-- `mail::enqueue`: a mail that is there already is not sent twice. -/
def Mails.enqueue (m : Mails) (now : Int) (id : Uuid) (kind : MailKind) : Mails :=
  if m.rows.any fun r => r.id = id ∨ r.kind = kind then m
  else { m with
    rows := m.rows ++ [⟨id, m.sequence, kind, .pending, 0, 0, now, none⟩]
    sequence := m.sequence + 1 }

/-! ## Provisioning -/

/-- `ProviderUser`. -/
structure ProviderUser where
  id : String
  banned : Bool
  locked : Bool
  email : Option String
  firstName : Option String
  lastName : Option String
  deriving DecidableEq

/-- `ProviderUser::validate`. -/
def ProviderUser.validate (u : ProviderUser) (subject : String) : Except ApiError Unit := do
  let unavailable : ApiError := ⟨.serviceUnavailable, "IDENTITY_PROVIDER_UNAVAILABLE"⟩
  ensure (u.id = subject) unavailable
  ensure (¬ (u.banned ∨ u.locked)) ⟨.forbidden, "IDENTITY_PROVIDER_DENIED"⟩
  ensure (¬ (u.email.any (fun s => 320 < s.utf8ByteSize) ∨
    u.firstName.any (fun s => 400 < s.utf8ByteSize) ∨
    u.lastName.any (fun s => 400 < s.utf8ByteSize))) unavailable

/-- `provisioning::Grant`. -/
structure Grant where
  operationId : Uuid
  actorId : Uuid
  userId : Uuid
  requestHash : Digest
  role : Role
  agencyId : Option Uuid
  action : Action

/-- The new row of a provider user. -/
def newUser (id : Uuid) (u : ProviderUser) (role : Role) (status : Status) : User where
  id := id
  subject := u.id
  role := role
  status := status
  version := 1
  authorizationVersion := 1
  email := u.email
  firstName := u.firstName
  lastName := u.lastName

/-- The role and the membership of a new user. -/
def grantRole (db : Db) (grant : Grant) (draw : Draw) : Except ApiError Db :=
  if grant.role = .b2b then do
    let target ← user db grant.userId
    provision db target draw
  else if grant.role ≠ .customer then do
    let d ← (db.directory.updateUser grant.userId fun u =>
      { u with role := grant.role, status := .active }).mapError .ofDb
    match grant.agencyId with
    | none => return { db with directory := d }
    | some agency => do
      let d ← (d.insertMembership ⟨grant.userId, agency, .sub⟩).mapError .ofDb
      return { db with directory := d }
  else return db

/-- The effects of an operation on its target. -/
def targetEffects (draw : Draw) (u : User) : List Effects.Order :=
  [⟨draw.effects 0, .revokeSessions, u⟩, ⟨draw.effects 1, .mirrorMetadata, u⟩]

/-- `provisioning::commit`. -/
def provisioningCommit (db : Db) (now : Int) (u : ProviderUser) (grant : Grant) (draw : Draw) :
    Except ApiError Db := do
  guardSubject db u.id
  ensure (¬ db.directory.users.any fun u' => u'.subject = u.id ∨ u'.id = grant.userId)
    (conflict "IDENTITY_MATCHING_REVIEW_REQUIRED")
  guardRetainedReferences db u.id
  let d ← (db.directory.insertUser (newUser grant.userId u .customer .onboarding)).mapError .ofDb
  let db ← grantRole { db with directory := d } grant draw
  let target ← user db grant.userId
  let e ← (db.effects.insertOperation {
    id := grant.operationId
    actorUserId := grant.actorId
    targetUserId := grant.userId
    action := grant.action
    requestHash := grant.requestHash
    expectedVersion := 1
    resultingVersion := target.version
    resultingRole := grant.role
    resultingStatus := target.status
    state := .pendingEffects }).mapError .ofDb
  let e ← (e.enqueue now grant.operationId (targetEffects draw target)).mapError .ofDb
  let kind : MailKind :=
    if grant.action = .acceptInvitation then .welcome grant.userId else .account grant.userId
  return { db with effects := e, mails := db.mails.enqueue now draw.mail kind }

end ShaponTravels.Identity
