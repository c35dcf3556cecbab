import ShaponTravels.Identity.Schema
import ShaponTravels.Library.Outcome
import ShaponTravels.Library.Table

/-!
# Directory — statements on users, agencies and memberships, and who may act

The triggers of migrations 0034 and 0040 are part of the statements that fire them; the deferred
constraints are checked by `Directory.commit`.  Then the authority checks of `identity.rs`,
`operations.rs`, `phase5.rs` and `profiles.rs`.
-/

namespace ShaponTravels.Identity

open Library

/-! ## Statements -/

def Directory.user (d : Directory) (id : Uuid) : Option User := lookup User.id id d.users

def Directory.bySubject (d : Directory) (subject : String) : Option User :=
  lookup User.subject subject d.users

def Directory.agency (d : Directory) (id : Uuid) : Option Agency := lookup Agency.id id d.agencies

def Directory.ownedAgency (d : Directory) (owner : Uuid) : Option Agency :=
  lookup Agency.ownerUserId owner d.agencies

def Directory.membership (d : Directory) (user : Uuid) : Option Membership :=
  lookup Membership.userId user d.memberships

/-- The sub-users of an agency. -/
def Directory.subs (d : Directory) (agency : Uuid) : List Uuid :=
  (d.memberships.filter fun m => m.agencyId = agency ∧ m.kind = .sub).map Membership.userId

/-- `guard_portal_deleting_identity` and `guard_portal_user_identity`: the row an update stores. -/
def guardPortalUserIdentity (old new : User) : Except DbError User := do
  ensure (old.status = .deleting → new.status.terminal)
    (.raised "deleting identity cannot be restored")
  ensure (new.id = old.id ∧ new.subject = old.subject)
    (.raised "portal identity keys are immutable")
  ensure (old.status = .deleted → new.status = .deleted)
    (.raised "deleted portal identities cannot be restored")
  let version ← bigint (old.version + 1)
  let authorizationVersion ← bigint (old.authorizationVersion +
    if new.role ≠ old.role ∨ new.status ≠ old.status ∨
      new.authorizationVersion ≠ old.authorizationVersion then 1 else 0)
  return { new with version := version, authorizationVersion := authorizationVersion }

/-- `UPDATE portal_users … WHERE id = $1`. -/
def Directory.updateUser (d : Directory) (id : Uuid) (f : User → User) :
    Except DbError Directory :=
  match d.user id with
  | none => return d
  | some old => do
    let row ← guardPortalUserIdentity old (f old)
    return { d with users := modify User.id id (fun _ => row) d.users }

/-- `INSERT INTO portal_users`. -/
def Directory.insertUser (d : Directory) (u : User) : Except DbError Directory := do
  ensure (∀ u' ∈ d.users, u'.id ≠ u.id) (.unique "portal_users_pkey")
  ensure (∀ u' ∈ d.users, u'.subject ≠ u.subject) (.unique "portal_users_clerk_user_id_key")
  return { d with users := d.users ++ [u] }

/-- `guard_portal_agency_identity`. -/
def guardPortalAgencyIdentity (old new : Agency) : Except DbError Agency := do
  ensure (new.id = old.id ∧ new.code = old.code) (.raised "portal agency keys are immutable")
  ensure (old.status = .archived → new.status = .archived)
    (.raised "archived portal agencies cannot be reactivated")
  let version ← bigint (old.version + 1)
  return { new with version := version }

/-- `UPDATE portal_agencies SET status = … WHERE id = $1`. -/
def Directory.setAgency (d : Directory) (id : Uuid) (status : AgencyStatus) :
    Except DbError Directory :=
  match d.agency id with
  | none => return d
  | some old => do
    let row ← guardPortalAgencyIdentity old { old with status := status }
    return { d with agencies := modify Agency.id id (fun _ => row) d.agencies }

/-- `INSERT INTO portal_agencies`. -/
def Directory.insertAgency (d : Directory) (a : Agency) : Except DbError Directory := do
  ensure (∀ a' ∈ d.agencies, a'.id ≠ a.id) (.unique "portal_agencies_pkey")
  ensure (∀ a' ∈ d.agencies, a'.code ≠ a.code) (.unique "portal_agencies_agency_code_key")
  ensure (∀ a' ∈ d.agencies, a'.ownerUserId ≠ a.ownerUserId)
    (.unique "portal_agencies_owner_user_id_key")
  return { d with agencies := d.agencies ++ [a] }

/-- `INSERT INTO portal_agency_memberships`, with `guard_portal_membership_identity`. -/
def Directory.insertMembership (d : Directory) (m : Membership) : Except DbError Directory := do
  ensure (∃ a ∈ d.agencies, a.id = m.agencyId)
    (.violated "portal_agency_memberships_agency_id_fkey")
  let d ← d.updateUser m.userId fun u =>
    { u with authorizationVersion := u.authorizationVersion + 1 }
  ensure (∀ m' ∈ d.memberships, m'.userId ≠ m.userId) (.unique "portal_agency_memberships_pkey")
  ensure (m.kind = .owner → ∀ m' ∈ d.memberships, ¬ (m'.agencyId = m.agencyId ∧ m'.kind = .owner))
    (.unique "portal_agency_one_owner_idx")
  return { d with memberships := d.memberships ++ [m] }

/-- The constraints that are checked when a transaction commits. -/
def Directory.commit (d : Directory) : Except DbError Directory := do
  ensure (∀ a ∈ d.agencies, ∃ u ∈ d.users, u.id = a.ownerUserId ∧ u.role = .b2b)
    (.violated "portal_agencies_owner_user_id_owner_role_fkey")
  ensure (∀ m ∈ d.memberships, ∃ u ∈ d.users, u.id = m.userId ∧ u.role = m.kind.userRole)
    (.violated "portal_agency_memberships_user_id_user_role_fkey")
  ensure (∀ a ∈ d.agencies, ∃ m ∈ d.memberships,
      m.userId = a.ownerUserId ∧ m.agencyId = a.id ∧ m.kind = .owner)
    (.violated "portal_agency_owner_membership_fk")
  ensure (∀ u ∈ d.users, u.status = .active → u.role.requiresAgency →
      ∃ m ∈ d.memberships, m.userId = u.id ∧ m.kind.userRole = u.role)
    (.raised "active B2B identity requires an agency membership")
  return d

/-! ## Who may act -/

def forbidden : ApiError := ⟨.forbidden, "IDENTITY_FORBIDDEN"⟩

def conflict (code : String) : ApiError := ⟨.conflict, code⟩

def notFound : ApiError := ⟨.notFound, "IDENTITY_NOT_FOUND"⟩

/-- `api::require_bootstrap`. -/
def requireBootstrap (db : Db) : Except ApiError Unit :=
  ensure (db.directory.bootstrap.isSome) (conflict "IDENTITY_BOOTSTRAP_REQUIRED")

/-- `SELECT EXISTS(… FROM portal_identity_provider_state WHERE subject=$1 AND deleted)`. -/
def Inbox.isDeleted (i : Inbox) (subject : String) : Bool :=
  i.states.any fun s => s.subject = subject && s.deleted

/-- `inbox::guard_subject`. -/
def guardSubject (db : Db) (subject : String) : Except ApiError Unit :=
  ensure (¬ db.inbox.isDeleted subject) (conflict "IDENTITY_PROVIDER_DELETED")

/-- `operations::user`. -/
def user (db : Db) (id : Uuid) : Except ApiError User := fetch (db.directory.user id) notFound

/-- `operations::actor`. -/
def actor (db : Db) (subject : String) : Except ApiError User := do
  let u ← fetch (db.directory.bySubject subject) forbidden
  guardSubject db subject
  ensure (u.status = .active) forbidden
  return u

/-- `authorize_management`. -/
def authorizeManagement (actor target : User) (delete : Bool) : Except ApiError Unit := do
  ensure (actor.status = .active ∧ actor.role.managesUsers) forbidden
  ensure (actor.id ≠ target.id) ⟨.forbidden, "IDENTITY_SELF_CHANGE_FORBIDDEN"⟩
  ensure (actor.role.canGrant target.role) ⟨.forbidden, "IDENTITY_SUPERADMIN_REQUIRED"⟩
  ensure (delete → actor.role = .superadmin) ⟨.forbidden, "IDENTITY_SUPERADMIN_REQUIRED"⟩
  ensure (¬ target.status.terminal) (conflict "IDENTITY_TERMINAL_TARGET")

/-- `authorize_sub_user`. -/
def authorizeSubUser (actor target : User) (ownedAgency targetAgency : Option Uuid) :
    Except ApiError Unit :=
  ensure (actor.status = .active ∧ actor.role = .b2b ∧ actor.id ≠ target.id ∧
    target.role = .b2bSub ∧ ¬ target.status.terminal ∧ ownedAgency.isSome ∧
    ownedAgency = targetAgency) ⟨.forbidden, "IDENTITY_SUB_USER_FORBIDDEN"⟩

/-- `guard_last_superadmin`. -/
def guardLastSuperadmin (d : Directory) (target : Uuid) (nextRole : Role) (nextStatus : Status) :
    Except ApiError Unit :=
  if nextRole = .superadmin ∧ nextStatus = .active then return ()
  else do
    let current ← fetch (d.user target) notFound
    ensure (current.role = .superadmin → current.status = .active →
      ∃ u ∈ d.users, u.id ≠ target ∧ u.role = .superadmin ∧ u.status = .active)
      (conflict "IDENTITY_LAST_SUPERADMIN")

/-- `validate_subject`. -/
def validateSubject (subject : String) : Except ApiError Unit :=
  ensure (startsWith subject "user_" ∧ 6 ≤ subject.utf8ByteSize ∧ subject.utf8ByteSize ≤ 128 ∧
    subject.toList.all (fun c => c.isAlphanum || c = '_')) ⟨.badRequest, "IDENTITY_INVALID_SUBJECT"⟩

/-- `profiles::active_agency`. -/
def activeAgency (db : Db) (user : Uuid) : Except ApiError Uuid := do
  let denied : ApiError := ⟨.forbidden, "IDENTITY_PROFILE_FORBIDDEN"⟩
  let m ← fetch (db.directory.membership user) denied
  let a ← fetch (db.directory.agency m.agencyId) denied
  let owner ← fetch (db.directory.user a.ownerUserId) denied
  ensure (a.status = .active ∧ owner.status = .active) denied
  guardSubject db owner.subject
  return a.id

/-- `phase5::actor`. -/
def phase5Actor (db : Db) (subject : String) : Except ApiError User := do
  validateSubject subject
  requireBootstrap db
  let u ← fetch (db.directory.bySubject subject) forbidden
  guardSubject db subject
  ensure (u.status = .active ∨ u.status = .onboarding ∧ u.role = .customer) forbidden
  if u.role.requiresAgency then
    let _ ← activeAgency db u.id
  return u

/-- `phase5::target`. -/
def phase5Target (db : Db) (actor : User) (id : Uuid) : Except ApiError User := do
  let t ← user db id
  guardSubject db t.subject
  ensure (¬ t.status.terminal ∧
    (actor.id = id ∨ actor.status = .active ∧ actor.role.canManageProfile t.role)) forbidden
  return t

/-- The branch of `profiles::scope` for one kind of profile. -/
def profileAllowed (db : Db) (actor target : User) (agency : Option Uuid) (write : Bool) :
    ProfileKind → Except ApiError Unit
  | .profile =>
    ensure (actor.role.canManageProfile target.role ∨
      actor.id = target.id ∧ ¬ (write ∧ actor.role.requiresAgency))
      ⟨.forbidden, "IDENTITY_PROFILE_FORBIDDEN"⟩
  | .staff => do
    ensure (target.role = .b2bSub) ⟨.forbidden, "IDENTITY_PROFILE_FORBIDDEN"⟩
    if actor.id ≠ target.id then
      ensure (actor.role = .b2b) ⟨.forbidden, "IDENTITY_PROFILE_FORBIDDEN"⟩
      let targetAgency ← activeAgency db target.id
      ensure (agency = some targetAgency) ⟨.forbidden, "IDENTITY_PROFILE_FORBIDDEN"⟩

/-- The agency of the actor, when its role needs one. -/
def actorAgency (db : Db) (actor : User) : Except ApiError (Option Uuid) :=
  if actor.role.requiresAgency then some <$> activeAgency db actor.id else return none

/-- `profiles::scope`. -/
def profileScope (db : Db) (subject : String) (target : Uuid) (kind : ProfileKind) (write : Bool) :
    Except ApiError (User × User) := do
  validateSubject subject
  requireBootstrap db
  let actor ← actor db subject
  let target ← user db target
  ensure (¬ target.status.terminal) ⟨.forbidden, "IDENTITY_PROFILE_FORBIDDEN"⟩
  guardSubject db target.subject
  let agency ← actorAgency db actor
  profileAllowed db actor target agency write kind
  return (actor, target)

end ShaponTravels.Identity
