import ShaponTravels.Identity.Invitations
import ShaponTravels.Identity.Profiles

/-!
# Onboarding — the first users, applications and names

`bootstrap` and `onboard` of `api.rs`, `applications.rs`, `names.rs` and the helpers of `phase5.rs`
with migration 0044; the hash of a request stands for its content.
-/

namespace ShaponTravels.Identity

open Library

def bad : ApiError := ⟨.badRequest, "IDENTITY_INVALID_REQUEST"⟩

def versionConflict : ApiError := conflict "IDENTITY_VERSION_CONFLICT"

/-! ## First users -/

/-- `bootstrap`. -/
def bootstrap (db : Db) (u : ProviderUser) (draw : Draw) : Except ApiError Db := do
  validateSubject u.id
  u.validate u.id
  ensure (db.directory.users = [] ∧ db.directory.bootstrap = none) (conflict "IDENTITY_BOOTSTRAP_CLOSED")
  guardRetainedReferences db u.id
  let d ← (db.directory.insertUser (newUser draw.user u .superadmin .active)).mapError .ofDb
  { db with directory := { d with bootstrap := some draw.user } }.commit

/-- `onboard`: an unknown subject becomes a customer. -/
def onboard (p : Platform) (db : Db) (now : Int) (u : ProviderUser) (draw : Draw) :
    Except ApiError Db := do
  validateSubject u.id
  u.validate u.id
  requireBootstrap db
  match db.directory.bySubject u.id with
  | some _ => return db
  | none => do
    guardSubject db u.id
    guardCreateOnboarding p db u
    guardInvitationOnboarding p db u
    guardRetainedReferences db u.id
    let d ← (db.directory.insertUser (newUser draw.user u .customer .onboarding)).mapError .ofDb
    return { db with
      directory := d
      mails := db.mails.enqueue now draw.mail (.welcome draw.user) }

/-! ## Commands -/

/-- `phase5::replay`. -/
def replay (db : Db) (id : Uuid) (hash : Digest) : Except ApiError (Option Int) :=
  match lookup Command.id id db.papers.commands with
  | none => return none
  | some c => do
    ensure (c.requestHash = hash) versionConflict
    return some c.version

/-- `phase5::commit`. -/
def commitCommand (db : Db) (c : Command) : Except ApiError Db := do
  ensure (∀ c' ∈ db.papers.commands, c'.id ≠ c.id)
    (.ofDb (.unique "portal_identity_phase5_commands_pkey"))
  return { db with papers := { db.papers with commands := db.papers.commands ++ [c] } }

/-- The effects `phase5::effects` inserts for a user. -/
def commandOrders (draw : Draw) (names : Option (String × String)) (u : User) : List Effects.Order :=
  if names.isSome then [⟨draw.effects 0, .mirrorName, u⟩] else targetEffects draw u

/-- `phase5::effects`. -/
def commandEffects (db : Db) (now : Int) (id : Uuid) (actor target : User) (action : Action)
    (hash : Digest) (names : Option (String × String)) (draw : Draw) : Except ApiError Db := do
  let current ← user db target.id
  let e ← (db.effects.insertOperation {
    id := id
    actorUserId := actor.id
    targetUserId := target.id
    action := action
    requestHash := hash
    expectedVersion := target.version
    resultingVersion := current.version
    resultingRole := current.role
    resultingStatus := current.status
    state := .pendingEffects }).mapError .ofDb
  let e ← (e.enqueue now id (commandOrders draw names current)).mapError .ofDb
  let mirrored := names.toList.map fun n => (⟨draw.effects 0, n.1, n.2⟩ : NameEffect)
  return { db with effects := { e with names := e.names ++ mirrored } }

/-! ## Applications -/

/-- A note or a field of at most 500 characters, without control characters but line breaks. -/
def validNote (note : String) : Bool :=
  note.length ≤ 500 && !note.toList.any fun c => isControl c && c != '\n' && c != '\r'

/-- `phase5::text`, for a required field. -/
def requiredText (value : String) : Except ApiError String := do
  let text := trim value
  ensure (text ≠ "" ∧ validNote text) bad
  return text

/-- `Fields::validate`. -/
def ApplicationFields.validate (f : ApplicationFields) : Except ApiError ApplicationFields := do
  let agencyName ← requiredText f.agencyName
  let businessMobile ← requiredText f.businessMobile
  let businessEmail ← requiredText f.businessEmail
  let businessAddress ← requiredText f.businessAddress
  let fullName ← requiredText f.fullName
  let businessType ← requiredText f.businessType
  let personalMobile ← requiredText f.personalMobile
  let personalAddress ← requiredText f.personalAddress
  ensure (emailShape businessEmail ∧ businessType ∈ ["proprietor", "partner"]) bad
  return ⟨agencyName, businessMobile, businessEmail, businessAddress, fullName, businessType,
    personalMobile, personalAddress⟩

/-- `applications::Submit`. -/
structure SubmitApplication where
  clerkUserId : String
  operationId : Uuid
  expectedVersion : Int
  expectedIdentityVersion : Int
  fields : ApplicationFields
  documents : List Uuid
  requestHash : Digest
  deriving DecidableEq

/-- `applications::Decision`. -/
inductive Decision where
  | accept
  | reject
  deriving DecidableEq, Repr

/-- `applications::Review`. -/
structure ReviewApplication where
  clerkUserId : String
  operationId : Uuid
  targetUserId : Uuid
  expectedVersion : Int
  expectedIdentityVersion : Int
  expectedProfileVersion : Int
  decision : Decision
  note : String
  requestHash : Digest
  deriving DecidableEq

/-- The application of a user. -/
def Papers.application (p : Papers) (user : Uuid) : Option Application :=
  lookup Application.userId user p.applications

/-- The version a view shows; a missing application has version 0. -/
def Papers.applicationVersion (p : Papers) (user : Uuid) : Int :=
  ((p.application user).map Application.version).getD 0

/-- `check_identity_application_documents`. -/
def Papers.ownsDocuments (p : Papers) (user : Uuid) (documents : List Uuid) : Bool :=
  documents.all fun id => p.assets.any fun a =>
    a.id = id ∧ a.userId = user ∧ a.purpose = .application ∧ a.state = .ready

/-- `record_identity_application`. -/
def Papers.record (p : Papers) (a : Application) : Except DbError Papers := do
  ensure (∀ h ∈ p.history, ¬ (h.userId = a.userId ∧ h.version = a.version))
    (.unique "portal_identity_application_history_pkey")
  return { p with history := p.history ++ [⟨a.userId, a.version, a⟩] }

/-- `guard_identity_application`. -/
def guardApplication (old new : Application) : Except DbError Application := do
  ensure (new.userId = old.userId ∧
    (old.status = .pending ∧ (new.status = .accepted ∨ new.status = .rejected) ∧
        new.fields = old.fields ∧ new.documents = old.documents ∨
      old.status = .rejected ∧ new.status = .pending)) (.raised "invalid application transition")
  let version ← bigint (old.version + 1)
  return { new with version := version }

/-- `UPDATE portal_identity_applications … WHERE user_id = $1`. -/
def Papers.updateApplication (p : Papers) (user : Uuid) (f : Application → Application) :
    Except DbError Papers :=
  match p.application user with
  | none => return p
  | some old => do
    let row ← guardApplication old (f old)
    { p with applications := modify Application.userId user (fun _ => row) p.applications }.record row

/-- The upsert of a submitted application. -/
def Papers.submit (p : Papers) (user : Uuid) (fields : ApplicationFields) (documents : List Uuid) :
    Except DbError Papers := do
  ensure (p.ownsDocuments user documents ∧ documents.Nodup) (.raised "invalid application documents")
  match p.application user with
  | none =>
    let row : Application := ⟨user, 1, .pending, fields, documents, none, none, none⟩
    { p with applications := p.applications ++ [row] }.record row
  | some _ => p.updateApplication user fun a => { a with
      status := .pending
      fields := fields
      documents := documents
      reviewerId := none
      reviewNote := none
      reviewedAt := none }

/-- `submit`. -/
def submit (db : Db) (input : SubmitApplication) : Except ApiError Db := do
  let fields ← input.fields.validate
  ensure (0 ≤ input.expectedVersion ∧ 1 ≤ input.expectedIdentityVersion ∧
    input.documents.length ≤ 5 ∧ input.documents.Nodup) bad
  let actor ← phase5Actor db input.clerkUserId
  ensure (actor.role = .customer) forbidden
  let old ← replay db input.operationId input.requestHash
  match old with
  | some _ => return db
  | none => do
    let version := db.papers.applicationVersion actor.id
    ensure (version = input.expectedVersion ∧ actor.version = input.expectedIdentityVersion ∧
      (db.papers.application actor.id).all fun a => a.status = .rejected) versionConflict
    ensure (db.papers.ownsDocuments actor.id input.documents) forbidden
    let papers ← (db.papers.submit actor.id fields input.documents).mapError .ofDb
    commitCommand { db with papers := papers }
      ⟨input.operationId, actor.id, actor.id, .applicationSubmit, input.requestHash, version + 1⟩

/-! ### Transfer to the profile -/

/-- The fields of an application that have one of the profile. -/
def ApplicationFields.profileFields (f : ApplicationFields) : List (ProfileField × String) :=
  [(.agencyName, f.agencyName), (.agencyMobile, f.businessMobile), (.agencyEmail, f.businessEmail),
    (.agencyAddress, f.businessAddress), (.mobile, f.personalMobile), (.address, f.personalAddress)]

/-- What an acceptance adds to a profile: presence, including an empty text, wins. -/
def transferPatch (f : ApplicationFields) (email : Option String)
    (current : ProfileField → Option String) : List (ProfileField × String) :=
  (f.profileFields.filter fun entry => (current entry.1).isNone) ++
  (if current .givenName = none ∧ current .surname = none then [(.givenName, f.fullName)] else []) ++
  (if current .email = none then email.toList.map fun email => (.email, email) else [])

/-- The transfer of an accepted application. -/
def Papers.transfer (p : Papers) (user : Uuid) (f : ApplicationFields) (email : Option String) :
    Except DbError Papers :=
  let patch := transferPatch f email (p.profileFields user .profile)
  p.upsertProfile ⟨user, .profile, mergeFields (fun _ => none) patch, true, 1⟩ fun r => { r with
    fields := mergeFields r.fields patch }

/-- What an acceptance changes of the identity. -/
def acceptApplication (db : Db) (now : Int) (actor target : User) (fields : ApplicationFields)
    (input : ReviewApplication) (draw : Draw) : Except ApiError Db := do
  let db ← provision db target draw
  let current ← user db target.id
  let papers ← (db.papers.transfer target.id fields current.email).mapError .ofDb
  let db ← revokeClients { db with papers := papers } [target.subject]
  let db ← commandEffects db now input.operationId actor target .approveApplication
    input.requestHash none draw
  return { db with mails := db.mails.enqueue now draw.mail (.b2bActivated target.id) }

/-- What a decision changes of the identity. -/
def decideApplication (db : Db) (now : Int) (actor target : User) (fields : ApplicationFields)
    (input : ReviewApplication) (draw : Draw) : Except ApiError Db :=
  match input.decision with
  | .accept => acceptApplication db now actor target fields input draw
  | .reject => return db

def Decision.status : Decision → ApplicationStatus
  | .accept => .accepted
  | .reject => .rejected

def Decision.action : Decision → CommandAction
  | .accept => .applicationAccept
  | .reject => .applicationReject

/-- `review`. -/
def review (db : Db) (now : Int) (input : ReviewApplication) (draw : Draw) : Except ApiError Db := do
  ensure (1 ≤ input.expectedVersion ∧ 1 ≤ input.expectedIdentityVersion ∧
    0 ≤ input.expectedProfileVersion ∧ validNote (trim input.note)) bad
  let actor ← phase5Actor db input.clerkUserId
  let target ← phase5Target db actor input.targetUserId
  ensure (actor.status = .active ∧ actor.role.canGrant .b2b ∧ actor.id ≠ input.targetUserId) forbidden
  let old ← replay db input.operationId input.requestHash
  match old with
  | some _ => return db
  | none => do
    let application ← fetch (db.papers.application target.id) versionConflict
    ensure (target.role = .customer ∧ (target.status = .onboarding ∨ target.status = .active) ∧
      application.status = .pending ∧ application.version = input.expectedVersion ∧
      target.version = input.expectedIdentityVersion ∧
      db.papers.profileVersion target.id .profile = input.expectedProfileVersion) versionConflict
    let db ← decideApplication db now actor target application.fields input draw
    let papers ← (db.papers.updateApplication target.id fun a => { a with
      status := input.decision.status
      reviewerId := some actor.id
      reviewNote := some (trim input.note)
      reviewedAt := some now }).mapError .ofDb
    let db ← commitCommand { db with papers := papers } ⟨input.operationId, actor.id, target.id,
      input.decision.action, input.requestHash, application.version + 1⟩
    db.commit

/-! ## Names -/

/-- `names::Rename`. -/
structure Rename where
  clerkUserId : String
  operationId : Uuid
  targetUserId : Uuid
  expectedVersion : Int
  firstName : String
  lastName : String
  requestHash : Digest
  deriving DecidableEq

/-- A name of at most 60 characters. -/
def validName (name : String) : Bool := name.length ≤ 60 && !name.toList.any isControl

/-- `rename`. -/
def rename (db : Db) (now : Int) (input : Rename) (draw : Draw) : Except ApiError Db := do
  let first := trim input.firstName
  let last := trim input.lastName
  ensure (1 ≤ input.expectedVersion ∧ validName first ∧ validName last ∧ ¬ (first = "" ∧ last = "")) bad
  let (actor, target) ← profileScope db input.clerkUserId input.targetUserId .staff true
  ensure (actor.role = .b2b ∧ actor.id ≠ input.targetUserId) forbidden
  let old ← replay db input.operationId input.requestHash
  match old with
  | some _ => return db
  | none => do
    ensure (target.version = input.expectedVersion) versionConflict
    let d ← (db.directory.updateUser target.id fun u => { u with
      firstName := some first
      lastName := some last }).mapError .ofDb
    let db ← commandEffects { db with directory := d } now input.operationId actor target
      .renameSubUser input.requestHash (some (first, last)) draw
    commitCommand db
      ⟨input.operationId, actor.id, target.id, .renameSubUser, input.requestHash, target.version + 1⟩

end ShaponTravels.Identity
