import ShaponTravels.Identity.Directory

/-!
# Profiles — private records of the users

`profiles.rs` with migration 0043.  A missing field and a cleared one stay distinct; what a role must
not see is retained.
-/

namespace ShaponTravels.Identity

open Library

/-! ## Fields -/

namespace ProfileField

def shared (f : ProfileField) : Bool :=
  f ∈ [givenName, surname, gender, dateOfBirth, address, nationality, passportNo, passportExpiry,
    mobile, email]

def bank (f : ProfileField) : Bool :=
  f ∈ [bankName, accountName, accountNumber, routingNumber, swiftCode, branchCode]

def business (f : ProfileField) : Bool :=
  f ∈ [agencyName, agencyLicenseNo, agencyAddress, agencyEmail, agencyMobile, website, facebookPage]

def staff (f : ProfileField) : Bool :=
  f ∈ [designation, email, phone, alternativePhone, address, qualification]

/-- `Field::allowed`. -/
def allowed (f : ProfileField) (kind : ProfileKind) (role : Role) : Bool :=
  match kind with
  | .staff => f.staff
  | .profile => f.shared || (f.bank && (role = .customer || role.requiresAgency)) ||
      (f.business && role.requiresAgency)

end ProfileField

/-- `profiles::Change`; the fields of a patch are the entries of a map. -/
inductive ProfileChange where
  | patch (fields : List (ProfileField × Option String))
  | removeStaff
  deriving DecidableEq

/-- `profiles::Edit`. -/
structure EditProfile where
  clerkUserId : String
  targetUserId : Uuid
  kind : ProfileKind
  operationId : Uuid
  expectedVersion : Int
  expectedIdentityVersion : Int
  change : ProfileChange
  deriving DecidableEq

/-- What `url::Url::parse` finds in a text. -/
structure WebAddress where
  scheme : String
  host : Option String
  username : String
  password : Option String
  deriving DecidableEq

/-- What the profiles take from their platform: dates, addresses of the web and the hash of an edit
with its normalized fields. -/
structure ProfileForms where
  date : String → Bool
  url : String → Option WebAddress
  hash : EditProfile → Option (List (ProfileField × String)) → Digest

def invalidProfile : ApiError := ⟨.badRequest, "IDENTITY_INVALID_PROFILE"⟩

/-- The shape of an email address. -/
def emailShape (text : String) : Bool :=
  match text.toList.splitOn '@' with
  | [name, host] => name ≠ [] && host.contains '.' && host.head? ≠ some '.' &&
      host.getLast? ≠ some '.' && !text.toList.any isWhitespace
  | _ => false

/-- What a field accepts of a text that is not empty. -/
def ProfileForms.accepts (forms : ProfileForms) (f : ProfileField) (text : String) : Bool :=
  match f with
  | .gender => text ∈ ["male", "female", "other"]
  | .dateOfBirth | .passportExpiry => text.utf8ByteSize = 10 && forms.date text
  | .email | .agencyEmail => emailShape text
  | .website | .facebookPage => (forms.url text).any fun u =>
      u.scheme ∈ ["https", "http"] && u.host.isSome && u.username = "" && u.password.isNone
  | _ => true

/-- The text a field of a patch is set to. -/
def ProfileForms.field (forms : ProfileForms) (kind : ProfileKind) (role : Role)
    (entry : ProfileField × Option String) : Except ApiError (ProfileField × String) := do
  ensure (entry.1.allowed kind role) invalidProfile
  let text := trim (entry.2.getD "")
  ensure (text.length ≤ 500 ∧ ¬ text.toList.any isControl) invalidProfile
  ensure (text = "" ∨ forms.accepts entry.1 text) invalidProfile
  return (entry.1, text)

/-- `normalized`: the texts of a patch, or none for a removal. -/
def ProfileForms.normalized (forms : ProfileForms) (kind : ProfileKind) (role : Role) :
    ProfileChange → Except ApiError (Option (List (ProfileField × String)))
  | .removeStaff => do
    ensure (kind = .staff) invalidProfile
    return none
  | .patch fields => do
    ensure (fields ≠ []) invalidProfile
    let texts ← fields.mapM (forms.field kind role)
    return some texts

/-! ## Rows -/

/-- The key of a profile. -/
def Profile.key (r : Profile) : Uuid × ProfileKind := (r.userId, r.kind)

/-- The profile of a user. -/
def Papers.profile (p : Papers) (user : Uuid) (kind : ProfileKind) : Option Profile :=
  lookup Profile.key (user, kind) p.profiles

/-- The version a view shows; a missing profile has version 0. -/
def Papers.profileVersion (p : Papers) (user : Uuid) (kind : ProfileKind) : Int :=
  ((p.profile user kind).map Profile.version).getD 0

/-- The stored fields of a user. -/
def Papers.profileFields (p : Papers) (user : Uuid) (kind : ProfileKind) (f : ProfileField) :
    Option String :=
  (p.profile user kind).bind fun r => r.fields f

/-- `fields || patch`. -/
def mergeFields (fields : ProfileField → Option String) (patch : List (ProfileField × String))
    (f : ProfileField) : Option String :=
  ((lookup Prod.fst f patch).map Prod.snd).or (fields f)

/-- An upsert of a profile, with `guard_portal_profile`. -/
def Papers.upsertProfile (p : Papers) (new : Profile) (f : Profile → Profile) :
    Except DbError Papers :=
  match p.profile new.userId new.kind with
  | none => return { p with profiles := p.profiles ++ [{ new with version := 1 }] }
  | some old => do
    let version ← bigint (old.version + 1)
    return { p with
      profiles := modify Profile.key new.key (fun r => { f r with version := version }) p.profiles }

/-- The upsert of `edit`. -/
def Papers.editProfile (p : Papers) (user : Uuid) (kind : ProfileKind)
    (change : Option (List (ProfileField × String))) : Except DbError Papers :=
  match change with
  | none => p.upsertProfile ⟨user, kind, fun _ => none, false, 1⟩ fun r => { r with
      fields := fun _ => none
      present := false }
  | some patch => p.upsertProfile ⟨user, kind, mergeFields (fun _ => none) patch, true, 1⟩ fun r =>
      { r with
        fields := mergeFields r.fields patch
        present := true }

/-- `INSERT INTO portal_identity_profile_mutations`. -/
def Papers.insertMutation (p : Papers) (m : ProfileMutation) : Except DbError Papers := do
  ensure (∀ m' ∈ p.mutations, m'.operationId ≠ m.operationId)
    (.unique "portal_identity_profile_mutations_pkey")
  return { p with mutations := p.mutations ++ [m] }

/-! ## Edits -/

/-- `limit`, with what a bucket counts in its window, this request included. -/
def profileLimit (count max : Nat) : Except ApiError Unit :=
  ensure (count ≤ max) ⟨.tooManyRequests, "IDENTITY_RATE_LIMITED"⟩

/-- The edits of an actor: those of a manager in an hour, those of another in five minutes. -/
def Role.edits (role : Role) : Nat := if role.managesUsers then 40 else 20

/-- `edit`; `count` are the edits of the actor in the window, with this one. -/
def editProfile (forms : ProfileForms) (db : Db) (input : EditProfile) (count : Nat) : Except ApiError Db := do
  ensure (0 ≤ input.expectedVersion ∧ 1 ≤ input.expectedIdentityVersion) invalidProfile
  let (actor, target) ← profileScope db input.clerkUserId input.targetUserId input.kind true
  let change ← forms.normalized input.kind target.role input.change
  let hash := forms.hash input change
  let version := db.papers.profileVersion target.id input.kind
  match lookup ProfileMutation.operationId input.operationId db.papers.mutations with
  | some old => do
    ensure (old.requestHash = hash) (conflict "IDENTITY_OPERATION_REPLAY_MISMATCH")
    return db
  | none => do
    ensure (input.expectedIdentityVersion = target.version ∧ input.expectedVersion = version)
      (conflict "IDENTITY_PROFILE_VERSION_CONFLICT")
    profileLimit count actor.role.edits
    let p ← (db.papers.editProfile target.id input.kind change).mapError .ofDb
    let p ← (p.insertMutation {
      operationId := input.operationId
      actorUserId := actor.id
      targetUserId := target.id
      kind := input.kind
      requestHash := hash
      previousVersion := version
      committedVersion := version + 1 }).mapError .ofDb
    return { db with papers := p }

end ShaponTravels.Identity
