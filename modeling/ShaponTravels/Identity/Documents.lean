import ShaponTravels.Identity.Onboarding

/-!
# Documents — private assets and the slots that show them

`documents.rs` with migration 0044: an upload is prepared, started and finished, and a finished
upload of a profile fills its slot.  A slot is never deleted; its version counts its writes.
-/

namespace ShaponTravels.Identity

open Library

/-- `documents::Prepare`. -/
structure PrepareDocument where
  clerkUserId : String
  operationId : Uuid
  targetUserId : Uuid
  purpose : Purpose
  slot : Slot
  expectedVersion : Int
  expectedIdentityVersion : Int
  format : String
  byteSize : Int
  contentHash : String
  deriving DecidableEq

/-- `AssetRequest`. -/
structure AssetRequest where
  clerkUserId : String
  assetId : Uuid
  deriving DecidableEq

/-- `documents::Outcome`. -/
inductive DocumentOutcome where
  | ready
  | unknown
  | abandoned
  deriving DecidableEq, Repr

def DocumentOutcome.state : DocumentOutcome → AssetState
  | .ready => .ready
  | .unknown => .unknown
  | .abandoned => .abandoned

/-- `documents::Finish`. -/
structure FinishDocument where
  clerkUserId : String
  assetId : Uuid
  outcome : DocumentOutcome
  publicId : String
  format : String
  byteSize : Int
  contentHash : String
  deriving DecidableEq

/-- `documents::Remove`. -/
structure RemoveDocument where
  clerkUserId : String
  operationId : Uuid
  targetUserId : Uuid
  slot : Slot
  expectedVersion : Int
  expectedIdentityVersion : Int
  deriving DecidableEq

/-! ## Scope -/

/-- The branch of `scope` for the documents of an application. -/
def applicationScope (db : Db) (subject : String) (id : Uuid) : Except ApiError (User × User) := do
  let actor ← phase5Actor db subject
  let target ← phase5Target db actor id
  ensure (actor.id = id ∧ actor.role = .customer) forbidden
  ensure ((db.papers.application id).all fun a => a.status = .rejected) versionConflict
  return (actor, target)

/-- The owner of the agency of a sub-user, who keeps its logo. -/
def logoOwner (db : Db) (sub : Uuid) : Except ApiError User := do
  let m ← fetch (db.directory.membership sub) forbidden
  let a ← fetch ((db.directory.agency m.agencyId).filter fun a => a.status ≠ .archived) forbidden
  let owner ← user db a.ownerUserId
  guardSubject db owner.subject
  ensure (¬ owner.status.terminal) forbidden
  return owner

/-- `scope`, for a write. -/
def documentScope (db : Db) (subject : String) (id : Uuid) (purpose : Purpose) (slot : Slot) :
    Except ApiError (User × User) := do
  ensure (purpose = .application ↔ slot = .attachment) bad
  match purpose with
  | .application => applicationScope db subject id
  | .profile => do
    let (actor, target) ← profileScope db subject id .profile true
    ensure target.role.requiresAgency forbidden
    if slot = .logo ∧ target.role = .b2bSub then do
      let owner ← logoOwner db target.id
      return (actor, owner)
    else return (actor, target)

/-- The row of a slot. -/
def Papers.slot (p : Papers) (user : Uuid) (slot : Slot) : Option SlotRow :=
  lookup (fun s => (s.userId, s.slot)) (user, slot) p.slots

/-- `version`. -/
def documentVersion (p : Papers) (user : Uuid) (purpose : Purpose) (slot : Slot) : Int :=
  match purpose with
  | .application => p.applicationVersion user
  | .profile => ((p.slot user slot).map SlotRow.version).getD 0

/-- `asset`. -/
def assetRow (db : Db) (id : Uuid) : Except ApiError Asset :=
  fetch (lookup Asset.id id db.papers.assets) forbidden

/-- `asset_scope`. -/
def assetScope (db : Db) (subject : String) (a : Asset) : Except ApiError (User × User) := do
  let (actor, target) ← documentScope db subject a.userId a.purpose a.slot
  ensure (a.actorId = actor.id) forbidden
  return (actor, target)

/-! ## Statements -/

/-- `guard_identity_asset`: the transitions of an asset. -/
def AssetState.follows (old new : AssetState) : Bool :=
  match old, new with
  | .prepared, .uploading | .prepared, .abandoned | .uploading, .ready | .uploading, .unknown
  | .uploading, .abandoned | .unknown, .ready | .unknown, .abandoned => true
  | _, _ => false

/-- `UPDATE portal_identity_assets SET state = $2 WHERE id = $1`. -/
def Papers.setAsset (p : Papers) (a : Asset) (state : AssetState) : Except DbError Papers := do
  ensure (a.state.follows state) (.raised "immutable asset or invalid transition")
  return { p with assets := modify Asset.id a.id (fun a => { a with state := state }) p.assets }

/-- `check_identity_document_owner`. -/
def Papers.ownsSlot (p : Papers) (user : Uuid) (slot : Slot) (asset : Option Uuid) : Bool :=
  asset.all fun id => p.assets.any fun a => a.id = id ∧ a.userId = user ∧ a.slot = slot ∧
    a.purpose = .profile ∧ a.state = .ready

/-- The upsert of a slot, with `guard_identity_document_slot`. -/
def Papers.setSlot (p : Papers) (user : Uuid) (slot : Slot) (asset : Option Uuid) :
    Except DbError Papers := do
  ensure (p.ownsSlot user slot asset) (.raised "invalid document owner")
  match p.slot user slot with
  | none => return { p with slots := p.slots ++ [⟨user, slot, asset, 1⟩] }
  | some old => do
    let version ← bigint (old.version + 1)
    return { p with
      slots := modify (fun s => (s.userId, s.slot)) (user, slot)
        (fun s => { s with assetId := asset, version := version }) p.slots }

/-! ## Uploads -/

/-- The formats an asset can have. -/
def formats : List String := ["pdf", "png", "jpg", "webp", "svg"]

/-- The checks of `prepare` on its request. -/
def PrepareDocument.validate (i : PrepareDocument) : Except ApiError Unit :=
  ensure (0 ≤ i.expectedVersion ∧ 1 ≤ i.expectedIdentityVersion ∧ 1 ≤ i.byteSize ∧
    i.byteSize ≤ 5242880 ∧ i.format ∈ formats ∧ i.contentHash.utf8ByteSize = 64 ∧
    i.contentHash.toList.all (fun c => c.isDigit || ('a' ≤ c && c ≤ 'f')) ∧
    ¬ (i.slot = .logo ∧ (i.format = "pdf" ∨ 524288 < i.byteSize)) ∧
    ¬ (i.format = "svg" ∧ i.slot ≠ .logo)) bad

/-- What the documents take from their platform: the hashes of the requests and the text of an id. -/
structure Archive where
  prepareHash : PrepareDocument → Digest
  removeHash : RemoveDocument → Digest
  publicId : Uuid → String

/-- `INSERT INTO portal_identity_assets`. -/
def Papers.insertAsset (p : Papers) (a : Asset) : Except DbError Papers := do
  ensure (∀ a' ∈ p.assets, a'.id ≠ a.id) (.unique "portal_identity_assets_pkey")
  ensure (∀ a' ∈ p.assets, a'.publicId ≠ a.publicId) (.unique "portal_identity_assets_public_id_key")
  return { p with assets := p.assets ++ [a] }

/-- `prepare`. -/
def prepareDocument (archive : Archive) (db : Db) (input : PrepareDocument) : Except ApiError Db := do
  input.validate
  let hash := archive.prepareHash input
  let (actor, target) ← documentScope db input.clerkUserId input.targetUserId input.purpose input.slot
  match lookup Asset.id input.operationId db.papers.assets with
  | some old => do
    ensure (old.requestHash = hash) versionConflict
    return db
  | none => do
    ensure (target.version = input.expectedIdentityVersion ∧
      documentVersion db.papers target.id input.purpose input.slot = input.expectedVersion)
      versionConflict
    let papers ← (db.papers.insertAsset {
      id := input.operationId
      actorId := actor.id
      userId := target.id
      purpose := input.purpose
      slot := input.slot
      requestHash := hash
      expectedVersion := input.expectedVersion
      identityVersion := input.expectedIdentityVersion
      publicId := archive.publicId input.operationId
      format := input.format
      byteSize := input.byteSize
      contentHash := input.contentHash
      state := .prepared }).mapError .ofDb
    return { db with papers := papers }

/-- The versions an asset was prepared with are still the current ones. -/
def Asset.current (a : Asset) (p : Papers) (target : User) (user : Uuid) : Bool :=
  target.version = a.identityVersion && documentVersion p user a.purpose a.slot = a.expectedVersion

/-- `start`. -/
def startDocument (db : Db) (input : AssetRequest) : Except ApiError Db := do
  let a ← assetRow db input.assetId
  let (_, target) ← assetScope db input.clerkUserId a
  ensure (a.state = .prepared ∧ a.current db.papers target target.id) versionConflict
  let papers ← (db.papers.setAsset a .uploading).mapError .ofDb
  return { db with papers := papers }

/-- The writes of `finish`. -/
def Papers.publish (p : Papers) (a : Asset) (state : AssetState) : Except DbError Papers := do
  let p ← p.setAsset a state
  if state = .ready ∧ a.purpose = .profile then p.setSlot a.userId a.slot (some a.id) else return p

/-- `finish`. -/
def finishDocument (db : Db) (input : FinishDocument) : Except ApiError Db := do
  let a ← assetRow db input.assetId
  let (_, target) ← assetScope db input.clerkUserId a
  ensure (input.publicId = a.publicId ∧ input.format = a.format ∧ input.byteSize = a.byteSize ∧
    input.contentHash = a.contentHash) bad
  if a.state = .ready ∧ input.outcome = .ready then return db
  else do
    ensure (a.state = .uploading ∨ a.state = .unknown) versionConflict
    let next := input.outcome.state
    if next = a.state then return db
    else do
      ensure (next = .ready → a.current db.papers target a.userId) versionConflict
      let papers ← (db.papers.publish a next).mapError .ofDb
      return { db with papers := papers }

/-! ## Removal -/

/-- `remove`. -/
def removeDocument (archive : Archive) (db : Db) (input : RemoveDocument) : Except ApiError Db := do
  ensure (0 ≤ input.expectedVersion ∧ 1 ≤ input.expectedIdentityVersion) bad
  let hash := archive.removeHash input
  let (actor, target) ← documentScope db input.clerkUserId input.targetUserId .profile input.slot
  let old ← replay db input.operationId hash
  let version := documentVersion db.papers target.id .profile input.slot
  match old with
  | some _ => return db
  | none => do
    ensure (target.version = input.expectedIdentityVersion ∧ version = input.expectedVersion)
      versionConflict
    let papers ← (db.papers.setSlot target.id input.slot none).mapError .ofDb
    commitCommand { db with papers := papers }
      ⟨input.operationId, actor.id, target.id, .documentRemove, hash, version + 1⟩

end ShaponTravels.Identity
