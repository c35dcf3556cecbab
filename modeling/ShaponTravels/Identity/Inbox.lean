import ShaponTravels.Identity.Agencies

/-!
# Inbox — events of the provider

`inbox.rs` with migration 0041, and the retry of a dead letter in `recovery.rs`: an event is stored
once, a deletion is contained at once, and a worker reads the provider between the transaction that
claims an event and the one that finishes it.
-/

namespace ShaponTravels.Identity

open Library

/-- `inbox::Event`. -/
structure ProviderEvent where
  eventId : String
  payloadHash : Digest
  subject : String
  kind : EventKind
  occurredAt : Int
  deriving DecidableEq

def invalidEvent : ApiError := ⟨.badRequest, "IDENTITY_INVALID_EVENT"⟩

/-! ## Containment -/

/-- The suspension of a user that is not suspended, nor on its way out. -/
def Directory.suspendUser (d : Directory) (id : Uuid) : Except DbError Directory :=
  match (d.user id).filter fun u => u.status ≠ .suspended ∧ ¬ u.status.terminal with
  | none => return d
  | some _ => d.updateUser id fun u => { u with status := .suspended }

/-- The suspension of the active agency of a user, and of what its sub-users were authorized with. -/
def Directory.suspendOwned (d : Directory) (owner : Uuid) : Except DbError Directory :=
  match (d.ownedAgency owner).filter fun a => a.status = .active with
  | none => return d
  | some a => do
    let d ← d.setAgency a.id .suspended
    d.invalidateMembers a.id

/-- The subjects of a user and of the members of its agency. -/
def Directory.household (d : Directory) (id : Uuid) : List String :=
  (d.users.filter fun u => u.id = id ∨ d.memberships.any fun m => m.userId = u.id ∧
    d.agencies.any fun a => a.id = m.agencyId ∧ a.ownerUserId = id).map User.subject

/-- `contain`. -/
def contain (db : Db) (subject : String) : Except ApiError Db :=
  match db.directory.bySubject subject with
  | none => return db
  | some u => do
    let d ← (db.directory.suspendUser u.id).mapError .ofDb
    let d ← (d.suspendOwned u.id).mapError .ofDb
    revokeClients { db with directory := d } (d.household u.id)

/-! ## Events -/

/-- The upsert of a deleted subject. -/
def Inbox.markDeleted (i : Inbox) (e : ProviderEvent) : Inbox :=
  if i.states.any fun s => s.subject = e.subject then
    { i with
      states := modify ProviderState.subject e.subject (fun s => { s with
        deleted := true
        observedAt := max s.observedAt e.occurredAt
        eventId := e.eventId }) i.states }
  else { i with states := i.states ++ [⟨e.subject, true, e.occurredAt, e.eventId⟩] }

/-- `INSERT INTO portal_identity_inbox`. -/
def Inbox.insert (i : Inbox) (now : Int) (e : ProviderEvent) : Inbox :=
  { i with
    rows := i.rows ++ [{
      sequence := i.sequence
      eventId := e.eventId
      payloadHash := e.payloadHash
      subject := e.subject
      kind := e.kind
      occurredAt := e.occurredAt
      state := .pending
      attempts := 0
      fence := 0
      nextAttemptAt := now
      errorCode := none }]
    sequence := i.sequence + 1 }

/-- The checks of `ingest`; events carry milliseconds. -/
def ProviderEvent.validate (e : ProviderEvent) (now : Int) : Except ApiError Unit := do
  validateSubject e.subject
  ensure (e.eventId ≠ "" ∧ e.eventId.utf8ByteSize ≤ 128 ∧
    e.eventId.toList.all (fun c => c.isAlphanum || c = '_' || c = '-') ∧ 0 < e.occurredAt ∧
    e.occurredAt ≤ now / 1000 + 300000) invalidEvent

/-- `ingest`. -/
def ingest (db : Db) (now : Int) (e : ProviderEvent) : Except ApiError Db := do
  e.validate now
  match lookup InboxRow.eventId e.eventId db.inbox.rows with
  | some old => do
    ensure (old.payloadHash = e.payloadHash ∧ old.subject = e.subject ∧ old.kind = e.kind ∧
      old.occurredAt = e.occurredAt) (conflict "IDENTITY_EVENT_COLLISION")
    return db
  | none =>
    let inbox := db.inbox.insert now e
    if e.kind = .deleted then contain { db with inbox := inbox.markDeleted e } e.subject
    else return { db with inbox := inbox }

/-! ## Processing -/

def Inbox.update (i : Inbox) (id : String) (f : InboxRow → InboxRow) : Inbox :=
  { i with rows := modify InboxRow.eventId id f i.rows }

/-- The row is being processed under a lease that ran out. -/
def InboxRow.expired (r : InboxRow) (now : Int) : Bool :=
  match r.state with
  | .processing l => l.leaseUntil ≤ now
  | _ => false

/-- The state an event that was not processed goes back to. -/
def InboxRow.retried (r : InboxRow) : InboxState := if 5 ≤ r.attempts then .deadLetter else .retry

/-- The first statement of `process_one`. -/
def Inbox.recover (i : Inbox) (now : Int) : Inbox :=
  let expired := ((i.rows.filter fun r => r.expired now).take 25).map InboxRow.eventId
  { i with
    rows := i.rows.map fun r => if r.eventId ∈ expired then { r with
      state := r.retried
      errorCode := some "IDENTITY_EVENT_LEASE_EXPIRED"
      nextAttemptAt := now + 30000000 } else r }

/-- What a worker holds of an event between the two transactions of `process_one`. -/
structure InboxClaim where
  eventId : String
  subject : String
  kind : EventKind
  occurredAt : Int
  token : Uuid
  fence : Int
  terminal : Bool
  deriving DecidableEq

/-- The event `process_one` selects. -/
def Inbox.due (i : Inbox) (now : Int) : Option InboxRow :=
  i.rows.find? fun r => (r.state = .pending ∨ r.state = .retry) ∧ r.attempts < 5 ∧
    r.nextAttemptAt ≤ now

/-- The first transaction of `process_one`. -/
def claimEvent (db : Db) (now : Int) (token : Uuid) : Db × Option InboxClaim :=
  let inbox := db.inbox.recover now
  match inbox.due now with
  | none => ({ db with inbox := inbox }, none)
  | some r =>
    let fence := r.fence + 1
    let taken := inbox.update r.eventId fun r => { r with
      state := .processing ⟨token, now + 30000000⟩
      attempts := r.attempts + 1
      fence := fence
      errorCode := none }
    ({ db with inbox := taken },
      some ⟨r.eventId, r.subject, r.kind, r.occurredAt, token, fence, inbox.isDeleted r.subject⟩)

/-- What the provider said of a subject, or that it was not asked. -/
abbrev Observed := Option (Except ApiError ProviderUser)

/-- The provider is not asked about a deletion, nor about a subject that is deleted; its answer has
to be about the subject. -/
def InboxClaim.observed (c : InboxClaim) (lookup : Except ApiError ProviderUser) : Observed :=
  if c.kind = .deleted ∨ c.terminal then none
  else some do
    let u ← lookup
    u.validate c.subject
    return u

/-- The claim is the current one of the event and its lease has not run out. -/
def InboxClaim.holds (c : InboxClaim) (r : InboxRow) (now : Int) : Bool :=
  r.fence = c.fence && match r.state with
  | .processing l => l.token = c.token && now < l.leaseUntil
  | _ => false

/-- The upsert of an observation. -/
def Inbox.observe (i : Inbox) (c : InboxClaim) : Inbox :=
  if i.states.any fun s => s.subject = c.subject then
    { i with
      states := modify ProviderState.subject c.subject (fun s => { s with
        observedAt := c.occurredAt
        eventId := c.eventId }) i.states }
  else { i with states := i.states ++ [⟨c.subject, false, c.occurredAt, c.eventId⟩] }

/-- The profile of a user that is not on its way out. -/
def Directory.refreshProfile (d : Directory) (subject : String) (u : ProviderUser) :
    Except DbError Directory :=
  match (d.bySubject subject).filter fun old => ¬ old.status.terminal ∧
      ¬ (old.email = u.email ∧ old.firstName = u.firstName ∧ old.lastName = u.lastName) with
  | none => return d
  | some old => d.updateUser old.id fun r => { r with
      email := u.email
      firstName := u.firstName
      lastName := u.lastName }

/-- An observation of a user, unless a newer one is stored. -/
def applyProfile (db : Db) (c : InboxClaim) (u : ProviderUser) : Except ApiError Db :=
  if db.inbox.states.any fun s => s.subject = c.subject ∧ c.occurredAt < s.observedAt then return db
  else do
    let d ← (db.directory.refreshProfile c.subject u).mapError .ofDb
    return { db with inbox := db.inbox.observe c, directory := d }

/-- The errors that say the provider no longer has the user. -/
def gone (e : ApiError) : Bool :=
  e.code = "IDENTITY_PROVIDER_DENIED" || e.code = "IDENTITY_PROVIDER_NOT_FOUND"

/-- What an observation changes, and whether the event is to be tried again. -/
def applyObserved (db : Db) (c : InboxClaim) : Observed → Except ApiError (Db × Bool)
  | none => return (db, false)
  | some (.ok u) => do
    let db ← applyProfile db c u
    return (db, false)
  | some (.error e) =>
    if gone e then do
      let db ← contain db c.subject
      return (db, false)
    else return (db, true)

/-- The last statement of `process_one`. -/
def Inbox.close (i : Inbox) (now : Int) (id : String) (retry : Bool) : Inbox :=
  i.update id fun r => { r with
    state := if retry then r.retried else .completed
    errorCode := if retry then some "IDENTITY_PROVIDER_UNAVAILABLE" else none
    nextAttemptAt := now + 30000000 }

/-- The second transaction of `process_one`. -/
def applyEvent (db : Db) (now : Int) (c : InboxClaim) (lookup : Except ApiError ProviderUser) :
    Except ApiError Db := do
  let r ← fetch (Library.lookup InboxRow.eventId c.eventId db.inbox.rows) (.ofDb .noRow)
  ensure (c.holds r now) (conflict "IDENTITY_EFFECT_CLAIM_STALE")
  let observed := if db.inbox.isDeleted c.subject then none else c.observed lookup
  let (db, retry) ← applyObserved db c observed
  return { db with inbox := db.inbox.close now c.eventId retry }

/-- The retry of a dead letter by a superadmin, `recovery::command`; the check of the superadmin is
a transaction of its own and left out. -/
def retryEvent (db : Db) (now : Int) (id : String) (fence : Int) : Except ApiError Db := do
  let _ ← fetch ((Library.lookup InboxRow.eventId id db.inbox.rows).filter fun r =>
    r.fence = fence ∧ r.state = .deadLetter) (conflict "IDENTITY_EFFECT_CLAIM_STALE")
  return { db with
    inbox := db.inbox.update id fun r => { r with
      state := .retry
      attempts := 0
      nextAttemptAt := now
      errorCode := none } }

end ShaponTravels.Identity
