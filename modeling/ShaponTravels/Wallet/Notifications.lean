import Mathlib.Data.List.Sort
import ShaponTravels.Wallet.Workflows

/-!
# Notifications — the deliveries of a wallet request's notices

`wallet/notifications.rs` with the tables of migration 0032.  A worker's command recovers the claims that
went stale and then does its own work, in one transaction; a retry of the finance staff is a transaction
of its own.
-/

namespace ShaponTravels.Wallet.Notifications

open Library
open Nonissuance (Actor)
open Workflows (RequestKind RequestStatus)

/-! ## Tables -/

/-- What a retry reads of `wallet_requests`. -/
structure Request where
  id : Uuid
  kind : RequestKind
  status : RequestStatus
  deriving DecidableEq

/-- `wallet_notifications.state`. -/
inductive EventState where
  | pending
  | preparing
  | prepared
  | suppressed
  | sending
  | sent
  | failed
  | unknown
  deriving DecidableEq, Repr

/-- `wallet_notifications`. -/
structure Event where
  id : Uuid
  requestId : Uuid
  event : String
  channel : String
  eventKey : String
  state : EventState
  attempts : Nat
  claimToken : Option Uuid
  claimedAt : Option Int
  completedAt : Option Int
  errorCode : Option String
  preparationHash : Option Digest
  nextAttemptAt : Int
  createdAt : Int
  deriving DecidableEq

/-- `notifications::Content`. -/
structure Content where
  subject : Option String
  html : Option String
  text : String
  deriving DecidableEq

/-- `wallet_notification_deliveries.state`. -/
inductive DeliveryState where
  | pending
  | sending
  | sent
  | failed
  | unknown
  | suppressed
  deriving DecidableEq, Repr

/-- `wallet_notification_deliveries`. -/
structure Delivery where
  id : Uuid
  notificationId : Uuid
  recipientKey : String
  recipient : Option String
  audience : String
  content : Content
  state : DeliveryState
  generation : Nat
  attempts : Nat
  generationAttempts : Nat
  claimToken : Option Uuid
  claimedAt : Option Int
  completedAt : Option Int
  nextAttemptAt : Int
  errorCode : Option String
  providerMessageId : Option String
  createdAt : Int
  deriving DecidableEq

/-- `wallet_notification_attempts.outcome`. -/
inductive Outcome where
  | sent
  | failed
  | unknown
  deriving DecidableEq, Repr

/-- `wallet_notification_attempts`. -/
structure Attempt where
  claimToken : Uuid
  deliveryId : Uuid
  attempt : Nat
  generation : Nat
  startedAt : Int
  completedAt : Option Int
  outcome : Option Outcome
  errorCode : Option String
  providerMessageId : Option String
  deriving DecidableEq

/-- `wallet_notification_actions`. -/
structure Action where
  id : Uuid
  actorId : String
  requestHash : Digest
  result : Value
  deriving DecidableEq

structure Db where
  requests : List Request
  events : List Event
  deliveries : List Delivery
  attempts : List Attempt
  actions : List Action

/-- What a transaction draws: the readings of the clock, new identifiers, the rows that
`SKIP LOCKED` passes over, and the rows that a query without an order comes to first. -/
structure Draw where
  clock : Nat → Int
  fresh : Nat → Uuid
  locked : Uuid → Bool
  first : Uuid → Bool

def Draw.now (draw : Draw) : Int := draw.clock 0

/-! ## Commands -/

/-- `notifications::Recipient`. -/
structure Recipient where
  key : String
  address : Option String
  audience : String
  template : String
  suppression : Option String
  deriving DecidableEq

/-- `notifications::Command`. -/
inductive Command where
  | claimEvent (id : Option Uuid)
  | prepare (id claimToken : Uuid) (templates : List (String × Content)) (recipients : List Recipient)
  | failEvent (id claimToken : Uuid) (errorCode : String)
  | claimDelivery (id : Option Uuid)
  | complete (id claimToken : Uuid) (outcome : String) (errorCode providerMessageId : Option String)

/-- What a command answers with. -/
inductive Reply where
  | event (row : Option Event)
  | prepared
  | failed
  | delivery (row : Option (Delivery × String))
  | recorded (state : Outcome)

/-- `notifications::code`. -/
def code (value : String) : Except ApiError Unit :=
  ensure (value ≠ "" ∧ value.utf8ByteSize ≤ 100 ∧
    value.toList.all fun c => ('A' ≤ c && c ≤ 'Z') || isAsciiDigit c || c = '_')
    (invalid "INVALID_NOTIFICATION_ERROR")

def claimStale : ApiError := conflict "NOTIFICATION_CLAIM_STALE"

/-- An INTEGER column plus one. -/
def incremented (n : Nat) : Except ApiError Nat := do
  ensure (n < 2147483647) (.ofDb .outOfRange)
  return n + 1

/-- `ORDER BY created_at,id`. -/
def older {α : Type} (createdAt : α → Int) (id : α → Uuid) (a b : α) : Prop :=
  createdAt a < createdAt b ∨ createdAt a = createdAt b ∧ id a ≤ id b

instance {α : Type} (createdAt : α → Int) (id : α → Uuid) : DecidableRel (older createdAt id) :=
  fun _ _ => inferInstanceAs (Decidable (_ ∨ _ ∧ _))

/-- Ten minutes, after which a claim is stale. -/
def staleAfter : Int := 600000000

/-- Five minutes, after which a failure is tried again. -/
def retryAfter : Int := 300000000

namespace Db

/-! ## Recovery -/

/-- An expansion that was claimed too long ago. -/
def staleEvent (now : Int) (e : Event) : Bool :=
  e.state = .preparing && e.claimedAt.any fun at_ => at_ < now - staleAfter

/-- A delivery that was claimed too long ago. -/
def staleDelivery (draw : Draw) (d : Delivery) : Bool :=
  (d.state = .sending && d.claimedAt.any fun at_ => at_ < draw.now - staleAfter) && !draw.locked d.id

/-- The row of a delivery whose claim is given up. -/
def abandoned (draw : Draw) (d : Delivery) : Delivery :=
  if staleDelivery draw d then
    { d with
      state := .unknown
      errorCode := some "DELIVERY_OUTCOME_UNKNOWN"
      completedAt := some draw.now }
  else d

/-- The record of an attempt whose claim is given up. -/
def unfinished (draw : Draw) (tokens : List Uuid) (a : Attempt) : Attempt :=
  if a.claimToken ∈ tokens ∧ a.outcome = none then
    { a with
      outcome := some .unknown
      errorCode := some "DELIVERY_OUTCOME_UNKNOWN"
      completedAt := some draw.now }
  else a

/-- The tokens of the claims that are given up. -/
def staleTokens (db : Db) (draw : Draw) : List Uuid :=
  (db.deliveries.filter (staleDelivery draw)).filterMap (·.claimToken)

/-- `recover`: an expansion starts over, the outcome of a delivery is unknown. -/
def recover (db : Db) (draw : Draw) : Db :=
  { db with
    events := db.events.map fun e =>
      if staleEvent draw.now e then { e with state := .pending, claimToken := none } else e
    deliveries := db.deliveries.map (abandoned draw)
    attempts := db.attempts.map (unfinished draw (db.staleTokens draw)) }

/-! ## Expansion -/

def updateEvent (db : Db) (id : Uuid) (f : Event → Event) : Db :=
  { db with events := modify Event.id id f db.events }

/-- The expansions that `claim_event` may take. -/
def claimableEvent (draw : Draw) (id : Option Uuid) (e : Event) : Bool :=
  (e.state = .pending || (e.state = .failed && decide (e.attempts < 3))) &&
    decide (e.nextAttemptAt ≤ draw.now) && (id.isNone || id = some e.id) && !draw.locked e.id

def claimEvent (db : Db) (draw : Draw) (id : Option Uuid) : Except ApiError (Db × Reply) := do
  let rows := (db.events.filter (claimableEvent draw id)).insertionSort (older Event.createdAt Event.id)
  match rows.head? with
  | none => return (db, .event none)
  | some e => do
    let attempts ← incremented e.attempts
    let claimed := { e with
      state := .preparing
      claimToken := some (draw.fresh 0)
      claimedAt := some draw.now
      attempts := attempts }
    let _ ← fetch (lookup Request.id e.requestId db.requests) missing
    return (db.updateEvent e.id fun _ => claimed, .event (some claimed))

/-- The checks of a content. -/
def checkContent (channel : String) (c : Content) : Except ApiError Unit := do
  ensure (trim c.text ≠ "" ∧ c.text.utf8ByteSize ≤ 16000 ∧
    ¬ (c.html.any fun s => decide (100000 < s.utf8ByteSize)) ∧
    ¬ (c.subject.any fun s => decide (s = "" ∨ 255 < s.utf8ByteSize ∨ '\r' ∈ s.toList ∨ '\n' ∈ s.toList)))
    (invalid "INVALID_NOTIFICATION_CONTENT")
  ensure (¬ (channel = "email" ∧ (c.subject = none ∨ c.html = none)))
    (invalid "INVALID_NOTIFICATION_CONTENT")
  ensure (¬ (channel = "sms" ∧ (2000 < c.text.utf8ByteSize ∨ c.subject.isSome ∨ c.html.isSome)))
    (invalid "INVALID_NOTIFICATION_CONTENT")

/-- An address that the channel can send to. -/
def validAddress (channel address : String) : Bool :=
  if channel = "email" then
    decide (address.utf8ByteSize ≤ 320) && decide ('@' ∈ address.toList) &&
      !address.toList.any fun c => isWhitespace c || isControl c || decide (c ∈ [',', ';', '<', '>'])
  else
    decide (8 ≤ address.utf8ByteSize) && decide (address.utf8ByteSize ≤ 15) &&
      !startsWith address "0" && address.toList.all isAsciiDigit

/-- The checks of a recipient's address. -/
def checkAddress (channel : String) (r : Recipient) : Except ApiError Unit :=
  match r.address with
  | some address =>
    ensure (validAddress channel address ∧ r.suppression = none)
      (invalid "INVALID_NOTIFICATION_RECIPIENT")
  | none => do
    let suppression ← fetch r.suppression (invalid "INVALID_NOTIFICATION_PLAN")
    code suppression

/-- The delivery of a recipient; without an address it is suppressed. -/
def newDelivery (draw : Draw) (notification : Event) (content : Content) (r : Recipient) (i : Nat) :
    Delivery :=
  { id := draw.fresh i, notificationId := notification.id, recipientKey := r.key
    recipient := r.address, audience := r.audience, content := content
    state := if r.address.isNone then .suppressed else .pending
    generation := 0, attempts := 0, generationAttempts := 0
    claimToken := none, claimedAt := none
    completedAt := if r.address.isNone then some (draw.clock (i + 1)) else none
    nextAttemptAt := draw.clock (i + 1), errorCode := r.suppression, providerMessageId := none
    createdAt := draw.clock (i + 1) }

/-- The body of the loop over the recipients. -/
def addDelivery (draw : Draw) (notification : Event) (templates : List (String × Content))
    (s : List Delivery × List String) (entry : Recipient × Nat) :
    Except ApiError (List Delivery × List String) := do
  let (r, i) := entry
  ensure (r.key ≠ "" ∧ r.key.utf8ByteSize ≤ 200 ∧ r.key ∉ s.2 ∧
    r.audience ∈ ["requester", "reviewer", "partner", "admin"]) (invalid "INVALID_NOTIFICATION_PLAN")
  let template ← fetch (templates.find? fun t => t.1 = r.template) (invalid "INVALID_NOTIFICATION_PLAN")
  checkContent notification.channel template.2
  checkAddress notification.channel r
  let row := newDelivery draw notification template.2 r i
  ensure (∀ d ∈ s.1, d.id ≠ row.id) (.ofDb (.unique "wallet_notification_deliveries_pkey"))
  ensure (∀ d ∈ s.1, ¬ (d.notificationId = notification.id ∧ d.recipientKey = r.key))
    (.ofDb (.unique "wallet_notification_deliveries_notification_id_recipient_key_key"))
  return (s.1 ++ [row], s.2 ++ [r.key])

def planValue (templates : List (String × Content)) (recipients : List Recipient) : Value :=
  .arr [.object (templates.map fun t => (t.1, .object [("subject", .ofOption t.2.subject),
      ("html", .ofOption t.2.html), ("text", .str t.2.text)])),
    .arr (recipients.map fun r => .object [("key", .str r.key), ("address", .ofOption r.address),
      ("audience", .str r.audience), ("template", .str r.template),
      ("suppression", .ofOption r.suppression)])]

def prepare (pf : Platform) (db : Db) (draw : Draw) (id token : Uuid)
    (templates : List (String × Content)) (recipients : List Recipient) :
    Except ApiError (Db × Reply) := do
  let e ← fetch (lookup Event.id id db.events) missing
  let hash := pf.digest (planValue templates recipients).text
  if e.state = .prepared ∧ e.claimToken = some token ∧ e.preparationHash = some hash then
    return (db, .prepared)
  else do
    ensure (e.state = .preparing ∧ e.claimToken = some token) claimStale
    ensure (recipients ≠ [] ∧ recipients.length ≤ 2000 ∧ templates ≠ [] ∧ templates.length ≤ 8)
      (invalid "INVALID_NOTIFICATION_PLAN")
    let (deliveries, _) ← recipients.zipIdx.foldlM (addDelivery draw e templates) (db.deliveries, [])
    let prepared := { db with deliveries := deliveries }
    return (prepared.updateEvent id fun e => { e with
      state := .prepared
      preparationHash := some hash
      completedAt := some draw.now
      errorCode := none }, .prepared)

def failEvent (db : Db) (draw : Draw) (id token : Uuid) (errorCode : String) :
    Except ApiError (Db × Reply) := do
  code errorCode
  ensure (db.events.any fun e => e.id = id ∧ e.claimToken = some token ∧ e.state = .preparing) claimStale
  return (db.updateEvent id fun e => { e with
    state := .failed
    completedAt := some draw.now
    errorCode := some errorCode
    nextAttemptAt := draw.now + retryAfter }, .failed)

/-! ## Deliveries -/

def updateDelivery (db : Db) (id : Uuid) (f : Delivery → Delivery) : Db :=
  { db with deliveries := modify Delivery.id id f db.deliveries }

/-- The deliveries that `claim_delivery` may take. -/
def claimableDelivery (draw : Draw) (id : Option Uuid) (d : Delivery) : Bool :=
  decide (d.audience ≠ "archive") &&
    (d.state = .pending || (d.state = .failed && decide (d.generationAttempts < 3))) &&
    decide (d.nextAttemptAt ≤ draw.now) && (id.isNone || id = some d.id) && !draw.locked d.id

/-- The row of a claimed delivery. -/
def claimed (draw : Draw) (attempts generationAttempts : Nat) (d : Delivery) : Delivery :=
  { d with
    state := .sending
    claimToken := some (draw.fresh 0)
    claimedAt := some draw.now
    completedAt := none
    attempts := attempts
    generationAttempts := generationAttempts }

/-- The record of a claim. -/
def started (draw : Draw) (attempts : Nat) (d : Delivery) : Attempt :=
  { claimToken := draw.fresh 0, deliveryId := d.id, attempt := attempts, generation := d.generation
    startedAt := draw.now, completedAt := none, outcome := none, errorCode := none
    providerMessageId := none }

/-- The writes of a claim. -/
def taken (db : Db) (draw : Draw) (attempts generationAttempts : Nat) (d : Delivery) : Db :=
  { db.updateDelivery d.id (claimed draw attempts generationAttempts) with
    attempts := db.attempts ++ [started draw attempts d] }

def claimDelivery (db : Db) (draw : Draw) (id : Option Uuid) : Except ApiError (Db × Reply) := do
  let rows := (db.deliveries.filter (claimableDelivery draw id)).insertionSort
    (older Delivery.createdAt Delivery.id)
  match rows.head? with
  | none => return (db, .delivery none)
  | some d => do
    let attempts ← incremented d.attempts
    let generationAttempts ← incremented d.generationAttempts
    ensure (∀ a ∈ db.attempts, a.claimToken ≠ draw.fresh 0)
      (.ofDb (.unique "wallet_notification_attempts_pkey"))
    ensure (∀ a ∈ db.attempts, ¬ (a.deliveryId = d.id ∧ a.attempt = attempts))
      (.ofDb (.unique "wallet_notification_attempts_delivery_id_attempt_key"))
    let notification ← fetch (lookup Event.id d.notificationId db.events) (.ofDb .noRow)
    return (db.taken draw attempts generationAttempts d,
      .delivery (some (claimed draw attempts generationAttempts d, notification.channel)))

end Db

def Outcome.text : Outcome → String
  | .sent => "sent"
  | .failed => "failed"
  | .unknown => "unknown"

def Outcome.ofText? (s : String) : Option Outcome :=
  [Outcome.sent, .failed, .unknown].find? fun o => o.text = s

/-- The state an outcome leaves a delivery in. -/
def Outcome.state : Outcome → DeliveryState
  | .sent => .sent
  | .failed => .failed
  | .unknown => .unknown

namespace Db

/-- The update of the attempt of a claim, which the trigger of the table refuses once the attempt has an
outcome. -/
def recordAttempt (attempts : List Attempt) (token : Uuid) (f : Attempt → Attempt) :
    Except ApiError (List Attempt) := do
  ensure (∀ a ∈ attempts, a.claimToken = token → a.outcome = none)
    (.ofDb (.raised "wallet delivery attempt is immutable"))
  return modify Attempt.claimToken token f attempts

/-- The row of a delivery that was attempted. -/
def completed (draw : Draw) (o : Outcome) (errorCode providerMessageId : Option String) (d : Delivery) :
    Delivery :=
  { d with
    state := o.state
    errorCode := errorCode
    providerMessageId := providerMessageId
    completedAt := some draw.now
    nextAttemptAt := draw.now + retryAfter }

/-- The record of an attempt that ended. -/
def ended (draw : Draw) (o : Outcome) (errorCode providerMessageId : Option String) (a : Attempt) :
    Attempt :=
  { a with
    outcome := some o
    errorCode := errorCode
    providerMessageId := providerMessageId
    completedAt := some draw.now }

/-- The checks of an outcome before the delivery is read. -/
def checkOutcome (outcome : String) (errorCode providerMessageId : Option String) :
    Except ApiError Outcome := do
  let o ← fetch (Outcome.ofText? outcome) (invalid "INVALID_NOTIFICATION_OUTCOME")
  ensure (¬ providerMessageId.any fun s => decide (500 < s.utf8ByteSize) || s.toList.any isControl)
    (invalid "INVALID_NOTIFICATION_OUTCOME")
  let _ ← errorCode.mapM code
  ensure (o = .sent ↔ errorCode = none) (invalid "INVALID_NOTIFICATION_OUTCOME")
  return o

def complete (db : Db) (draw : Draw) (id token : Uuid) (outcome : String)
    (errorCode providerMessageId : Option String) : Except ApiError (Db × Reply) := do
  let o ← checkOutcome outcome errorCode providerMessageId
  let d ← fetch (lookup Delivery.id id db.deliveries) missing
  ensure (d.claimToken = some token) claimStale
  if d.state ≠ .sending then do
    ensure (db.attempts.any fun a => a.claimToken = token ∧ a.outcome = some o ∧
      a.errorCode = errorCode ∧ a.providerMessageId = providerMessageId) claimStale
    return (db, .recorded o)
  else do
    let done := db.updateDelivery id (completed draw o errorCode providerMessageId)
    let attempts ← recordAttempt db.attempts token (ended draw o errorCode providerMessageId)
    return ({ done with attempts := attempts }, .recorded o)

/-- What a command does once the stale claims are recovered. -/
def command (pf : Platform) (db : Db) (command : Command) (draw : Draw) :
    Except ApiError (Db × Reply) :=
  match command with
  | .claimEvent id => db.claimEvent draw id
  | .prepare id token templates recipients => db.prepare pf draw id token templates recipients
  | .failEvent id token errorCode => db.failEvent draw id token errorCode
  | .claimDelivery id => db.claimDelivery draw id
  | .complete id token outcome errorCode providerMessageId =>
    db.complete draw id token outcome errorCode providerMessageId

/-- `run_worker`. -/
def worker (pf : Platform) (db : Db) (command : Command) (draw : Draw) :
    Except ApiError (Db × Reply) :=
  (db.recover draw).command pf command draw

end Db

/-! ## Retries -/

/-- `notifications::Retry`. -/
structure Retry where
  requestId : Uuid
  operationId : Uuid
  deliveryId : Option Uuid
  eventId : Option Uuid
  expectedAttempts : Option Int
  expectedGeneration : Option Int
  reason : String
  acknowledgeUnknown : Bool
  deriving DecidableEq

def Retry.toValue (r : Retry) : Value :=
  .object [("request_id", .str r.requestId.text), ("operation_id", .str r.operationId.text),
    ("delivery_id", .ofOption (r.deliveryId.map Uuid.text)),
    ("event_id", .ofOption (r.eventId.map Uuid.text)),
    ("expected_attempts", (r.expectedAttempts.map Value.ofInt).getD .null),
    ("expected_generation", (r.expectedGeneration.map Value.ofInt).getD .null),
    ("reason", .str r.reason), ("acknowledge_unknown", .bool r.acknowledgeUnknown)]

def statusChanged : ApiError := conflict "NOTIFICATION_STATUS_CHANGED"

def queuedResult : Value := .object [("queued", .bool true), ("delivered", .bool false)]

/-- An expansion that starts over. -/
def Event.restarted (now : Int) (e : Event) : Event :=
  { e with state := .pending, attempts := 0, nextAttemptAt := now, errorCode := none }

/-- The text of the event that a request's decision was announced with. -/
def Request.decisionEvent (r : Request) : String := "deposit_" ++ r.status.text

/-- A delivery that is to be attempted again. -/
def Delivery.requeued (now : Int) (generation : Nat) (d : Delivery) : Delivery :=
  { d with
    state := .pending
    generation := generation
    generationAttempts := 0
    claimToken := none
    claimedAt := none
    completedAt := none
    errorCode := none
    providerMessageId := none
    nextAttemptAt := now }

namespace Db

/-- The insertion of a retry's operation. -/
def act (db : Db) (actor : Actor) (input : Retry) (hash : Digest) (result : Value) : Db :=
  { db with actions := db.actions ++ [⟨input.operationId, actor.externalUserId, hash, result⟩] }

/-- A retry of an expansion. -/
def retryEvent (db : Db) (draw : Draw) (input : Retry) (id : Uuid) : Except ApiError Db := do
  ensure (db.events.any fun e => e.id = id ∧ e.requestId = input.requestId ∧ e.state = .failed ∧
    e.preparationHash = none) statusChanged
  return db.updateEvent id (Event.restarted draw.now)

/-- The expansion of a request's decision by email, the latest one. -/
def decisionParent (db : Db) (r : Request) : Option Event :=
  ((db.events.filter fun e => e.requestId = r.id ∧ e.event = r.decisionEvent ∧
    e.channel = "email").insertionSort (older Event.createdAt Event.id)).getLast?

/-- The delivery to the requester of an expansion. -/
def requesterDelivery (db : Db) (draw : Draw) (parent : Uuid) : Option Uuid :=
  let rows := db.deliveries.filter fun d => d.notificationId = parent ∧ d.audience = "requester"
  ((rows.find? fun d => draw.first d.id).or rows.head?).map (·.id)

/-- The delivery that a retry without one resends: that of the decision. -/
def resend (db : Db) (draw : Draw) (r : Request) : Except ApiError (Db × Option Uuid) := do
  ensure (r.status = .approved ∨ r.status = .rejected) (conflict "DECISION_PENDING")
  let parent ← fetch (db.decisionParent r) missing
  let db := if parent.state = .failed then db.updateEvent parent.id (Event.restarted draw.now) else db
  ensure (parent.state = .pending ∨ parent.state = .failed ∨ parent.state = .preparing ∨
    parent.state = .prepared) (conflict "NOTIFICATION_RETRY_UNAVAILABLE")
  return (db, db.requesterDelivery draw parent.id)

/-- A new expansion for a requester whose contact was suppressed. -/
def resolveContact (db : Db) (draw : Draw) (input : Retry) (r : Request) : Except ApiError Db := do
  let row : Event :=
    { id := draw.fresh 0, requestId := r.id, event := r.decisionEvent, channel := "email"
      eventKey := r.decisionEvent ++ ":" ++ r.id.text ++ ":email:resolve:" ++ input.operationId.text
      state := .pending, attempts := 0, claimToken := none, claimedAt := none, completedAt := none
      errorCode := none, preparationHash := none, nextAttemptAt := draw.now, createdAt := draw.now }
  ensure (∀ e ∈ db.events, e.id ≠ row.id) (.ofDb (.unique "wallet_notifications_pkey"))
  ensure (∀ e ∈ db.events, e.eventKey ≠ row.eventKey)
    (.ofDb (.unique "wallet_notifications_event_key_key"))
  return { db with events := db.events ++ [row] }

/-- The checks of a retry of a delivery, and its new generation unless it is waiting already. -/
def requeue (db : Db) (draw : Draw) (input : Retry) (d : Delivery) : Except ApiError (Db × Bool) := do
  ensure (input.deliveryId.isNone ∨ (input.expectedAttempts = some (d.attempts : Int) ∧
    input.expectedGeneration = some (d.generation : Int))) statusChanged
  ensure (¬ (d.state = .unknown ∧ ¬ input.acknowledgeUnknown))
    (conflict "NOTIFICATION_UNKNOWN_REQUIRES_REVIEW")
  ensure (d.state ≠ .sending) (conflict "NOTIFICATION_DELIVERY_IN_PROGRESS")
  ensure (¬ (d.state = .sent ∧ input.deliveryId.isSome)) (conflict "NOTIFICATION_ALREADY_SENT")
  if d.state ≠ .pending then do
    let generation ← incremented d.generation
    return (db.updateDelivery d.id (Delivery.requeued draw.now generation), true)
  else return (db, false)

/-- The delivery of a request. -/
def ofRequest (db : Db) (id : Uuid) (r : Request) : Option Delivery :=
  db.deliveries.find? fun d => d.id = id ∧
    db.events.any fun e => e.id = d.notificationId ∧ e.requestId = r.id

/-- The delivery that a retry is about, if there is one yet. -/
def target (db : Db) (draw : Draw) (input : Retry) (r : Request) : Except ApiError (Db × Option Uuid) :=
  match input.deliveryId with
  | some id => .ok (db, some id)
  | none => db.resend draw r

def retryResult (queued : Bool) : Value :=
  .object [("queued", .bool true), ("newAttempt", .bool queued), ("delivered", .bool false)]

/-- What `retry` does about a delivery. -/
def retryTarget (db : Db) (draw : Draw) (input : Retry) (r : Request) (id : Uuid) :
    Except ApiError (Db × Value) := do
  let d ← fetch (db.ofRequest id r) missing
  if d.state = .suppressed then do
    ensure (input.deliveryId = none) (conflict "NOTIFICATION_RECIPIENT_UNAVAILABLE")
    let db ← db.resolveContact draw input r
    return (db, queuedResult)
  else do
    let (db, queued) ← db.requeue draw input d
    return (db, retryResult queued)

/-- What `retry` does when it is not about an expansion, with the result it saves. -/
def retryDelivery (db : Db) (draw : Draw) (input : Retry) (r : Request) :
    Except ApiError (Db × Value) := do
  let (db, id) ← db.target draw input r
  match id with
  | none => return (db, retryResult true)
  | some id => db.retryTarget draw input r id

/-- `notifications::retry`. -/
def retry (pf : Platform) (db : Db) (actor : Actor) (input : Retry) (draw : Draw) :
    Except ApiError (Db × Value) := do
  actor.finance
  ensure (3 ≤ (trim input.reason).utf8ByteSize ∧ input.reason.utf8ByteSize ≤ 1000)
    (invalid "NOTIFICATION_RETRY_REASON_REQUIRED")
  let hash := pf.digest input.toValue.text
  match lookup Action.id input.operationId db.actions with
  | some old => do
    ensure (old.actorId = actor.externalUserId ∧ old.requestHash = hash)
      (conflict "IDEMPOTENCY_KEY_REUSED")
    return (db, old.result)
  | none => do
    let r ← fetch (lookup Request.id input.requestId db.requests) missing
    ensure (r.kind = .deposit) missing
    ensure (¬ (input.eventId.isSome ∧ input.deliveryId.isSome)) (invalid "INVALID_NOTIFICATION_RETRY")
    match input.eventId with
    | some event => do
      let db ← db.retryEvent draw input event
      return (db.act actor input hash queuedResult, queuedResult)
    | none => do
      let (db, result) ← db.retryDelivery draw input r
      return (db.act actor input hash result, result)

/-! ## The system -/

/-- A notice that a wallet request enqueues; a key that is there already is passed over. -/
def enqueue (draw : Draw) (request : Uuid) (event : String) (rows : List Event)
    (entry : String × Nat) : Except ApiError (List Event) := do
  let key := event ++ ":" ++ request.text ++ ":" ++ entry.1
  if rows.any fun e => e.eventKey = key then return rows
  else
    ensure (∀ e ∈ rows, e.id ≠ draw.fresh entry.2) (.ofDb (.unique "wallet_notifications_pkey"))
    return rows ++ [{
      id := draw.fresh entry.2, requestId := request, event := event, channel := entry.1
      eventKey := key, state := .pending, attempts := 0, claimToken := none, claimedAt := none
      completedAt := none, errorCode := none, preparationHash := none
      nextAttemptAt := draw.clock entry.2, createdAt := draw.clock entry.2 }]

/-- A request is stored or decided, with the notices of `workflows::enqueue`. -/
def announce (db : Db) (r : Request) (event : String) (draw : Draw) : Except ApiError Db := do
  let channels := if event = "deposit_rejected" then ["email"] else ["email", "sms"]
  let events ← channels.zipIdx.foldlM (enqueue draw r.id event) db.events
  return { db with
    requests := (db.requests.filter fun r' => r'.id ≠ r.id) ++ [r]
    events := events }

end Db

/-- What reaches the tables: a worker's command, a retry, a request of a wallet. -/
inductive Input where
  | worker (command : Command)
  | retry (actor : Actor) (input : Retry)
  | announce (request : Request) (event : String)

def Db.step (pf : Platform) (db : Db) (input : Input) (draw : Draw) : Except ApiError Db :=
  match input with
  | .worker command => (db.worker pf command draw).map Prod.fst
  | .retry actor input => (db.retry pf actor input draw).map Prod.fst
  | .announce request event => db.announce request event draw

/-- The transactions that commit, in any order; before the first one nothing was delivered. -/
def machine (pf : Platform) : Machine Db (Input × Draw) where
  init db := db.deliveries = [] ∧ db.attempts = [] ∧ db.actions = []
  step db i db' := db.step pf i.1 i.2 = .ok db'

end ShaponTravels.Wallet.Notifications
