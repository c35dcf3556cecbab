import ShaponTravels.Booking.Signals
import ShaponTravels.Booking.Ticketing

/-!
# Nonissuance — the two-person release of a ticket hold

`wallet/nonissuance.rs` and the deferred triggers of migration 0033.
-/

namespace ShaponTravels.Wallet.Nonissuance

open Library
open Booking

/-! ## Actors -/

/-- `portal::Actor`. -/
structure Actor where
  externalUserId : String
  role : String
  owner : Option Owner
  display : Value
  deriving DecidableEq

def roles : List String :=
  ["superadmin", "admin", "staff_account", "staff_support", "b2b", "b2b_sub", "customer"]

/-- `Actor::staff_read`. -/
def Actor.staffRead (a : Actor) : Bool :=
  a.role ∈ ["superadmin", "admin", "staff_account", "staff_support"]

/-- The roles that settle money. -/
def financeRoles : List String := ["superadmin", "admin", "staff_account"]

/-- `Actor::finance`. -/
def Actor.finance (a : Actor) : Except ApiError Unit := ensure (a.role ∈ financeRoles) forbidden

def isAsciiWord (c : Char) : Bool :=
  isAsciiDigit c || ('a' ≤ c && c ≤ 'z') || ('A' ≤ c && c ≤ 'Z') || c = '_'

/-- `Actor::validate`. -/
def Actor.validate (a : Actor) : Except ApiError Unit := do
  ensure (startsWith a.externalUserId "user_" ∧ a.externalUserId.utf8ByteSize ≤ 128 ∧
    a.externalUserId.toList.all isAsciiWord ∧ a.role ∈ roles ∧ a.display.isObject ∧
    a.display.text.utf8ByteSize ≤ 4096) forbidden
  match a.owner with
  | some owner =>
    let _ ← owner.validate
    ensure (¬ (a.staffRead ∨
      (a.role = "customer" ∧ (owner.ownerType ≠ "user" ∨ owner.ownerKey ≠ a.externalUserId)) ∨
        (a.role ∈ ["b2b", "b2b_sub"] ∧ owner.ownerType ≠ "agency"))) forbidden
  | none => ensure a.staffRead forbidden

/-! ## Commands -/

/-- The commands that write. -/
inductive Command where
  | propose (id issueId : Uuid) (snapshotHash : String) (evidence : Confirmation)
  | decide (proposalId : Uuid) (decision evidenceSha256 remarks : String)

def confirmationValue (site : Site) (e : Confirmation) : Value :=
  .object [("confirmation_reference", .str e.confirmationReference),
    ("evidence_url", .str e.evidenceUrl), ("sha256", .str e.sha256),
    ("confirmed_at", .str (site.instantText e.confirmedAt)),
    ("supplier_confirmed_no_ticket_and_processing_complete",
      .bool e.supplierConfirmedNoTicketAndProcessingComplete)]

def Command.toValue (site : Site) : Command → Value
  | .propose id issueId snapshotHash evidence =>
    .object [("action", .str "propose"), ("id", .str id.text), ("issue_id", .str issueId.text),
      ("snapshot_hash", .str snapshotHash), ("evidence", confirmationValue site evidence)]
  | .decide proposalId decision evidenceSha256 remarks =>
    .object [("action", .str "decide"), ("proposal_id", .str proposalId.text),
      ("decision", .str decision), ("evidence_sha256", .str evidenceSha256),
      ("remarks", .str remarks)]

/-- `request_hash` of `handle`. -/
def requestHash (site : Site) (a : Actor) (c : Command) : Digest :=
  site.pf.digest
    (Value.object [("actor", .str a.externalUserId), ("command", c.toValue site)]).text

/-- `nonissuance::hash`: the hexadecimal text of the digest of a value. -/
def hash (pf : Platform) (v : Value) : String :=
  String.ofList (hexDigits 64 (pf.digest v.text).toNat)

/-- `nonissuance::sha256`. -/
def isSha256 (s : String) : Bool :=
  s.utf8ByteSize = 64 && s.toList.all fun c => isAsciiDigit c || ('a' ≤ c && c ≤ 'f')

/-- `nonissuance::validate`. -/
def validate (site : Site) (e : Confirmation) (completed now : Int) : Except ApiError Unit := do
  let wrong := invalid "INVALID_SUPPLIER_CONFIRMATION"
  let url ← fetch (site.parseUrl e.evidenceUrl) wrong
  ensure (e.supplierConfirmedNoTicketAndProcessingComplete ∧ isSha256 e.sha256 ∧
    3 ≤ (trim e.confirmationReference).utf8ByteSize ∧
    (trim e.confirmationReference).utf8ByteSize ≤ 160 ∧ e.evidenceUrl.utf8ByteSize ≤ 2000 ∧
    url.scheme = "https" ∧ url.host.isSome ∧ url.username = "" ∧ url.password.isNone ∧
    completed ≤ e.confirmedAt ∧ e.confirmedAt ≤ now ∧ now - seconds 86400 ≤ e.confirmedAt) wrong

/-! ## The evidence snapshot -/

section Rows

variable (site : Site)

def timestamp (instant : Int) : Value := .str (site.timestampText instant)

def verificationRow (v : TicketVerification) : Value :=
  .object [("issue_id", .str v.issueId.text), ("public_response", v.publicResponse),
    ("client_id", .str v.clientId.text), ("created_at", timestamp site v.createdAt)]

def observationRow (o : PnrObservation) : Value :=
  .object [("id", .ofInt o.id), ("booking_id", .str o.bookingId.text), ("response", o.response),
    ("verified", .bool o.verified), ("requested_at", timestamp site o.requestedAt),
    ("recorded_at", timestamp site o.recordedAt)]

def reportRow (r : TicketReport) : Value :=
  .object [("id", .str r.id.text), ("booking_id", .str r.bookingId.text),
    ("client_id", .str r.clientId.text), ("original_response", r.originalResponse),
    ("public_response", r.publicResponse.getD .null), ("verified", .bool r.verified),
    ("requested_at", timestamp site r.requestedAt), ("received_at", timestamp site r.receivedAt)]

def reconciliationRow (r : TicketReconciliation) : Value :=
  .object [("id", .str r.id.text), ("issue_id", .str r.issueId.text),
    ("client_id", .str r.clientId.text), ("actor_kind", .str r.actorKind),
    ("actor_id", .str r.actorId.text), ("pnr_response", r.pnrResponse.getD .null),
    ("report_response", r.reportResponse.getD .null),
    ("public_response", r.publicResponse.getD .null), ("result", .str r.result.text),
    ("error_code", .ofOption r.errorCode), ("requested_at", timestamp site r.requestedAt),
    ("completed_at", timestamp site r.completedAt)]

/-- `passengers` of the facts. -/
def passengers (request : Value) : Value :=
  match (request.field "passengerInfoes").asArray? with
  | some (p :: ps) => .arr ((p :: ps).map fun p =>
      .object [("name", p.field "nameElement"), ("type", p.field "passengerType")])
  | _ => .null

def verificationOf (db : Db) (issue : Uuid) : Option TicketVerification :=
  lookup TicketVerification.issueId issue db.verifications

/-- `facts` of `inspect`; the lists are in the order of their identifiers, which is the order the
snapshot hash is taken in. -/
def facts (db : Db) (b : FlightBooking) (issue : Uuid) : Value :=
  .object [("passengers", passengers b.request), ("bookingState", .str b.state.text),
    ("executionMode", .str b.executionMode.text),
    ("verification", ((verificationOf db issue).map (verificationRow site)).getD .null),
    ("pnr", .arr ((db.observations.filter fun o => o.bookingId = b.id).map (observationRow site))),
    ("reports", .arr (((db.reports.filter fun r => r.bookingId = b.id).mergeSort
      fun r r' => r.id.toNat ≤ r'.id.toNat).map (reportRow site))),
    ("reconciliations", .arr (((db.reconciliations.filter fun r => r.issueId = issue).mergeSort
      fun r r' => r.id.toNat ≤ r'.id.toNat).map (reconciliationRow site))),
    ("cancelled", .bool (db.cancellations.any fun c => c.bookingId = b.id))]

/-- The owner of the account of an operation. -/
def operationOwner (db : WalletDb) (o : WalletOperation) : Option WalletOwner :=
  (lookup WalletAccount.id o.walletAccountId db.accounts).bind fun a =>
    lookup WalletOwner.id a.ownerId db.owners

def operationValue (db : WalletDb) (o : WalletOperation) : Value :=
  let owner := operationOwner db o
  .object [("id", .str o.id.text), ("state", .str (match o.state with
      | .reserved => "reserved"
      | .reconciliation => "reconciliation"
      | .captured => "captured"
      | .released => "released")),
    ("amountMinor", .str (toString o.amount)), ("currency", .str o.currency.text),
    ("ownerType", .ofOption (owner.map fun w => match w.ownerType with
      | .agency => "agency"
      | .user => "user")),
    ("ownerKey", .ofOption (owner.map WalletOwner.ownerKey))]

end Rows

/-- What stands in the way of a proposal. -/
def blockedReason (t : TicketIssue) (b : FlightBooking) (facts : Value) (cancelled : Bool)
    (verification : Option TicketVerification) (o : Option WalletOperation) : Option String :=
  if t.state = .pending then some "TICKET_WORKER_UNRESOLVED"
  else if t.state ≠ .outcomeUnknown ∨ verification.isSome ∨ ticketSignal facts ∨
      t.originalResponse.any fun v => ticketSignal v || isSuccess v then
    some "POSITIVE_TICKET_EVIDENCE"
  else if b.state ≠ .held ∨ b.executionMode ≠ .hold ∨ cancelled then some "BOOKING_REVIEW_REQUIRED"
  else if ¬ t.walletRequired ∨ ¬ o.any (·.state.isOpen) then some "NO_RELEASABLE_TICKET_HOLD"
  else if payloadFields.any fun f => (nonEmptyText (t.request.field f.1)).isNone then
    some "TICKET_REFERENCE_UNAVAILABLE"
  else none

/-- What `inspect` tells the rest of `handle`. -/
structure View where
  operation : Option WalletOperation
  snapshotHash : String
  blocked : Option String

/-- `nonissuance::inspect`. -/
def inspect (site : Site) (db : Db) (t : TicketIssue) : Except ApiError View := do
  let b ← fetch (lookup FlightBooking.id t.bookingId db.bookings) noRow
  let o := (Ticket.issueOperation db.wallet t.id).filter fun o =>
    (operationOwner db.wallet o).isSome
  let facts := facts site db b t.id
  return {
    operation := o
    snapshotHash := hash site.pf (.object [("issueId", .str t.id.text), ("state", .str t.state.text),
      ("completedAt", .str (site.instantText t.updatedAt)), ("request", t.request),
      ("original", t.originalResponse.getD .null), ("facts", facts),
      ("operation", (o.map (operationValue db.wallet)).getD .null)])
    blocked := blockedReason t b facts (db.cancellations.any fun c => c.bookingId = b.id)
      (verificationOf db t.id) o }

/-- `nonissuance::releasable`. -/
def releasable (view : View) (expected : String) : Except ApiError Unit := do
  ensure (view.blocked = none) (conflict "NONISSUANCE_NOT_ELIGIBLE")
  ensure (view.snapshotHash = expected) (conflict "NONISSUANCE_EVIDENCE_CHANGED")

/-! ## The triggers of migration 0033 -/

/-- `ticket_nonissuance_positive_observations` of a booking. -/
def positiveObservation (pf : Platform) (db : Db) (booking : Uuid) : Bool :=
  (db.observations.any fun o => o.bookingId = booking && ticketPositiveSignal pf (some o.response)) ||
    (db.reports.any fun r => r.bookingId = booking &&
      (r.verified || ticketPositiveSignal pf (some r.originalResponse))) ||
    db.reconciliations.any fun r =>
      (lookup TicketIssue.id r.issueId db.issues).any (fun t => t.bookingId = booking) &&
        (r.result = .verified || ticketPositiveSignal pf r.pnrResponse ||
          ticketPositiveSignal pf r.reportResponse)

/-- The issue shows no ticket anywhere. -/
def noTicketEvidence (pf : Platform) (db : Db) (t : TicketIssue) : Bool :=
  t.state = .outcomeUnknown && (verificationOf db t.id).isNone &&
    !ticketPositiveSignal pf t.originalResponse && !t.originalResponse.any isSuccess &&
    !positiveObservation pf db t.bookingId

/-- `ticket_nonissuance_integrity` of a decision; the trigger on a ledger entry asks the same of the
approved decision of its issue. -/
def integrity (pf : Platform) (db : Db) (d : Decision) : Bool :=
  match lookup Proposal.id d.proposalId db.proposals with
  | none => false
  | some p =>
    p.issueId = d.issueId && p.requestedBy ≠ d.reviewedBy &&
      (!d.approved ||
        match lookup TicketIssue.id p.issueId db.issues,
            lookup WalletOperation.id p.operationId db.wallet.operations with
        | some t, some w =>
          t.walletRequired && noTicketEvidence pf db t && w.subjectKind = .ticketIssue &&
            w.subjectId = t.id && w.bookingId = some t.bookingId && w.state = .released &&
            db.wallet.entries.any fun l => l.operationId = some w.id &&
              l.transactionType = .holdRelease && l.amount = w.amount &&
              l.createdByUserId = d.reviewedBy
        | _, _ => false)

/-! ## Handling a command -/

/-- `portal::audit`. -/
def audit (db : Db) (a : Actor) (action : String) (id : Uuid) (metadata : Value) : Db :=
  db.audit "system" (some a.externalUserId) ("wallet." ++ action) "wallet" id.text
    (.object [("actorRole", .str a.role), ("details", metadata)])

/-- `Command::Propose`. -/
def propose (site : Site) (db : Db) (a : Actor) (id issue : Uuid) (snapshotHash : String)
    (evidence : Confirmation) (now : Int) : Except ApiError Db := do
  let t ← fetch (lookup TicketIssue.id issue db.issues) missing
  let request := requestHash site a (.propose id issue snapshotHash evidence)
  match lookup Proposal.id id db.proposals with
  | some old =>
    ensure (old.requestHash = request) (conflict "IDEMPOTENCY_KEY_REUSED")
    return db
  | none =>
    let view ← inspect site db t
    releasable view snapshotHash
    validate site evidence t.updatedAt now
    let o ← fetch view.operation missing
    ensure (isSha256 snapshotHash)
      (.ofDb (.violated "ticket_nonissuance_proposals_snapshot_hash_check"))
    let proposed : Db := { db with
      proposals := db.proposals ++
        [⟨id, issue, o.id, a.externalUserId, a.role, evidence, snapshotHash, request, now⟩] }
    return audit proposed a "nonissuance.proposed" id
      (.object [("issueId", .str issue.text), ("operationId", .str o.id.text),
        ("snapshotHash", .str snapshotHash)])

/-- The approval of a proposal: everything is checked again before the hold is released. -/
def approve (site : Site) (db : Db) (a : Actor) (t : TicketIssue) (p : Proposal)
    (evidenceSha256 : String) (draw : Draw) : Except ApiError Db := do
  let view ← inspect site db t
  releasable view p.snapshotHash
  validate site p.evidence t.updatedAt draw.now
  ensure (p.evidence.sha256 = evidenceSha256) (conflict "NONISSUANCE_CONFIRMATION_MISMATCH")
  let (_, wallet) ← settle site.pf db.subjects db.wallet p.operationId false a.externalUserId a.role
    draw
  return { db with wallet := wallet }

/-- `btrim`, which takes off spaces only. -/
def btrim (s : String) : List Char :=
  ((s.toList.dropWhile (· = ' ')).reverse.dropWhile (· = ' ')).reverse

/-- The constraints of `ticket_nonissuance_decisions` on a new row. -/
def insertDecision (db : Db) (d : Decision) : Except DbError Db := do
  ensure (3 ≤ (btrim d.remarks).length ∧ (btrim d.remarks).length ≤ 1000)
    (.violated "ticket_nonissuance_decisions_remarks_check")
  ensure (∀ d' ∈ db.decisions, d'.proposalId ≠ d.proposalId)
    (.unique "ticket_nonissuance_decisions_pkey")
  ensure (d.approved → ∀ d' ∈ db.decisions, ¬ (d'.approved ∧ d'.issueId = d.issueId))
    (.unique "ticket_nonissuance_release_once")
  return { db with decisions := db.decisions ++ [d] }

/-- `Command::Decide`. -/
def decide (site : Site) (db : Db) (a : Actor) (proposal : Uuid)
    (decision evidenceSha256 remarks : String) (draw : Draw) : Except ApiError Db := do
  let p ← fetch (lookup Proposal.id proposal db.proposals) missing
  let t ← fetch (lookup TicketIssue.id p.issueId db.issues) missing
  let request := requestHash site a (.decide proposal decision evidenceSha256 remarks)
  ensure (decision ∈ ["approved", "rejected"] ∧ 3 ≤ (trim remarks).utf8ByteSize ∧
    (trim remarks).utf8ByteSize ≤ 1000) (invalid "INVALID_NONISSUANCE_DECISION")
  ensure (p.requestedBy ≠ a.externalUserId) (conflict "WALLET_SELF_APPROVAL_FORBIDDEN")
  match lookup Decision.proposalId proposal db.decisions with
  | some old =>
    ensure (old.requestHash = request) (conflict "NONISSUANCE_ALREADY_REVIEWED")
    return db
  | none =>
    let settled ←
      if decision = "approved" then approve site db a t p evidenceSha256 draw else pure db
    let d : Decision := ⟨proposal, t.id, decision = "approved", a.externalUserId, a.role, remarks,
      request, draw.now⟩
    let decided ← (insertDecision settled d).mapError .ofDb
    ensure (integrity site.pf decided d) (.ofDb (.raised "NONISSUANCE_RELEASE_MISMATCH"))
    return audit decided a "nonissuance.decided" proposal
      (.object [("issueId", .str t.id.text), ("operationId", .str p.operationId.text),
        ("decision", .str decision)])

/-- The transaction of `nonissuance::handle`. -/
def handle (site : Site) (db : Db) (a : Actor) (c : Command) (draw : Draw) :
    Except ApiError Db := do
  a.validate
  a.finance
  match c with
  | .propose id issue snapshotHash evidence =>
    propose site db a id issue snapshotHash evidence draw.now
  | .decide proposal decision evidenceSha256 remarks =>
    decide site db a proposal decision evidenceSha256 remarks draw

end ShaponTravels.Wallet.Nonissuance
