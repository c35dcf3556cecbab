import ShaponTravels.Booking.Reservation
import ShaponTravels.Wallet.Ticket

/-!
# Ticketing — issuing a held booking and proving the issue afterwards

`issue_as` and `verify_saved` of `booking/ticketing.rs`, `reconcile_owned` of
`booking/ticket_reconciliation.rs` and the row `booking/report.rs` keeps.  A request reads first
and commits later; the call in between carries what it read.
-/

namespace ShaponTravels.Booking

open Library
open Wallet (Draw)
open Wallet.Ticket (PortalIssue resolved)

/-! ## Issue requests -/

/-- The grant `issue_as` rechecks. -/
def ApiClient.mayTicket (c : ApiClient) (portal : Bool) : Bool :=
  c.active &&
    if portal then c.audience = "b2b" && "search:read" ∈ c.permissions
    else "booking" ∈ c.permissions && "ticketing" ∈ c.permissions &&
      (c.externalUserId = none || (c.apiManagementEnabled && c.tier = "enterprise"))

/-- The first issue of a client with the key, else the one of the booking. -/
def Db.existingIssue (db : Db) (client : Uuid) (key : String) (booking : Uuid) :
    Option TicketIssue :=
  (db.issues.find? fun t => t.clientId = client ∧ t.idempotencyKey = key).or
    (db.issues.find? fun t => t.clientId = client ∧ t.bookingId = booking)

/-- `ticketing::replay`, up to the reply. -/
def TicketIssue.replay (t : TicketIssue) (hash : Digest) (booking : Uuid) :
    Except ApiError TicketIssue := do
  ensure (t.bookingId = booking ∧ t.requestHash = hash) (conflict "IDEMPOTENCY_KEY_REUSED")
  return t

/-- An issue request between its reads and its transaction. -/
structure IssueCall where
  client : Uuid
  booking : Uuid
  key : String
  hash : Digest
  portal : Option PortalIssue
  supplier : String
  timeout : Int
  original : Value
  payload : Value
  passengers : Value
  quote : Quote
  deriving DecidableEq

/-- `item1.bookable` and the offer's `bookable` are true. -/
def Quote.bookable (q : Quote) : Bool :=
  q.searchOriginal.field "bookable" = .bool true &&
    (q.original.field "item1").field "bookable" = .bool true

/-- The reads of `ticketing::issue_as`. -/
def prepareIssue (site : Site) (db : Db) (m : Machine) (header : Option String) (req : PnrRequest)
    (portal : Option PortalIssue) : Except ApiError (Attempt TicketIssue IssueCall) := do
  m.require "ticketing"
  m.require "booking"
  let key ← idempotencyKey header
  ensure (¬ startsWith key "direct:") (error "RESERVED_IDEMPOTENCY_KEY")
  let hash := req.hash site.pf
  let b ← fetch (db.bookings.find? fun b => b.id = req.bookingId ∧ b.clientId = m.clientId) notFound
  let q ← db.loadQuote req.bookingId m.clientId
  ensure (req.names q b.pnr) (error "BOOKING_REFERENCE_MISMATCH")
  ensure (b.executionMode ≠ .direct) (conflict "DIRECT_ISSUE_ALREADY_RESERVED")
  match db.existingIssue m.clientId key req.bookingId with
  | some old =>
    let old ← old.replay hash req.bookingId
    return .replay old
  | none =>
    ensure (b.state = .held ∧ q.accepted ∧ q.bookable) (conflict "VERIFIED_HELD_BOOKING_REQUIRED")
    let original ← fetch b.originalResponse (conflict "VERIFIED_HELD_BOOKING_REQUIRED")
    ensure (¬ containsTicket original) (conflict "ALREADY_TICKETED")
    let payload ← fetch (supplierPayload original b.request)
      (conflict "MANUAL_RECONCILIATION_REQUIRED")
    let configured ← fetch (site.supplier b.supplierId) (error "SUPPLIER_CONFIGURATION_ERROR")
    ensure configured.heldTicketingEnabled (forbidden "SUPPLIER_TICKETING_DISABLED")
    ensure (configured.currency = ((q.original.field "item1").field "currency").asStr?)
      (error "SUPPLIER_CURRENCY_MISMATCH")
    let s ← fetch (lookup SupplierConnection.id b.supplierId db.connections) noRow
    ensure (s.ticketingEnabled ∧ s.servicingEnabled) (forbidden "SUPPLIER_TICKETING_DISABLED")
    return .proceed
      { client := m.clientId
        booking := req.bookingId
        key := key
        hash := hash
        portal := portal
        supplier := b.supplierId
        timeout := s.timeoutSeconds
        original := original
        payload := payload
        passengers := b.request.field "passengerInfoes"
        quote := q }

/-- The later of two observations: `ORDER BY requested_at DESC, id DESC`. -/
def PnrObservation.later (best : Option PnrObservation) (o : PnrObservation) : PnrObservation :=
  match best with
  | some b =>
    if b.requestedAt < o.requestedAt ∨ (b.requestedAt = o.requestedAt ∧ b.id < o.id) then o else b
  | none => o

/-- The latest verified PNR of a booking. -/
def Db.verifiedPnr (db : Db) (booking : Uuid) : Option Value :=
  (db.observations.foldl
    (fun best o => if o.bookingId = booking ∧ o.verified then some (o.later best) else best)
    none).map PnrObservation.response

/-- The row an issue request reserves. -/
def IssueCall.row (c : IssueCall) (preflight : Value) (draw : Draws) : TicketIssue where
  id := draw.id
  bookingId := c.booking
  clientId := c.client
  idempotencyKey := c.key
  requestHash := c.hash
  state := .pending
  request := c.payload
  preflight := preflight
  originalResponse := none
  publicResponse := none
  walletRequired := true
  createdAt := draw.now
  updatedAt := draw.now

/-- The job an issue leaves to its worker. -/
def IssueCall.job (c : IssueCall) (issue : Uuid) : Job where
  task := .newTicket
  row := issue
  booking := c.booking
  client := c.client
  payload := c.payload
  passengers := c.passengers
  quote := c.quote

def auditIssue (db : Db) (c : IssueCall) : Db :=
  db.audit (if c.portal.isSome then "admin" else "client")
    (some ((c.portal.map PortalIssue.actor).getD c.client.text))
    "ticket.dispatch_reserved" "booking" c.booking.text
    (.object [("clientId", .str c.client.text),
      ("portalRole", .ofOption (c.portal.map PortalIssue.role))])

/-- The deferred trigger on a written issue. -/
def checkIntegrity (db : Db) (issue : Uuid) : Except ApiError Unit :=
  ensure ((lookup TicketIssue.id issue db.issues).all (Wallet.Ticket.integrity db))
    (.ofDb (.raised "ticket wallet does not match accepted owner and payable"))

/-- The transaction of `ticketing::issue_as`. -/
def commitIssue (site : Site) (db : Db) (c : IssueCall) (draw : Draws) :
    Except ApiError (Attempt TicketIssue Job × Db) := do
  let client ← fetch (lookup ApiClient.id c.client db.clients) noRow
  ensure (client.mayTicket c.portal.isSome) (forbidden "CLIENT_TICKETING_DISABLED")
  match db.existingIssue c.client c.key c.booking with
  | some old =>
    let old ← old.replay c.hash c.booking
    return (.replay old, db)
  | none =>
    let b ← fetch (lookup FlightBooking.id c.booking db.bookings) noRow
    ensure (∀ x ∈ db.cancellations, x.bookingId ≠ c.booking)
      (conflict "CANCELLATION_ALREADY_RESERVED")
    ensure (b.state = .held ∧ b.executionMode = .hold) (conflict "VERIFIED_HELD_BOOKING_REQUIRED")
    let s ← fetch (lookup SupplierConnection.id c.supplier db.connections) noRow
    ensure (s.ticketingEnabled ∧ s.servicingEnabled) (forbidden "SUPPLIER_TICKETING_DISABLED")
    let preflight ← site.issuePreflight c.original c.payload (db.verifiedPnr c.booking) draw.now
      (c.timeout + 30)
    let inserted ← (insertIssue db (c.row preflight draw)).mapError .ofDb
    let reserved ← Wallet.Ticket.reserve site.pf inserted draw.id c.booking c.client c.portal
      draw.operation ⟨draw.entry, draw.now⟩
    checkIntegrity reserved draw.id
    return (.proceed (c.job draw.id), auditIssue reserved c)

/-- The transaction of the issue worker. -/
def saveIssue (site : Site) (db : Db) (j : Job) (reply : SupplierReply) (now : Int) :
    Except ApiError Db := do
  let original := reply.body?
  let response := original.bind fun v =>
    site.issuedResponse v j.payload j.passengers j.quote j.booking j.row
  let state := if response.isSome then IssueState.issued else .outcomeUnknown
  let saved : Db := { db with
    issues := modify TicketIssue.id j.row (fun t =>
      if t.state = .pending then
        { t with
          state := state
          originalResponse := original
          publicResponse := response
          updatedAt := now }
      else t) db.issues }
  if db.issues.any fun t => t.id = j.row ∧ t.state = .pending then
    checkIntegrity saved j.row
  else pure ()
  return saved.audit "system" none "ticket.outcome" "booking" j.booking.text
    (.object [("state", .str state.text)])

/-! ## Saved evidence -/

/-- How a check of a saved issue goes on. -/
inductive Review (κ : Type) where
  | nothing
  | finalize (issue : Uuid)
  | proceed (call : κ)

/-- A verification between its reads and its transaction. -/
structure VerifyCall where
  issue : Uuid
  client : Uuid
  booking : Uuid
  response : Value
  deriving DecidableEq

/-- The reads of `ticketing::verify_saved`. -/
def prepareVerify (site : Site) (db : Db) (m : Machine) (booking : Uuid) :
    Except ApiError (Review VerifyCall) := do
  m.require "ticketing"
  m.require "booking"
  let t ← fetch (db.issues.find? fun t => t.bookingId = booking ∧ t.clientId = m.clientId) notFound
  let b ← fetch (lookup FlightBooking.id t.bookingId db.bookings) notFound
  match t.state with
  | .pending => return .nothing
  | .issued => return .finalize t.id
  | .outcomeUnknown =>
    let q ← db.loadQuote booking m.clientId
    let response ← fetch (t.originalResponse.bind fun v =>
      site.issuedResponse v t.request (b.request.field "passengerInfoes") q booking t.id)
      (conflict "TICKET_EVIDENCE_INSUFFICIENT")
    return .proceed ⟨t.id, m.clientId, booking, response⟩

/-- `INSERT INTO flight_ticket_verifications … ON CONFLICT(issue_id) DO NOTHING`. -/
def insertVerification (db : Db) (v : TicketVerification) : Db :=
  if db.verifications.any fun v' => v'.issueId = v.issueId then db
  else { db with verifications := db.verifications ++ [v] }

/-- The transaction of `ticketing::verify_saved`. -/
def saveVerification (db : Db) (c : VerifyCall) (now : Int) : Db :=
  let saved := insertVerification db ⟨c.issue, c.response, c.client, now⟩
  if db.verifications.any fun v => v.issueId = c.issue then saved
  else saved.audit "client" (some c.client.text) "ticket.saved_evidence_verified" "booking"
    c.booking.text (.obj [])

/-! ## PNR and report evidence -/

/-- A ticket reconciliation between its reads and its transaction. -/
structure ReconcileCall where
  issue : Uuid
  client : Uuid
  booking : Uuid
  request : Value
  payload : Value
  originalResponse : Option Value
  quote : Quote
  actorKind : String
  actorId : Uuid
  requested : Int
  deriving DecidableEq

/-- The reads of `ticket_reconciliation::reconcile_owned`. -/
def prepareReconcile (site : Site) (db : Db) (client booking : Uuid) (actorKind : String)
    (actorId : Uuid) (now : Int) : Except ApiError (Review ReconcileCall) := do
  let t ← fetch (db.issues.find? fun t => t.bookingId = booking ∧ t.clientId = client) notFound
  let b ← fetch (lookup FlightBooking.id t.bookingId db.bookings) notFound
  if resolved db t then return .finalize t.id
  else
    ensure (¬ (t.state = .pending ∧ ¬ t.createdAt < now - seconds 300))
      (conflict "TICKET_ISSUE_IN_PROGRESS")
    let q ← db.loadQuote booking client
    ensure (b.state = .held ∧ q.accepted ∧ q.bookable) (conflict "VERIFIED_HELD_BOOKING_REQUIRED")
    let supplier ← fetch (site.supplier b.supplierId) (error "SUPPLIER_CONFIGURATION_ERROR")
    ensure (supplier.currency = ((q.original.field "item1").field "currency").asStr?)
      (conflict "SUPPLIER_CURRENCY_MISMATCH")
    let s ← fetch (lookup SupplierConnection.id b.supplierId db.connections) noRow
    ensure s.servicingEnabled (forbidden "SUPPLIER_SERVICING_DISABLED")
    ensure (payloadFields.all fun f => (nonEmptyText (t.request.field f.1)).isSome)
      (conflict "TICKET_REFERENCE_UNAVAILABLE")
    return .proceed
      { issue := t.id
        client := t.clientId
        booking := booking
        request := b.request
        payload := t.request
        originalResponse := t.originalResponse
        quote := q
        actorKind := actorKind
        actorId := actorId
        requested := now }

/-- `ticket_reconciliation::read_error`. -/
def SupplierReply.read : SupplierReply → Except String Value
  | .body v => .ok v
  | .failed .timeout | .elapsed => .error "SUPPLIER_TIMEOUT"
  | .failed _ => .error "SUPPLIER_READ_FAILED"

/-- What a reconciliation makes of the PNR and, when the PNR is ticketed, of the report. -/
structure Finding where
  code : Option String
  report : Option Value
  response : Option Value

def ReconcileCall.finding (site : Site) (c : ReconcileCall) (pnr report : SupplierReply) :
    Finding :=
  match pnr.read with
  | .error e => ⟨some e, none, none⟩
  | .ok body =>
    if pnrVerified body c.payload then
      match report.read with
      | .error e => ⟨some e, none, none⟩
      | .ok r =>
        let response :=
          (site.recover r c.request c.payload c.quote c.booking c.issue).filter fun receipt =>
            pnrTicketsMatch body receipt &&
              c.originalResponse.all fun original =>
                !isSuccess original || pnrTicketsMatch original receipt
        ⟨if response.isNone then some "TICKET_REPORT_EVIDENCE_INSUFFICIENT" else none, some r,
          response⟩
    else ⟨some "TICKET_PNR_EVIDENCE_INSUFFICIENT", none, none⟩

/-- The response that came in meanwhile is a success with other tickets. -/
def conflicting (latest : Option Value) (receipt : Value) : Bool :=
  latest.any fun v => isSuccess v && !pnrTicketsMatch v receipt

/-- The transaction of `ticket_reconciliation::reconcile_owned`. -/
def saveReconciliation (site : Site) (db : Db) (c : ReconcileCall) (pnr report : SupplierReply)
    (draw : Draws) : Except ApiError Db := do
  let t ← fetch (lookup TicketIssue.id c.issue db.issues) noRow
  let found := c.finding site pnr report
  let clash := found.response.any (conflicting t.originalResponse)
  let code := if clash then some "CONFLICTING_TICKET_EVIDENCE" else found.code
  let response := if clash ∨ resolved db t then none else found.response
  let result :=
    if resolved db t then ReconciliationResult.alreadyResolved
    else if response.isSome then .verified
    else .insufficient
  ensure (∀ r ∈ db.reconciliations, r.id ≠ draw.id)
    (.ofDb (.unique "flight_ticket_reconciliations_pkey"))
  let saved : Db := { db with
    reconciliations := db.reconciliations ++
      [{ id := draw.id
         issueId := c.issue
         clientId := c.client
         actorKind := c.actorKind
         actorId := c.actorId
         pnrResponse := pnr.body?
         reportResponse := found.report
         publicResponse := response
         result := result
         errorCode := code
         requestedAt := c.requested
         completedAt := draw.now }] }
  let saved := match response with
    | some response => insertVerification saved ⟨c.issue, response, c.client, draw.now⟩
    | none => saved
  return saved.audit c.actorKind (some c.actorId.text) "ticket.reconciled" "booking"
    c.booking.text (.object [("result", .str result.text), ("errorCode", .ofOption code)])

/-- The transaction of `report::report`: a supplier report, and its projection when it verifies. -/
def saveReport (db : Db) (client booking : Uuid) (body : Value) (response : Option Value)
    (requested : Int) (draw : Draws) : Except ApiError Db := do
  ensure (∀ r ∈ db.reports, r.id ≠ draw.id) (.ofDb (.unique "flight_ticket_reports_pkey"))
  ensure (db.bookings.any fun b => b.id = booking ∧ b.clientId = client)
    (.ofDb (.violated "flight_ticket_reports_booking_id_client_id_fkey"))
  let saved : Db := { db with
    reports := db.reports ++
      [⟨draw.id, booking, client, body, response, response.isSome, requested, draw.now⟩] }
  return saved.audit "client" (some client.text) "ticket.report" "booking" booking.text
    (.object [("verified", .bool response.isSome)])

end ShaponTravels.Booking
