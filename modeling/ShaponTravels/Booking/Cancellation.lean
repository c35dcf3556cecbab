import ShaponTravels.Booking.Reservation
import ShaponTravels.Pricing.BigDecimal

/-!
# Cancellation — cancelling a held booking

`cancel` of `booking/cancellation.rs` and the guards of migration 0020.
-/

namespace ShaponTravels.Booking

open Library

/-- The first cancellation of a client with the key, else the one of the booking. -/
def Db.existingCancellation (db : Db) (client : Uuid) (key : String) (booking : Uuid) :
    Option Cancellation :=
  (db.cancellations.find? fun c => c.clientId = client ∧ c.idempotencyKey = key).or
    (db.cancellations.find? fun c => c.clientId = client ∧ c.bookingId = booking)

/-- `cancellation::replay`, up to the reply. -/
def Cancellation.replay (c : Cancellation) (hash : Digest) (booking : Uuid) :
    Except ApiError Cancellation := do
  ensure (c.bookingId = booking ∧ c.requestHash = hash) (conflict "IDEMPOTENCY_KEY_REUSED")
  return c

/-- A cancel request between its reads and its transaction; the PNR lookup falls in between. -/
structure CancelCall where
  client : Uuid
  booking : Uuid
  key : String
  hash : Digest
  payload : Value
  quote : Quote
  deriving DecidableEq

/-- The reads of `cancellation::cancel`. -/
def prepareCancel (site : Site) (db : Db) (m : Machine) (header : Option String)
    (req : PnrRequest) : Except ApiError (Attempt Cancellation CancelCall) := do
  m.require "booking"
  m.require "cancellation"
  let key ← idempotencyKey header
  let hash := req.hash site.pf
  let q ← db.loadQuote req.bookingId m.clientId
  let b ← fetch (db.bookings.find? fun b => b.id = req.bookingId ∧ b.clientId = m.clientId) noRow
  ensure (req.names q b.pnr) (error "BOOKING_REFERENCE_MISMATCH")
  match db.existingCancellation m.clientId key req.bookingId with
  | some old =>
    let old ← old.replay hash req.bookingId
    return .replay old
  | none =>
    let transport ← fetch (site.supplier q.supplierId) (error "SUPPLIER_CONFIGURATION_ERROR")
    ensure ((site.environment = "test" ∨
      (site.environment = "uat" ∧ transport.authorizedUatCancellation)) ∧
        transport.cancellationEnabled) (forbidden "CANCELLATION_EXECUTION_DISABLED")
    ensure (b.executionMode = .hold ∧ b.state = .held)
      (conflict "VERIFIED_HELD_BOOKING_REQUIRED")
    let original ← fetch b.originalResponse (conflict "VERIFIED_HELD_BOOKING_REQUIRED")
    ensure (¬ containsTicket original) (conflict "VERIFIED_HELD_BOOKING_REQUIRED")
    let payload ← fetch (supplierPayload original b.request)
      (conflict "MANUAL_RECONCILIATION_REQUIRED")
    ensure (∀ t ∈ db.issues, t.bookingId ≠ req.bookingId)
      (conflict "TICKET_ISSUE_ALREADY_RESERVED")
    return .proceed ⟨m.clientId, req.bookingId, key, hash, payload, q⟩

/-- A held PNR as the cancel readiness check knows it; `Created` only where it was observed. -/
def cancellableStatus (site : Site) (q : Quote) (info : Value) : Bool :=
  info.field "status" = .str "Booked" ||
    (site.environment = "uat" &&
      (site.supplier q.supplierId).any (·.authorizedUatCancellation) &&
      q.supplierId = "triplover" && info.field "status" = .str "Created")

/-- `last_reconciliation_verified AND reconciled_at > clock_timestamp() - 30 seconds`. -/
def FlightBooking.freshlyReconciled (b : FlightBooking) (now : Int) : Bool :=
  b.lastReconciliationVerified && b.reconciledAt.any fun instant => now - seconds 30 < instant

/-- The constraints of `flight_cancellations` on a new row. -/
def insertCancellation (db : Db) (c : Cancellation) : Except DbError Db := do
  ensure (1 ≤ c.idempotencyKey.length ∧ c.idempotencyKey.length ≤ 128)
    (.violated "flight_cancellations_idempotency_key_check")
  -- the trigger `exclude_issue_and_cancel`
  ensure (∀ t ∈ db.issues, t.bookingId ≠ c.bookingId) (.raised "issue already reserved")
  ensure (∀ c' ∈ db.cancellations, c'.id ≠ c.id) (.unique "flight_cancellations_pkey")
  ensure (∀ c' ∈ db.cancellations, c'.bookingId ≠ c.bookingId)
    (.unique "flight_cancellations_booking_id_key")
  ensure (∀ c' ∈ db.cancellations,
      ¬ (c'.clientId = c.clientId ∧ c'.idempotencyKey = c.idempotencyKey))
    (.unique "flight_cancellations_client_id_idempotency_key_key")
  ensure (db.bookings.any fun b => b.id = c.bookingId ∧ b.clientId = c.clientId)
    (.violated "flight_cancellations_booking_id_client_id_fkey")
  return { db with cancellations := db.cancellations ++ [c] }

/-- The row a cancel request reserves. -/
def CancelCall.row (c : CancelCall) (preflight : Value) (draw : Draws) : Cancellation where
  id := draw.id
  bookingId := c.booking
  clientId := c.client
  idempotencyKey := c.key
  requestHash := c.hash
  request := c.payload
  preflight := preflight
  state := .pending
  originalResponse := none
  publicResponse := none

/-- The job a cancellation leaves to its worker. -/
def CancelCall.job (c : CancelCall) (cancellation : Uuid) : Job where
  task := .cancel
  row := cancellation
  booking := c.booking
  client := c.client
  payload := c.payload
  passengers := .null
  quote := c.quote

/-- The transaction of `cancellation::cancel`. -/
def commitCancel (site : Site) (db : Db) (c : CancelCall) (draw : Draws) :
    Except ApiError (Attempt Cancellation Job × Db) := do
  let b ← fetch (lookup FlightBooking.id c.booking db.bookings) noRow
  match db.existingCancellation c.client c.key c.booking with
  | some old =>
    let old ← old.replay c.hash c.booking
    return (.replay old, db)
  | none =>
    let preflight ← fetch b.lastReconciliation (conflict "PNR_VERIFICATION_REQUIRED")
    let info := preflight.field "item1"
    ensure (b.state = .held ∧ b.executionMode = .hold ∧ b.freshlyReconciled draw.now ∧
      cancellableStatus site c.quote info ∧ info.field "pnr" = c.payload.field "PNR" ∧
      ¬ containsTicket preflight) (conflict "CANCEL_READINESS_NOT_VERIFIED")
    ensure (∀ t ∈ db.issues, t.bookingId ≠ c.booking) (conflict "TICKET_ISSUE_ALREADY_RESERVED")
    let s ← fetch (lookup SupplierConnection.id c.quote.supplierId db.connections) noRow
    ensure s.servicingEnabled (forbidden "SUPPLIER_SERVICING_DISABLED")
    let inserted ← (insertCancellation db (c.row preflight draw)).mapError .ofDb
    return (.proceed (c.job draw.id),
      inserted.audit "client" (some c.client.text) "cancellation.dispatch_reserved" "booking"
        c.booking.text (.obj []))

/-- The amounts that must be absent or zero in the response to a held cancellation. -/
def moneyFields : List String :=
  ["baseFare", "tax", "fees", "surcharge", "amoundPaid", "amountPaid", "amountHeld",
    "refundPenalty", "netRefund"]

/-- An amount is null, or a number equal to zero. -/
def zeroAmount (v : Value) : Bool :=
  v = .null ||
    (v.isNumber && (BigDecimal.parse v.text).any fun n => n.digits = 0)

/-- `cancellation::response`. -/
def cancelResponse (body payload : Value) (q : Quote) (booking : Uuid) : Option Value := do
  let info := body.field "item1"
  guard (isSuccess body ∧ info.field "isCancel" = .bool true ∧ ¬ containsTicket body)
  guard (codeFields.all fun (source, target) => info.field source = payload.field target)
  guard ((info.get? "pnr").all (· = payload.field "PNR"))
  guard (moneyFields.all fun field => zeroAmount (info.field field))
  return .object [
    ("item1", .object [("isCancel", .bool true), ("uniqueTransID", .str q.searchId.text),
      ("itemCodeRef", .str q.offerId.text), ("priceCodeRef", .str q.priceId.text),
      ("bookingCodeRef", .str booking.text)]),
    ("item2", .object [("isSuccess", .bool true)])]

/-- The transaction of the cancel worker. -/
def saveCancel (db : Db) (j : Job) (reply : SupplierReply) : Db :=
  let original := reply.body?
  let response := original.bind fun body => cancelResponse body j.payload j.quote j.booking
  let state := if response.isSome then CancellationState.cancelled else .outcomeUnknown
  let saved : Db := { db with
    cancellations := modify Cancellation.id j.row (fun c =>
      if c.state = .pending then
        { c with state := state, originalResponse := original, publicResponse := response }
      else c) db.cancellations }
  saved.audit "system" none "cancellation.outcome" "booking" j.booking.text
    (.object [("state", .str (if response.isSome then "cancelled" else "outcome_unknown"))])

end ShaponTravels.Booking
