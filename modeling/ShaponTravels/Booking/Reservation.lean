import ShaponTravels.Booking.Evidence

/-!
# Reservation — booking requests, their workers and manual resolutions

`book_owned` and `reconcile_owned` of `booking.rs`, `booking/direct.rs` and `resolve` of
`admin_bookings.rs`.  Each transaction is a function of the tables it finds.
-/

namespace ShaponTravels.Booking

open Library

/-- What a transaction draws from its environment: fresh identifiers and the clock, which is read
once more before a booking is inserted. -/
structure Draws where
  id : Uuid
  operation : Uuid
  entry : Uuid
  now : Int
  later : Int

/-! ## Grants -/

/-- The grant `book_owned` rechecks; `portal` tells a booking made in the portal. -/
def ApiClient.mayBook (c : ApiClient) (portal direct : Bool) : Bool :=
  c.active &&
    if portal then c.audience = "b2b" && "search:read" ∈ c.permissions
    else "booking" ∈ c.permissions && (!direct || "ticketing" ∈ c.permissions) &&
      (c.externalUserId = none || (c.apiManagementEnabled && c.tier = "enterprise"))

/-- AND over conditions that may be NULL. -/
def sqlAnd (conditions : List (Option Bool)) : Option Bool :=
  if some false ∈ conditions then some false
  else if none ∈ conditions then none
  else some true

/-- Equality of values that may be NULL. -/
def sqlEq {α : Type} [DecidableEq α] : Option α → Option α → Option Bool
  | some a, some b => some (a = b)
  | _, _ => none

def TierPolicy.share (p : TierPolicy) (tier : String) : Int :=
  if tier = "basic" then p.basic else if tier = "professional" then p.professional
  else p.enterprise

/-- The draft of a booking made in the portal still belongs to its client, owner and price. -/
def checkCreator (db : Db) (m : Machine) (c : Creator) : Except ApiError Unit := do
  let client ← fetch (lookup ApiClient.id m.clientId db.clients) notFound
  let draft ← fetch (db.drafts.find? fun d =>
    d.id = c.draft ∧ d.clientId = m.clientId ∧ d.creatorExternalUserId = c.actor) notFound
  let valid ← fetch (sqlAnd [some client.active, some (client.audience = "b2b"),
    some ("search:read" ∈ client.permissions),
    sqlEq client.externalUserId (some draft.ownerExternalUserId),
    sqlEq (some client.tier) m.tier, some (client.agentId = m.agentId),
    some (db.tierPolicy.share client.tier = m.commissionSharePercent)]) noRow
  ensure (valid = true) (conflict "PRICE_CONTEXT_CHANGED")

/-! ## Quotes -/

def Reprice.quote (r : Reprice) (o : Offer) (s : Search) (valid latest : Bool) : Quote where
  offerId := o.id
  priceId := r.id
  searchId := o.searchId
  supplierId := o.supplierId
  availabilityEpoch := o.availabilityEpoch
  original := r.original
  selling := r.selling
  referenceMap := r.referenceMap
  searchOriginal := o.original
  request := s.request
  valid := valid
  accepted := r.acceptedAt.isSome
  repriceRequired := o.repriceRequired
  latest := latest
  audience := r.audience
  agentId := r.agentId

/-- `version = (SELECT max(version) …)`. -/
def Db.isLatest (db : Db) (r : Reprice) : Bool :=
  db.reprices.all fun r' => r'.offerId ≠ r.offerId || r'.version ≤ r.version

/-- The quote a booking request names. -/
def Db.quoteFor (db : Db) (price client : Uuid) (now : Int) : Option Quote := do
  let r ← db.reprices.find? fun r => r.id = price ∧ r.clientId = client
  let o ← lookup Offer.id r.offerId db.offers
  let s ← lookup Search.id o.searchId db.searches
  return r.quote o s (now < r.expiresAt && now < o.expiresAt && now < s.expiresAt) (db.isLatest r)

/-- `ticketing::load_quote`, without the fare breakdown it adds for display. -/
def Db.loadQuote (db : Db) (booking client : Uuid) : Except ApiError Quote :=
  fetch (do
    let b ← db.bookings.find? fun b => b.id = booking ∧ b.clientId = client
    let r ← lookup Reprice.id b.priceId db.reprices
    let o ← lookup Offer.id b.offerId db.offers
    let s ← lookup Search.id o.searchId db.searches
    return r.quote o s true true) noRow

/-! ## Booking requests -/

/-- The booking an idempotency key already stands for. -/
def Db.bookingByKey (db : Db) (client : Uuid) (key : String) : Option FlightBooking :=
  lookup (fun b : FlightBooking => (b.clientId, b.idempotencyKey)) (client, key) db.bookings

/-- The checks of a request against the quote it names. -/
def checkQuote (site : Site) (m : Machine) (req : BookRequest) (creator : Option Creator)
    (q : Quote) : Except ApiError Unit := do
  ensure (req.uniqueTransId = q.searchId.text ∧ req.itemCodeRef = q.offerId.text)
    (error "OFFER_REFERENCE_MISMATCH")
  ensure q.valid ⟨.gone, "PRICE_EXPIRED"⟩
  ensure (¬ q.repriceRequired) (conflict "REPRICE_REQUIRED")
  ensure (q.accepted ∧ q.latest) (conflict "LATEST_PRICE_ACCEPTANCE_REQUIRED")
  ensure (m.audience = q.audience ∧ m.agentId = q.agentId) (conflict "PRICE_CONTEXT_CHANGED")
  let bookable := Value.bool !req.directIssueIntent
  ensure (q.searchOriginal.field "bookable" = bookable ∧
    (q.original.field "item1").field "bookable" = bookable) (error "BOOKING_MODE_MISMATCH")
  ensure (req.taxRedemptions = []) (error "TAX_REDEMPTION_UNSUPPORTED")
  ensure (req.commissionOnTaxes = [] ∨ Value.arr req.commissionOnTaxes =
    ((q.original.field "item1").get? "commissionOnTaxes").getD (.arr []))
    (error "COMMISSION_REFERENCE_MISMATCH")
  site.validate req q creator.isSome

/-- The checks of the supplier's connection, configuration and capabilities. -/
def checkSupplier (site : Site) (db : Db) (req : BookRequest) (q : Quote) :
    Except ApiError Unit := do
  let s ← fetch (lookup SupplierConnection.id q.supplierId db.connections) noRow
  ensure (s.searchEnabled ∧ s.availabilityEpoch = q.availabilityEpoch)
    (conflict "NEW_SEARCH_REQUIRED")
  ensure s.bookingEnabled (forbidden "SUPPLIER_BOOKING_DISABLED")
  ensure ((site.supplier q.supplierId).bind (·.currency) =
    ((q.original.field "item1").field "currency").asStr?) (error "SUPPLIER_CURRENCY_MISMATCH")
  let transport ← fetch (site.supplier q.supplierId) (error "SUPPLIER_CONFIGURATION_ERROR")
  if req.directIssueIntent then
    ensure (∀ b ∈ db.bookings, ¬ (b.offerId = q.offerId ∧ b.executionMode = .direct))
      (conflict "DIRECT_ISSUE_ALREADY_RESERVED")
    ensure (site.environment = "test" ∧ transport.directIssueEnabled ∧
      s.ticketingEnabled ∧ s.servicingEnabled) (forbidden "DIRECT_ISSUE_EXECUTION_DISABLED")
  else
    ensure transport.holdBookingEnabled (forbidden "SUPPLIER_BOOKING_DISABLED")

/-- The supplier payload of a booking. -/
def bookPayload (req : BookRequest) (q : Quote) : Value :=
  let info := q.original.field "item1"
  .object [("uniqueTransID", info.field "uniqueTransID"), ("itemCodeRef", info.field "itemCodeRef"),
    ("priceCodeRef", info.field "priceCodeRef"),
    ("passengerInfoes", .arr (req.passengerInfoes.map Passenger.toValue)),
    ("taxRedemptions", .arr []),
    ("commissionOnTaxes", (info.get? "commissionOnTaxes").getD (.arr []))]

/-- The constraints of `flight_bookings` on a new row, and those of the draft it is linked to. -/
def insertBooking (db : Db) (b : FlightBooking) : Except DbError Db := do
  ensure (1 ≤ b.idempotencyKey.length ∧ b.idempotencyKey.length ≤ 128)
    (.violated "flight_bookings_idempotency_key_check")
  ensure (∀ b' ∈ db.bookings, b'.id ≠ b.id) (.unique "flight_bookings_pkey")
  ensure (∀ b' ∈ db.bookings, ¬ (b'.clientId = b.clientId ∧ b'.idempotencyKey = b.idempotencyKey))
    (.unique "flight_bookings_client_id_idempotency_key_key")
  ensure (b.executionMode = .direct →
      ∀ b' ∈ db.bookings, ¬ (b'.executionMode = .direct ∧ b'.offerId = b.offerId))
    (.unique "flight_bookings_direct_offer_unique")
  ensure (db.reprices.any fun r =>
      r.id = b.priceId ∧ r.offerId = b.offerId ∧ r.clientId = b.clientId)
    (.violated "flight_bookings_price_id_offer_id_client_id_fkey")
  ensure (b.portalHoldDraftId.isSome →
      ∀ b' ∈ db.bookings, b'.portalHoldDraftId ≠ b.portalHoldDraftId)
    (.unique "flight_bookings_portal_hold_draft_id_key")
  ensure (∀ s ∈ db.imports, s.id ≠ b.id) (.unique "booking_financial_subjects_pkey")
  return { db with bookings := db.bookings ++ [b] }

/-- The row a booking request reserves. -/
def newBooking (m : Machine) (req : BookRequest) (creator : Option Creator) (q : Quote)
    (key : String) (hash : Digest) (draw : Draws) : FlightBooking where
  id := draw.id
  clientId := m.clientId
  offerId := q.offerId
  priceId := req.priceCodeRef
  supplierId := q.supplierId
  idempotencyKey := key
  requestHash := hash
  request := bookPayload req q
  state := .pending
  executionMode := if req.directIssueIntent then .direct else .hold
  originalResponse := none
  publicResponse := none
  pnr := none
  supplierBookingRef := none
  ticketingTimeLimit := none
  errorCode := none
  lastReconciliation := none
  lastReconciliationVerified := false
  reconciledAt := none
  publicRef := none
  portalHoldDraftId := creator.map Creator.draft
  createdByExternalUserId := creator.map Creator.actor
  portalCustomerContact := creator.map Creator.contact
  createdAt := draw.now
  updatedAt := draw.now

/-- The job a booking leaves to its worker. -/
def FlightBooking.job (b : FlightBooking) (q : Quote) : Job where
  task := if b.executionMode = .direct then .bookDirect else .book
  row := b.id
  booking := b.id
  client := b.clientId
  payload := b.request
  passengers := .null
  quote := q

def auditReserved (db : Db) (creator : Option Creator) (client booking : Uuid) : Db :=
  let db := match creator with
    | some c =>
      db.audit "admin" (some c.actor) "portal.hold.dispatch_reserved" "booking" booking.text (.obj [])
    | none => db
  db.audit "client" (some client.text) "booking.dispatch_reserved" "booking" booking.text (.obj [])

/-- The part of `book_owned` after the replay check. -/
def bookFresh (site : Site) (db : Db) (m : Machine) (req : BookRequest) (creator : Option Creator)
    (key : String) (hash : Digest) (draw : Draws) :
    Except ApiError (Attempt FlightBooking Job × Db) := do
  match creator with
  | some c => checkCreator db m c
  | none => pure ()
  let q ← fetch (db.quoteFor req.priceCodeRef m.clientId draw.now) notFound
  checkQuote site m req creator q
  checkSupplier site db req q
  let fresh ← fetch (db.quoteFor req.priceCodeRef m.clientId draw.later) noRow
  ensure (fresh.valid ∧ fresh.accepted ∧ fresh.latest) (conflict "LATEST_PRICE_ACCEPTANCE_REQUIRED")
  let b := newBooking m req creator q key hash draw
  let db ← (insertBooking db b).mapError .ofDb
  return (.proceed (b.job q), auditReserved db creator m.clientId b.id)

/-- `booking::book_owned` up to its commit. -/
def bookOwned (site : Site) (db : Db) (m : Machine) (header : Option String) (req : BookRequest)
    (creator : Option Creator) (draw : Draws) : Except ApiError (Attempt FlightBooking Job × Db) := do
  m.require "booking"
  ensure (¬ (creator.isSome ∧ req.directIssueIntent)) (error "HOLD_ONLY")
  if req.directIssueIntent then m.require "ticketing" else pure ()
  let key ← idempotencyKey header
  let hash := site.pf.digest (req.canonical creator).text
  let client ← fetch (lookup ApiClient.id m.clientId db.clients) noRow
  ensure (client.mayBook creator.isSome req.directIssueIntent) (forbidden "CLIENT_BOOKING_DISABLED")
  match db.bookingByKey m.clientId key with
  | some previous =>
    ensure (previous.requestHash = hash) (conflict "IDEMPOTENCY_KEY_REUSED")
    return (.replay previous, db)
  | none => bookFresh site db m req creator key hash draw

/-! ## Outcomes -/

/-- What an update leaves besides its columns: the clock, and the public reference once the
evidence gives one. -/
def FlightBooking.save (b : FlightBooking) (now : Int) : FlightBooking :=
  { b with
    updatedAt := now
    publicRef := b.publicRef.or (bookingReferenceFromEvidence b.originalResponse
      b.lastReconciliation b.lastReconciliationVerified) }

/-- What the late branch of a worker makes of a booking that is no longer pending. -/
def FlightBooking.reopen (b : FlightBooking) : FlightBooking :=
  { b with
    state := .outcomeUnknown
    publicResponse := none
    errorCode := some "LATE_BOOKING_OUTCOME" }

def Db.hasPending (db : Db) (booking : Uuid) : Bool :=
  db.bookings.any fun b => b.id = booking ∧ b.state = .pending

/-- `UPDATE … WHERE state='pending'`.  When no row is pending any more the response is kept as a
late outcome and the booking is reopened. -/
def recordOutcome (db : Db) (booking : Uuid) (response : Option Value) (now : Int)
    (outcome late : FlightBooking → FlightBooking) : Db :=
  if db.hasPending booking then
    { db with
      bookings := modify FlightBooking.id booking
        (fun b => if b.state = .pending then (outcome b).save now else b) db.bookings }
  else
    { db with
      lateOutcomes := db.lateOutcomes ++ [⟨booking, response, now⟩]
      bookings := modify FlightBooking.id booking (fun b => (late b).reopen.save now) db.bookings }

/-- A reference in `item1` of a response. -/
def infoText (original : Option Value) (key : String) : Option String :=
  original.bind fun v => ((v.field "item1").field key).asStr?

/-- `diagnostic` of the hold worker. -/
def holdDiagnostic (site : Site) (j : Job) (reply : SupplierReply) : Option String :=
  let original := reply.body?
  let failure := match reply with
    | .body _ => "BOOKING_RESPONSE_UNVERIFIED"
    | .failed e => transportReason e
    | .elapsed => "BOOKING_TIMEOUT"
  if (original.bind fun body => site.heldResponse body j.quote j.booking).isSome then none
  else some (outcomeReason j.quote.supplierId (original.map (·.field "item2")) failure)

/-- The columns the hold worker sets. -/
def holdOutcome (site : Site) (j : Job) (reply : SupplierReply) (b : FlightBooking) :
    FlightBooking :=
  let original := reply.body?
  let response := original.bind fun body => site.heldResponse body j.quote j.booking
  { b with
    state := if response.isSome then .held else .outcomeUnknown
    originalResponse := original
    publicResponse := response
    pnr := infoText original "pnr"
    supplierBookingRef := infoText original "bookingCodeRef"
    ticketingTimeLimit := infoText original "ticketingTimeLimit"
    errorCode := holdDiagnostic site j reply }

/-- The columns the hold worker fills in when it is late. -/
def holdLate (reply : SupplierReply) (b : FlightBooking) : FlightBooking :=
  let original := reply.body?
  { b with
    originalResponse := original.or b.originalResponse
    pnr := (infoText original "pnr").or b.pnr
    supplierBookingRef := (infoText original "bookingCodeRef").or b.supplierBookingRef }

/-- `identity_assert_subject_writable`. -/
def Db.subjectWritable (db : Db) (subject : String) : Bool := subject ∉ db.identities.terminal

/-- The subjects an owner stands for. -/
def Db.ownerSubjects (db : Db) (w : Wallet.WalletOwner) : List String :=
  match w.ownerType with
  | .user => [w.ownerKey]
  | .agency => (db.identities.agencyOwners.filter fun a => a.1 = w.ownerKey).map Prod.snd

/-- `identity_assert_owner_writable`. -/
def Db.ownerWritable (db : Db) (owner : Uuid) : Bool :=
  db.wallet.owners.all fun w => w.id = owner → (db.ownerSubjects w).all db.subjectWritable

/-- `identity_assert_client_writable`. -/
def Db.clientWritable (db : Db) (client : Uuid) : Bool :=
  (db.clients.all fun c => c.id = client → c.externalUserId.all db.subjectWritable) &&
    (db.identities.staffClients.all fun s => s.2 = client → db.subjectWritable s.1) &&
    (db.wallet.links.all fun l => l.clientId = client → db.ownerWritable l.ownerId)

/-- What `identity_business_barrier` checks of a booking that is written: its creator and its client. -/
def Db.bookingWritable (db : Db) (booking : Uuid) : Bool :=
  db.bookings.all fun b => b.id = booking →
    b.createdByExternalUserId.all db.subjectWritable ∧ db.clientWritable b.clientId

/-- What the database asks before a worker stores its reply: the row a late outcome refers to, a response that
`jsonb` holds, and the barrier of the identities, also for the issue that is inserted with the booking. -/
def checkReply (site : Site) (db : Db) (booking : Uuid) (response : Option Value) : Except ApiError Unit := do
  ensure (db.bookings.any fun b => b.id = booking)
    (.ofDb (.violated "booking_late_outcomes_booking_id_fkey"))
  ensure (response.all site.jsonb) (.ofDb (.raised "unsupported Unicode escape sequence"))
  ensure (db.bookingWritable booking) (.ofDb (.raised "identity terminal; business write denied"))

/-- The transaction of the hold worker of `book_owned`. -/
def saveHold (site : Site) (db : Db) (j : Job) (reply : SupplierReply) (now : Int) :
    Except ApiError Db := do
  checkReply site db j.booking reply.body?
  let saved := recordOutcome db j.booking reply.body? now (holdOutcome site j reply)
    (holdLate reply)
  if db.hasPending j.booking then
    let response := reply.body?.bind fun body => site.heldResponse body j.quote j.booking
    let state := if response.isSome then BookingState.held else .outcomeUnknown
    return saved.audit "system" none "booking.outcome" "booking" j.booking.text
      (.object [("state", .str state.text), ("reason", .ofOption (holdDiagnostic site j reply))])
  else
    return saved.audit "system" none "booking.late_outcome" "booking" j.booking.text (.obj [])

/-- `direct::receipt`. -/
def receipt (site : Site) (body payload : Value) (q : Quote) (booking issue : Uuid) :
    Option (Value × Value) := do
  guard (["uniqueTransID", "itemCodeRef", "priceCodeRef"].all fun field =>
    ((body.field "item1").get? field).all (· = payload.field field))
  let servicing ← supplierPayload body payload
  let response ← site.issuedResponse body servicing (payload.field "passengerInfoes") q booking issue
  return (servicing, response)

/-- The columns the direct worker sets. -/
def directOutcome (original response : Option Value) (b : FlightBooking) : FlightBooking :=
  { b with
    state := if response.isSome then .issued else .outcomeUnknown
    originalResponse := original
    publicResponse := response
    pnr := infoText original "pnr"
    supplierBookingRef := infoText original "bookingCodeRef"
    errorCode := if response.isSome then none else some "DIRECT_ISSUE_OUTCOME_UNKNOWN" }

/-- The constraints of `flight_ticket_issues` on a new row. -/
def insertIssue (db : Db) (t : TicketIssue) : Except DbError Db := do
  ensure (1 ≤ t.idempotencyKey.length ∧ t.idempotencyKey.length ≤ 128)
    (.violated "flight_ticket_issues_idempotency_key_check")
  -- the trigger `exclude_issue_and_cancel`
  ensure (∀ c ∈ db.cancellations, c.bookingId ≠ t.bookingId) (.raised "cancel already reserved")
  ensure (∀ t' ∈ db.issues, t'.id ≠ t.id) (.unique "flight_ticket_issues_pkey")
  ensure (∀ t' ∈ db.issues, t'.bookingId ≠ t.bookingId)
    (.unique "flight_ticket_issues_booking_id_key")
  ensure (∀ t' ∈ db.issues, ¬ (t'.clientId = t.clientId ∧ t'.idempotencyKey = t.idempotencyKey))
    (.unique "flight_ticket_issues_client_id_idempotency_key_key")
  ensure (db.bookings.any fun b => b.id = t.bookingId ∧ b.clientId = t.clientId)
    (.violated "flight_ticket_issues_booking_id_client_id_fkey")
  return { db with issues := db.issues ++ [t] }

/-- The servicing receipt of a direct issue; it needs no wallet and authorizes no dispatch. -/
def directIssue (site : Site) (j : Job) (original : Option Value) (draw : Draws) : TicketIssue :=
  let verified := original.bind fun b => receipt site b j.payload j.quote j.booking draw.id
  { id := draw.id
    bookingId := j.booking
    clientId := j.client
    idempotencyKey := "direct:" ++ j.booking.text
    requestHash := site.pf.digest j.payload.text
    state := if verified.isSome then .issued else .outcomeUnknown
    request := (verified.map Prod.fst).getD (.obj [])
    preflight := .object [("executionMode", .str "direct")]
    originalResponse := original
    publicResponse := verified.map Prod.snd
    walletRequired := false
    createdAt := draw.now
    updatedAt := draw.now }

/-- The transaction of `direct::dispatch`. -/
def saveDirect (site : Site) (db : Db) (j : Job) (reply : SupplierReply) (draw : Draws) :
    Except ApiError Db := do
  checkReply site db j.booking reply.body?
  let t := directIssue site j reply.body? draw
  let saved := recordOutcome db j.booking reply.body? draw.now
    (directOutcome reply.body? t.publicResponse) id
  let saved ← if db.hasPending j.booking then (insertIssue saved t).mapError .ofDb else pure saved
  return saved.audit "system" none "booking.direct_outcome" "booking" j.booking.text
    (.object [("state", .str t.state.text), ("late", .bool !db.hasPending j.booking)])

/-! ## Manual resolutions -/

/-- `admin_bookings::Outcome`. -/
inductive ManualOutcome where
  | held
  | notCreated
  | issued
  | cancelled
  deriving DecidableEq, Repr

def ManualOutcome.value : ManualOutcome → String
  | .held => "held"
  | .notCreated => "not_created"
  | .issued => "issued"
  | .cancelled => "cancelled"

/-- The body of a resolution. -/
structure ResolutionInput where
  outcome : ManualOutcome
  reason : String
  evidence : String
  supplierCaseRef : String
  expectedUpdatedAt : String
  confirmedWithSupplier : Bool

/-- `admin_bookings::valid_text`. -/
def validText (s : String) (min max : Nat) : Bool :=
  min ≤ (trim s).length && (trim s).length ≤ max && !s.toList.any fun c => isControl c && c ≠ '\n'

/-- `admin_bookings::resolve`. -/
def resolve (site : Site) (db : Db) (administrator booking : Uuid) (input : ResolutionInput)
    (now : Int) : Except ApiError Db := do
  ensure (input.confirmedWithSupplier ∧ validText input.reason 10 2000 ∧
    validText input.evidence 10 4000 ∧ validText input.supplierCaseRef 3 200)
    (error "SUPPLIER_EVIDENCE_REQUIRED")
  let expected ← fetch (site.rfc3339 input.expectedUpdatedAt) (error "INVALID_VERSION")
  let b ← fetch (lookup FlightBooking.id booking db.bookings) notFound
  ensure (b.state ≠ .manuallyResolved) (conflict "ALREADY_RESOLVED")
  ensure (b.updatedAt = expected) (conflict "STALE_BOOKING_VIEW")
  ensure (b.state = .outcomeUnknown ∨ (b.state = .pending ∧ b.createdAt < now - seconds 300))
    (conflict "BOOKING_NOT_RESOLVABLE")
  let outcome := input.outcome.value
  let response := Value.object [("bookingId", .str booking.text),
    ("state", .str "manually_resolved"), ("requiresReconciliation", .bool false),
    ("manualOutcome", .str outcome)]
  let resolved : Db := { db with
    resolutions := db.resolutions ++ [⟨booking, administrator, outcome, trim input.reason,
      trim input.evidence, trim input.supplierCaseRef, b.state⟩]
    bookings := modify FlightBooking.id booking (fun b =>
      ({ b with state := .manuallyResolved, publicResponse := some response,
                errorCode := none } : FlightBooking).save now) db.bookings }
  return resolved.audit "admin" (some administrator.text) "booking.manual_resolution" "booking"
    booking.text (.object [("previousState", .str b.state.text), ("outcome", .str outcome)])

/-! ## PNR lookups -/

/-- A PNR lookup between its reads and its transaction. -/
structure PnrCall where
  booking : Uuid
  payload : Value
  started : Int
  actorKind : String
  actorId : Uuid
  deriving DecidableEq

/-- The reads of `booking::reconcile_owned`. -/
def preparePnr (site : Site) (db : Db) (client booking : Uuid) (actorKind : String)
    (actorId : Uuid) (now : Int) : Except ApiError PnrCall := do
  let b ← fetch (db.bookings.find? fun b => b.id = booking ∧ b.clientId = client) notFound
  let _ ← fetch (lookup Reprice.id b.priceId db.reprices) notFound
  let original ← fetch b.originalResponse (conflict "MANUAL_RECONCILIATION_REQUIRED")
  let payload ← fetch (supplierPayload original b.request)
    (conflict "MANUAL_RECONCILIATION_REQUIRED")
  let s ← fetch (lookup SupplierConnection.id b.supplierId db.connections) noRow
  ensure s.servicingEnabled (forbidden "SUPPLIER_SERVICING_DISABLED")
  let _ ← fetch (site.supplier b.supplierId) (error "SUPPLIER_CONFIGURATION_ERROR")
  return ⟨booking, payload, now, actorKind, actorId⟩

/-- The transaction of `booking::reconcile_owned`, with the body the lookup returned. -/
def savePnr (site : Site) (db : Db) (c : PnrCall) (body : Value) (now : Int) : Db :=
  let valid := pnrReadable body c.payload
  let deadline := site.pnrDeadline body
  let changed := db.bookings.any fun b =>
    b.id = c.booking ∧ b.reconciledAt.all fun instant => instant ≤ c.started
  let saved : Db := { db with
    observations := db.observations ++
      [⟨db.observations.length + 1, c.booking, body, valid, c.started, now⟩]
    bookings := modify FlightBooking.id c.booking (fun b =>
      if b.reconciledAt.all fun instant => instant ≤ c.started then
        ({ b with
          lastReconciliation := some body
          lastReconciliationVerified := valid
          reconciledAt := some c.started
          ticketingTimeLimit := if valid then deadline else b.ticketingTimeLimit
            } : FlightBooking).save now
      else b) db.bookings }
  if changed then
    saved.audit c.actorKind (some c.actorId.text) "booking.pnr" "booking" c.booking.text
      (.object [("verified", .bool valid), ("deadlineAvailable", .bool (valid && deadline.isSome))])
  else saved

end ShaponTravels.Booking
