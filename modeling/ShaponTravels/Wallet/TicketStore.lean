import ShaponTravels.Wallet.TicketRequests

/-!
# TicketStore — entitlements, requests and their settlement

`wallet/ticket_management/store.rs`: each function reads the tables and leaves them as its statements do, or
fails and is rolled back.
-/

namespace ShaponTravels.Wallet.Tickets

open Library
open Booking (Casing)
open TicketManagement (Action RequestType Direction Quote NewTicket Funding Entitlement EntitlementState
  InitialEntitlement ReissuePreference ticketOf unavailable voidOpen Instant)
open Nonissuance (Actor)

/-- What the code takes from its surroundings for good: hashes, case mappings, the texts of times, and the
days of dates. -/
structure Desk where
  pf : Platform
  cs : Casing
  rfc3339 : Int → String
  dateOf : String → Option Int

/-- What a transaction draws: the clocks of the process and of the database, the next number of the
references, and identifiers. -/
structure Draw where
  now : Int
  clock : Int
  reference : Nat
  quote : Uuid
  operation : Uuid
  entries : Nat → Uuid
  entitlements : Nat → Uuid

/-! ## Entitlements -/

/-- The rows of a booking. -/
def Db.entitlementsOf (db : Db) (booking : Uuid) : List Entitlement :=
  db.entitlements.filter fun e => e.bookingId = booking

/-- The constraints of `ticket_management_entitlements` on a new row. -/
def insertEntitlement (rows : List Entitlement) (e : Entitlement) : Except DbError (List Entitlement) := do
  ensure (1 ≤ e.amount ∧ e.amount ≤ TicketManagement.maxMinor) (.violated "ticket_management_entitlements_amount_check")
  ensure (e.passengerIndex ≤ 19) (.violated "ticket_management_entitlements_passenger_index_check")
  ensure (1 ≤ e.ticketNumber.length ∧ e.ticketNumber.length ≤ 80)
    (.violated "ticket_management_entitlements_ticket_number_check")
  ensure (∀ e' ∈ rows, e'.id ≠ e.id) (.unique "ticket_management_entitlements_pkey")
  ensure (∀ e' ∈ rows, e.predecessorId.isSome → e'.predecessorId ≠ e.predecessorId)
    (.unique "ticket_management_entitlements_predecessor_id_key")
  ensure (∀ e' ∈ rows, ¬ (e'.bookingId = e.bookingId ∧ e'.ticketNumber = e.ticketNumber))
    (.unique "ticket_management_entitlements_booking_id_ticket_number_key")
  ensure (e.state = .active → ∀ e' ∈ rows,
      ¬ (e'.bookingId = e.bookingId ∧ e'.passengerIndex = e.passengerIndex ∧ e'.state = .active))
    (.unique "ticket_management_current_passenger")
  return rows ++ [e]

/-- The row of an initial entitlement, paid by the operation of the booking. -/
def initialRow (b : ChargedBooking) (e : InitialEntitlement) (id : Uuid) : Entitlement where
  id := id
  bookingId := b.id
  walletAccountId := b.walletAccountId
  passengerIndex := e.passengerIndex
  passengerName := e.passengerName
  passengerType := e.passengerType
  ticketNumber := e.ticketNumber
  currency := b.currency
  amount := e.amountMinor
  funding := [⟨b.operationId, e.amountMinor⟩]
  predecessorId := none
  state := .active

/-- What an overflow would end a request with; `allocateImport` has none. -/
def ofFault : Fault ApiError → ApiError
  | .refused e => e
  | .overflow => TicketManagement.unwrapped

/-- The entitlements that the evidence of a booking gives its passengers. -/
def allocation (cs : Casing) (b : ChargedBooking) : Except ApiError (List InitialEntitlement) :=
  let passengers := b.request.field "passengerInfoes"
  let tickets := (b.ticket.field "item1").field "ticketInfoes"
  match b.importData with
  | some data => (TicketManagement.allocateImport cs data passengers tickets b.amount).mapError ofFault
  | none => TicketManagement.allocateInitial cs passengers tickets b.pricing b.amount

/-- `initialize`. -/
def initializeEntitlements (cs : Casing) (db : Db) (b : ChargedBooking) (draw : Draw) : Except ApiError Db :=
  if db.entitlementsOf b.id ≠ [] then .ok db
  else do
    let initial ← allocation cs b
    let rows ← (initial.zipIdx.foldlM (fun rows e =>
      insertEntitlement rows (initialRow b e.1 (draw.entitlements e.2))) db.entitlements).mapError .ofDb
    return { db with entitlements := rows }

/-! ## Routes -/

def routesUnavailable : ApiError := conflict "TICKET_ROUTES_UNAVAILABLE"

/-- One turn of the loop of `routes`. -/
def route (entry : Value × Nat) : Except ApiError Value := do
  let options ← fetch entry.1.asArray? routesUnavailable
  match options with
  | [option] => do
    let segments ← fetch (option.field "segments").asArray? routesUnavailable
    let first ← fetch segments.head? routesUnavailable
    let last ← fetch segments.getLast? routesUnavailable
    let origin ← fetch (first.field "from").asStr? routesUnavailable
    let destination ← fetch (last.field "to").asStr? routesUnavailable
    return .object [("routeIndex", .ofInt entry.2), ("label", .str (origin ++ " → " ++ destination)),
      ("origin", .str origin), ("destination", .str destination), ("departureAt", first.field "departure")]
  | _ => .error routesUnavailable

/-- `routes`. -/
def routes (b : ChargedBooking) : Except ApiError (List Value) := do
  let directions ← fetch ((b.selling.field "item1").field "directions").asArray? routesUnavailable
  directions.zipIdx.mapM route

/-! ## Rows of requests -/

/-- `Request` as `result` shows it. -/
def result (r : Request) : Value :=
  .object [("ok", .bool true), ("requestId", .str r.id.text), ("publicRef", .str r.publicRef),
    ("status", .str r.status.text), ("outcome", .ofOption (r.terminalOutcome.map Outcome.text)),
    ("version", .ofInt r.version)]

/-- `event`; `(request_id, request_version)` is unique. -/
def event (db : Db) (r : Request) (actor role kind : String) (start : Option Status) (note : Option String)
    (metadata : Value) : Except ApiError Db := do
  ensure (∀ e ∈ db.events, ¬ (e.requestId = r.id ∧ e.requestVersion = r.version))
    (.ofDb (.unique "ticket_management_events_request_id_request_version_key"))
  return { db with events := db.events ++ [⟨r.id, r.version, kind, actor, role, start, r.status, note, metadata⟩] }

/-- The outcome of a settled request. -/
def outcomeOf : Action → Outcome
  | .refund => .refunded
  | .reissue => .reissued
  | .void => .voided

/-- The check of `ticket_management_requests` on a stage. -/
def Request.Staged (r : Request) : Prop :=
  match r.status with
  | .requested | .inProgress | .awaitingConfirmation => r.terminalOutcome = none
  | .approved => r.terminalOutcome = none ∨ r.terminalOutcome = some (outcomeOf r.action)
  | .rejected => r.terminalOutcome = some .staffRejected ∨ r.terminalOutcome = some .customerRejected
  | .expired => r.terminalOutcome = some .confirmationExpired

instance (r : Request) : Decidable r.Staged := by
  unfold Request.Staged
  split <;> infer_instance

/-- The columns that `save` writes. -/
def Request.columns (r old : Request) : Request :=
  { old with
    status := r.status
    terminalOutcome := r.terminalOutcome
    version := r.version
    activeQuoteId := r.activeQuoteId
    approvedQuoteId := r.approvedQuoteId
    assigneeUserId := r.assigneeUserId
    assigneeRole := r.assigneeRole
    holdOperationId := r.holdOperationId
    updatedAt := r.updatedAt
    statusChangedAt := r.statusChangedAt }

/-- The UPDATE of `save`, with the checks of the row and of `protect_ticket_management_request`. -/
def updateRequest (db : Db) (r : Request) : Except DbError Db := do
  ensure (r.Staged ∧ 1 ≤ r.version ∧ r.version ≤ TicketManagement.maxMinor)
    (.violated "ticket_management_requests_check")
  ensure (∀ old ∈ db.requests, old.id = r.id → old.terminalOutcome = none ∧ r.version = old.version + 1)
    (.raised "ticket request identity or terminal result is immutable")
  return { db with requests := modify Request.id r.id r.columns db.requests }

/-- A new stage must follow the previous one. -/
def checkStage (previous target : Status) : Except ApiError Unit :=
  if target = previous then .ok () else transition previous target none

/-- The row of a request after `save`. -/
def Request.advanced (r : Request) (previous : Status) (now : Int) : Request :=
  { r with
    version := r.version + 1
    updatedAt := now
    statusChangedAt := if r.status ≠ previous then now else r.statusChangedAt }

/-- A request that has ended claims nothing. -/
def remaining (claims : List Claim) (r : Request) : List Claim :=
  if r.terminalOutcome.isSome then claims.filter fun c => c.requestId ≠ r.id else claims

/-- `save`. -/
def save (db : Db) (r : Request) (previous : Status) (now : Int) : Except ApiError (Request × Db) := do
  ensure (outcomeMatches r.status r.terminalOutcome) (invalid "INVALID_TICKET_TRANSITION")
  checkStage previous r.status
  let saved := r.advanced previous now
  let db ← (updateRequest db saved).mapError .ofDb
  return (saved, { db with claims := remaining db.claims saved })

/-- The row of a quote. -/
def Db.quote (db : Db) (id : Option Uuid) : Option QuoteRow := id.bind fun id => lookup QuoteRow.id id db.quotes

/-- `quote`. -/
def quote (db : Db) (id : Option Uuid) : Except ApiError Quote := do
  let row ← fetch (db.quote id) (conflict "TICKET_QUOTE_UNAVAILABLE")
  return row.data

/-- An id or null. -/
def idValue (id : Option Uuid) : Value := .ofOption (id.map Uuid.text)

/-- `expire`. -/
def expire (db : Db) (r : Request) (draw : Draw) : Except ApiError (Request × Db) :=
  if r.status ≠ .awaitingConfirmation then .ok (r, db)
  else do
    let row ← fetch (db.quote r.activeQuoteId) (.ofDb .noRow)
    if row.confirmationDeadlineAt ≤ draw.clock then do
      let (saved, db) ← save db { r with status := .expired, terminalOutcome := some .confirmationExpired }
        .awaitingConfirmation draw.now
      let db ← event db saved "ticket-management-expiry" "system" "confirmation-expired"
        (some .awaitingConfirmation) none (.object [("quoteId", idValue r.activeQuoteId)])
      return (saved, db)
    else return (r, db)

/-- `expire_booking`. -/
def expireBooking (db : Db) (booking : Uuid) (draw : Draw) : Except ApiError Db :=
  (db.requests.filter fun r => r.bookingId = booking ∧ r.status = .awaitingConfirmation).foldlM
    (fun db r => (expire db r draw).map Prod.snd) db

/-! ## Creating -/

/-- What is asked for. -/
structure NewRequest where
  id : Uuid
  action : Action
  requestType : RequestType
  passengerIndexes : List Nat
  routeIndexes : List Nat
  note : Option String
  preferences : List ReissuePreference

/-- The instant of a time of the database. -/
def instantOf? (micros : Int) : Option Instant :=
  let day := micros / 86400000000
  let rest := micros % 86400000000
  if h : TicketManagement.firstDay ≤ day ∧ day ≤ TicketManagement.lastDay then
    some ⟨day, rest / 1000000, rest % 1000000 * 1000, h, by omega, by omega⟩
  else none

/-- `rules::void_open` at two times of the database. -/
def voidOpenAt (issued now : Int) : Bool :=
  match instantOf? issued, instantOf? now with
  | some issued, some now => voidOpen issued now
  | _, _ => false

/-- Digits in upper case, for `{:012X}`. -/
def hexUpper (n width : Nat) : String := toAsciiUppercase (String.ofList (hexDigits width n))

/-- The reference of a request. -/
def referenceOf (action : Action) (seq : Nat) : String :=
  "TMR" ++ (match action with | .refund => "R" | .reissue => "E" | .void => "V") ++ hexUpper seq 12

/-- The rows that a request selects: for each passenger its active one. -/
def selectEntitlements (db : Db) (booking : Uuid) (indexes : List Nat) : Except ApiError (List Entitlement) :=
  indexes.mapM fun i => fetch ((db.entitlementsOf booking).find? fun e => e.passengerIndex = i ∧ e.state = .active)
    unavailable

/-- The snapshot of a request. -/
def snapshotOf (b : ChargedBooking) (n : NewRequest) (chosen : List Value) : Except ApiError Snapshot := do
  let first := ((((b.selling.field "item1").field "directions").item 0).item 0).field "segments" |>.item 0
  let text ← fetch (b.pricing.field "gross").asStr? unavailable
  let gross ← majorToMinor text
  let gross ← TicketManagement.minor gross
  return {
    bookingReference := b.publicRef, agencyName := b.display.field "name",
    agencyId := if b.ownerType = .agency then some b.ownerKey else none,
    airlineCode := first.field "airlineCode", flightDate := first.field "departure", issuedAt := b.issuedAt,
    grossFare := gross, userPayable := b.amount, reissuePreferences := n.preferences, routes := chosen }

/-- The row of a new request. -/
def NewRequest.row (n : NewRequest) (actor : Actor) (b : ChargedBooking) (snapshot : Snapshot) (draw : Draw) :
    Request where
  id := n.id
  publicRef := referenceOf n.action draw.reference
  bookingId := b.id
  walletAccountId := b.walletAccountId
  requestedByUserId := actor.externalUserId
  action := n.action
  requestType := n.requestType
  status := .requested
  terminalOutcome := none
  version := 1
  currency := b.currency
  requestNote := n.note
  snapshot := snapshot
  activeQuoteId := none
  approvedQuoteId := none
  assigneeUserId := none
  assigneeRole := none
  holdOperationId := none
  createdAt := draw.clock
  updatedAt := draw.clock
  statusChangedAt := draw.clock

/-- The constraints of `ticket_management_requests` on a new row. -/
def insertRequest (rows : List Request) (r : Request) : Except DbError (List Request) := do
  ensure (∀ r' ∈ rows, r'.id ≠ r.id) (.unique "ticket_management_requests_pkey")
  ensure (∀ r' ∈ rows, r'.publicRef ≠ r.publicRef) (.unique "ticket_management_requests_public_ref_key")
  ensure (∀ r' ∈ rows, ¬ (r'.bookingId = r.bookingId ∧ r'.action = r.action ∧ r'.terminalOutcome = none))
    (.unique "ticket_management_one_open_action")
  return rows ++ [r]

/-- The claims of the selected entitlements, whose entitlements are a key. -/
def insertClaim (request : Uuid) (rows : List Claim) (e : Entitlement) : Except DbError (List Claim) := do
  ensure (∀ c ∈ rows, c.entitlementId ≠ e.id) (.unique "ticket_management_claims_pkey")
  return rows ++ [⟨e.id, request⟩]

/-- `create_with_preferences`. -/
def create (cs : Casing) (db : Db) (actor : Actor) (b : ChargedBooking) (n : NewRequest) (draw : Draw) :
    Except ApiError (Value × Db) := do
  TicketManagement.text n.note 2000 false
  ensure (¬ (n.action = .void ∧ voidOpenAt b.issuedAt draw.now = false)) (conflict "VOID_REQUEST_WINDOW_CLOSED")
  let db ← initializeEntitlements cs db b draw
  let db ← expireBooking db b.id draw
  let routes ← routes b
  TicketManagement.indexes n.passengerIndexes (((b.request.field "passengerInfoes").asArray?.map List.length).getD 0)
  TicketManagement.indexes n.routeIndexes routes.length
  let selected ← selectEntitlements db b.id n.passengerIndexes
  ensure (∀ r ∈ db.requests, ¬ (r.bookingId = b.id ∧ r.action = n.action ∧ r.terminalOutcome = none))
    (conflict "ACTIVE_REQUEST_EXISTS")
  ensure (∀ c ∈ db.claims, c.entitlementId ∉ selected.map (·.id)) (conflict "ACTIVE_REQUEST_EXISTS")
  let snapshot ← snapshotOf b n (n.routeIndexes.filterMap fun i => routes[i]?)
  let r := n.row actor b snapshot draw
  let requests ← (insertRequest db.requests r).mapError .ofDb
  let claims ← (selected.foldlM (insertClaim n.id) db.claims).mapError .ofDb
  let db ← event { db with
      requests := requests
      selections := db.selections ++ selected.map fun e => ⟨n.id, e.id⟩
      claims := claims } r actor.externalUserId actor.role "requested" none n.note (.object [])
  return (result r, db)

/-! ## Mutations -/

/-- `Mutation`. -/
inductive Mutation where
  | review (accept : Bool) (note : Option String)
  | publishQuote (quote : Quote)
  | customerDecision (quoteId : Uuid) (approved : Bool) (note : Option String)
  | requote (reason : String)
  | assign (assigneeUserId : String) (reason : Option String)
  | completeRefund (note : Option String)
  | completeReissue (newTickets : List NewTicket) (note : Option String)
  | completeVoid (note : Option String)
  | releaseReissue (reason : String)
  | releaseVoid (reason : String)

def invalidTransition : ApiError := conflict "INVALID_TICKET_TRANSITION"
def actionMismatch : ApiError := conflict "TICKET_ACTION_MISMATCH"
def holdUnavailable : ApiError := conflict "TICKET_HOLD_UNAVAILABLE"
def entitlementConflict : ApiError := conflict "TICKET_ENTITLEMENT_CONFLICT"

/-- The rows that a request selected, by passenger. -/
def selections (db : Db) (r : Request) : List Entitlement :=
  (db.entitlements.filter fun e => (⟨r.id, e.id⟩ : Selection) ∈ db.selections).mergeSort
    fun e e' => e.passengerIndex ≤ e'.passengerIndex

/-- `active_selections`. -/
def activeSelections (db : Db) (r : Request) : Except ApiError (List Entitlement) := do
  let selected := selections db r
  ensure (selected ≠ [] ∧ db.claims.countP (fun c => c.requestId = r.id) = selected.length ∧
    ∀ e ∈ selected, e.state = .active) entitlementConflict
  return selected

/-- What a mutation has come to before `save`: the tables, the row, and the event. -/
structure Step where
  db : Db
  request : Request
  eventType : String
  note : Option String
  metadata : Value

/-- `Mutation::Review`. -/
def review (db : Db) (actor : Actor) (r : Request) (accept : Bool) (note : Option String) : Except ApiError Step := do
  operate actor.role
  TicketManagement.text note 2000 false
  if accept then
    ensure (r.status = .requested) invalidTransition
    return ⟨db, { r with status := .inProgress }, "accepted", note, .object []⟩
  else
    ensure (r.status ∈ [Status.requested, .inProgress, .awaitingConfirmation]) invalidTransition
    return ⟨db, { r with status := .rejected, terminalOutcome := some .staffRejected }, "staff-rejected", note,
      .object []⟩

/-- The amounts that a quote is checked against. -/
def amountsOf (selected : List Entitlement) : List (Uuid × Int) := selected.map fun e => (e.id, e.amount)

/-- `COALESCE(max(quote_version),0)+1`. -/
def nextQuoteVersion (db : Db) (request : Uuid) : Int :=
  ((db.quotes.filter fun q => q.requestId = request).map (·.quoteVersion)).foldl max 0 + 1

/-- `INSERT INTO ticket_management_quotes`. -/
def insertQuote (db : Db) (row : QuoteRow) : Except DbError Db := do
  ensure (∀ q ∈ db.quotes, q.id ≠ row.id) (.unique "ticket_management_quotes_pkey")
  return { db with quotes := db.quotes ++ [row] }

/-- `Mutation::PublishQuote`. -/
def publishQuote (desk : Desk) (db : Db) (actor : Actor) (r : Request) (q : Quote) (draw : Draw) :
    Except ApiError Step := do
  operate actor.role
  ensure (r.status = .inProgress) invalidTransition
  let selected ← activeSelections db r
  q.validate r.action r.currency (amountsOf selected) draw.now
  let version := nextQuoteVersion db r.id
  let db ← (insertQuote db ⟨draw.quote, r.id, version, q, q.confirmationDeadlineAt, actor.externalUserId,
    actor.role⟩).mapError .ofDb
  return ⟨db, { r with activeQuoteId := some draw.quote, status := .awaitingConfirmation }, "quotation-published", none,
    .object [("quoteId", .str draw.quote.text), ("quoteVersion", .ofInt version),
      ("confirmationDeadlineAt", .str (desk.rfc3339 q.confirmationDeadlineAt))]⟩

/-- What an approved debit reserves. -/
def holdOf (actor : Actor) (r : Request) (quoteId : Uuid) (q : Quote) (draw : Draw) : Reservation where
  id := draw.operation
  account := r.walletAccountId
  kind := "ticket_management"
  subject := quoteId
  booking := some r.bookingId
  amount := q.customerAmountMinor
  currency := r.currency
  actor := actor.externalUserId
  role := actor.role

/-- The first entry that a transaction writes. -/
def Draw.entry (draw : Draw) (i : Nat) : Wallet.Draw := ⟨draw.entries i, draw.clock⟩

/-- An approval reserves the debit of its quote. -/
def approve (desk : Desk) (db : Db) (actor : Actor) (r : Request) (quoteId : Uuid) (q : Quote) (draw : Draw) :
    Except ApiError (Db × Request) := do
  if q.direction = .debit then
    let (hold, wallet) ← Wallet.reserve desk.pf db.records.subjects db.wallet (holdOf actor r quoteId q draw)
      (draw.entry 0)
    ensure (hold.state = .reserved) holdUnavailable
    return ({ db with wallet := wallet }, { r with holdOperationId := some hold.id })
  else return (db, r)

/-- `Mutation::CustomerDecision`. -/
def customerDecision (desk : Desk) (db : Db) (actor : Actor) (r : Request) (quoteId : Uuid) (approved : Bool)
    (note : Option String) (draw : Draw) : Except ApiError Step := do
  owner actor.role
  TicketManagement.text note 2000 false
  ensure (r.status = .awaitingConfirmation ∧ r.activeQuoteId = some quoteId) (conflict "TICKET_QUOTE_SUPERSEDED")
  let q ← quote db (some quoteId)
  ensure (draw.now < q.confirmationDeadlineAt) (conflict "TICKET_QUOTE_EXPIRED")
  let selected ← activeSelections db r
  q.validate r.action r.currency (amountsOf selected) draw.now
  let metadata := Value.object [("quoteId", .str quoteId.text),
    ("decision", .str (if approved then "approved" else "rejected")), ("amount", .ofInt q.customerAmountMinor)]
  if approved then
    let (db, r) ← approve desk db actor r quoteId q draw
    return ⟨db, { r with approvedQuoteId := some quoteId, status := .approved }, "customer-approved", note, metadata⟩
  else
    return ⟨db, { r with status := .rejected, terminalOutcome := some .customerRejected }, "customer-rejected", note,
      metadata⟩

/-- `Mutation::Assign`. -/
def assign (db : Db) (actor : Actor) (r : Request) (assignee : String) (reason : Option String) :
    Except ApiError Step := do
  operate actor.role
  TicketManagement.text reason 2000 false
  ensure (r.status = .approved) invalidTransition
  let member ← fetch (db.records.staff.find? fun s => s.1 = assignee) forbidden
  return ⟨db, { r with assigneeUserId := some assignee, assigneeRole := some member.2 }, "settlement-assigned", reason,
    .object [("assigneeUserId", .str assignee), ("assigneeRole", .str member.2)]⟩

/-- `reopen`. -/
def reopen (r : Request) : Request :=
  { r with
    status := .inProgress
    activeQuoteId := none
    approvedQuoteId := none
    holdOperationId := none
    assigneeUserId := none
    assigneeRole := none }

/-- `Mutation::Requote`. -/
def requote (db : Db) (actor : Actor) (r : Request) (reason : String) : Except ApiError Step := do
  operate actor.role
  TicketManagement.text (some reason) 2000 true
  ensure (r.status = .approved ∧ r.holdOperationId = none) (conflict "TICKET_HOLD_RELEASE_REQUIRED")
  return ⟨db, reopen r, "requote-started", some reason, .object []⟩

/-- `validate_hold`: the operation of a request is the reserved debit of its approved quote. -/
def validateHold (db : Db) (r : Request) : Except ApiError Uuid := do
  let q ← quote db r.approvedQuoteId
  let id ← fetch r.holdOperationId holdUnavailable
  ensure ((∃ o ∈ db.wallet.operations, o.id = id ∧ o.walletAccountId = r.walletAccountId ∧
    o.bookingId = some r.bookingId ∧ o.subjectKind = .ticketManagement ∧ some o.subjectId = r.approvedQuoteId ∧
    o.currency.text = r.currency ∧ o.amount = q.customerAmountMinor ∧ o.state = .reserved) ∧ q.direction = .debit)
    holdUnavailable
  return id

/-- `Mutation::ReleaseReissue` and `Mutation::ReleaseVoid`. -/
def release (desk : Desk) (db : Db) (actor : Actor) (r : Request) (reason : String) (draw : Draw) :
    Except ApiError Step := do
  finance actor.role actor.externalUserId r.assigneeUserId
  TicketManagement.text (some reason) 2000 true
  ensure (r.status = .approved ∧ r.action ≠ .refund) invalidTransition
  match r.holdOperationId with
  | some id => do
    let _ ← validateHold db r
    let (_, wallet) ← Wallet.settle desk.pf db.records.subjects db.wallet id false actor.externalUserId actor.role
      (draw.entry 0)
    let q ← quote db r.approvedQuoteId
    return ⟨{ db with wallet := wallet }, reopen r, "requote-started", some reason,
      .object [("operationId", .str id.text), ("releasedAmount", .ofInt q.customerAmountMinor)]⟩
  | none => return ⟨db, reopen r, "requote-started", some reason, .object []⟩

/-! ## Settling -/

/-- What has been taken of the slices, and what is still to take. -/
abbrev Taking := List (Uuid × Int) × Int

/-- `f.amount.min(remaining)`. -/
def takeSlice (t : Taking) (f : Funding) : Taking :=
  let amount := min f.amount t.2
  if 0 < amount then (t.1 ++ [(f.operationId, amount)], t.2 - amount) else t

/-- The body of the loop over the selected entitlements. -/
def takeEntitlement (t : Taking) (e : Entitlement) : Except ApiError Taking := do
  let total ← TicketManagement.sum (e.funding.map (·.amount))
  ensure (total = e.amount) entitlementConflict
  return e.funding.foldl takeSlice t

/-- The sum of what was taken of each operation, in the order of a `BTreeMap`. -/
def byOperation (taken : List (Uuid × Int)) : List (Uuid × Int) :=
  ((taken.map Prod.fst).dedup.insertionSort fun a b => a.toNat ≤ b.toNat).map fun operation =>
    (operation, ((taken.filter fun c => c.1 = operation).map Prod.snd).sum)

/-- The credit of every operation, and what could not be taken. -/
def credits (selected : List Entitlement) (amount : Int) : Except ApiError (List (Uuid × Int) × Int) := do
  let t ← selected.foldlM takeEntitlement ([], amount)
  return (byOperation t.1, t.2)

/-- The refund of one operation. -/
def refundOf (actor : Actor) (r : Request) (credit : Uuid × Int) : Posting where
  account := r.walletAccountId
  kind := "refund"
  amount := credit.2
  operation := some credit.1
  booking := some r.bookingId
  key := "ticket-management:" ++ r.id.text ++ ":" ++ credit.1.text
  actor := actor.externalUserId
  role := actor.role
  remarks := "Ticket management settlement"
  metadata := .object [("ticketManagementRequestId", .str r.id.text), ("quoteId", idValue r.approvedQuoteId)]

/-- The loop over the credits; the entries are numbered as they are written. -/
def postCredits (desk : Desk) (subjects : List FinancialSubject) (wallet : WalletDb) (actor : Actor) (r : Request)
    (credits : List (Uuid × Int)) (draw : Draw) : Except ApiError (List Uuid × WalletDb) :=
  credits.zipIdx.foldlM (fun s c => do
    let (e, wallet) ← Wallet.post desk.pf subjects s.2 (refundOf actor r c.1) (draw.entry c.2)
    return (s.1 ++ [e.id], wallet)) ([], wallet)

/-- The money of a settlement: a debit captures its hold, a credit refunds the operations. -/
def settleMoney (desk : Desk) (db : Db) (actor : Actor) (r : Request) (q : Quote) (selected : List Entitlement)
    (draw : Draw) : Except ApiError (List Uuid × WalletDb) :=
  match q.direction with
  | .debit => do
    let id ← validateHold db r
    let (_, wallet) ← Wallet.settle desk.pf db.records.subjects db.wallet id true actor.externalUserId actor.role
      (draw.entry 0)
    return ([], wallet)
  | .credit => do
    ensure (r.holdOperationId = none) holdUnavailable
    let (credits, remaining) ← credits selected q.customerAmountMinor
    ensure (remaining = 0) entitlementConflict
    postCredits desk db.records.subjects db.wallet actor r credits draw
  | .none => do
    ensure (r.holdOperationId = none) holdUnavailable
    return ([], db.wallet)

/-- `UPDATE ticket_management_entitlements SET state`, which `protect_ticket_management_entitlement` keeps to
active rows. -/
def close (outcome : Outcome) (rows : List Entitlement) (e : Entitlement) : Except DbError (List Entitlement) := do
  ensure (∀ e' ∈ rows, e'.id = e.id → e'.state = .active)
    (.raised "ticket entitlement identity or terminal state is immutable")
  let state := match outcome with
    | .refunded => EntitlementState.refunded
    | .reissued => .reissued
    | _ => .voided
  return modify Entitlement.id e.id (fun e' => { e' with state := state }) rows

/-- The row that follows a reissued one. -/
def Request.successor (r : Request) (entry : Entitlement × Uuid) (number : String) (amount : Int)
    (added : List Funding) : Entitlement :=
  { entry.1.successor entry.2 number amount added with
    bookingId := r.bookingId
    walletAccountId := r.walletAccountId
    currency := r.currency }

/-- The body of the loop over the new tickets. -/
def succeed (cs : Casing) (r : Request) (tickets : List NewTicket) (rows : List Entitlement)
    (entry : Entitlement × Uuid) : Except ApiError (List Entitlement) := do
  let t ← fetch (ticketOf tickets entry.1.id) (conflict "REISSUE_ALLOCATION_MISMATCH")
  let number := t.number cs
  ensure (∀ e ∈ rows, ¬ (e.bookingId = r.bookingId ∧ e.ticketNumber = number)) (conflict "REISSUE_TICKET_ALREADY_EXISTS")
  let added ← t.funding r.holdOperationId
  let amount ← TicketManagement.sum [entry.1.amount, t.fareDifferenceAmountMinor]
  (insertEntitlement rows (r.successor entry number amount added)).mapError .ofDb

/-- `ticketLineage` of one new row. -/
def lineageOf (tickets : List NewTicket) (cs : Casing) (entry : Entitlement × Uuid) : Value :=
  let t := ticketOf tickets entry.1.id
  .object [("passengerIndex", .ofInt entry.1.passengerIndex), ("predecessorEntitlementId", .str entry.1.id.text),
    ("successorEntitlementId", .str entry.2.text), ("previousTicketNumber", .str entry.1.ticketNumber),
    ("newTicketNumber", .ofOption (t.map fun t => t.number cs)),
    ("fareDifferenceAmount", .ofInt ((t.map (·.fareDifferenceAmountMinor)).getD 0))]

def Direction.text : Direction → String
  | .credit => "credit"
  | .debit => "debit"
  | .none => "none"

/-- The tickets of a reissue are those of its quote. -/
def checkTickets (cs : Casing) (q : Quote) (newTickets : Option (List NewTicket)) : Except ApiError Unit :=
  match newTickets with
  | some tickets => q.validateTickets cs tickets
  | none => .ok ()

/-- The rows that follow the reissued ones. -/
def succeedAll (cs : Casing) (r : Request) (newTickets : Option (List NewTicket))
    (named : List (Entitlement × Uuid)) (rows : List Entitlement) : Except ApiError (List Entitlement) :=
  match newTickets with
  | some tickets => named.foldlM (succeed cs r tickets) rows
  | none => .ok rows

/-- `settle`: the tables, the row and the metadata of the event. -/
def settle (desk : Desk) (db : Db) (actor : Actor) (r : Request) (newTickets : Option (List NewTicket)) (draw : Draw) :
    Except ApiError (Db × Request × Value) := do
  finance actor.role actor.externalUserId r.assigneeUserId
  ensure (r.status = .approved ∧ r.approvedQuoteId.isSome ∧ r.approvedQuoteId = r.activeQuoteId)
    (conflict "TICKET_APPROVAL_REQUIRED")
  let q ← quote db r.approvedQuoteId
  let selected ← activeSelections db r
  checkTickets desk.cs q newTickets
  let _ ← lockAccount db.wallet r.walletAccountId
  let (entries, wallet) ← settleMoney desk db actor r q selected draw
  let outcome := outcomeOf r.action
  let rows ← (selected.foldlM (close outcome) db.entitlements).mapError .ofDb
  let named := selected.zipIdx.map fun e => (e.1, draw.entitlements e.2)
  let rows ← succeedAll desk.cs r newTickets named rows
  let metadata := Value.object [("quoteId", idValue r.approvedQuoteId), ("outcome", .str outcome.text),
    ("amount", .ofInt q.customerAmountMinor), ("direction", .str (Direction.text q.direction)),
    ("ledgerEntryIds", .arr (entries.map fun id => .str id.text)), ("holdOperationId", idValue r.holdOperationId),
    ("ticketLineage", .arr ((newTickets.map fun tickets => named.map (lineageOf tickets desk.cs)).getD []))]
  return ({ db with wallet := wallet, entitlements := rows }, { r with terminalOutcome := some outcome }, metadata)

/-- A completed request of one action. -/
def complete (desk : Desk) (db : Db) (actor : Actor) (r : Request) (action : Action) (eventType : String)
    (newTickets : Option (List NewTicket)) (note : Option String) (draw : Draw) : Except ApiError Step := do
  ensure (r.action = action) actionMismatch
  let (db, r, metadata) ← settle desk db actor r newTickets draw
  return ⟨db, r, eventType, note, metadata⟩

/-- The `match` of `mutate`. -/
def apply (desk : Desk) (db : Db) (actor : Actor) (r : Request) (input : Mutation) (draw : Draw) : Except ApiError Step :=
  match input with
  | .review accept note => review db actor r accept note
  | .publishQuote q => publishQuote desk db actor r q draw
  | .customerDecision quoteId approved note => customerDecision desk db actor r quoteId approved note draw
  | .requote reason => requote db actor r reason
  | .assign assignee reason => assign db actor r assignee reason
  | .completeRefund note => complete desk db actor r .refund "refund-completed" none note draw
  | .completeReissue tickets note => complete desk db actor r .reissue "reissue-completed" (some tickets) note draw
  | .completeVoid note => complete desk db actor r .void "void-completed" none note draw
  | .releaseReissue reason => release desk db actor r reason draw
  | .releaseVoid reason => release desk db actor r reason draw

/-- The request that a release is for. -/
def Mutation.fits (input : Mutation) (r : Request) : Bool :=
  match input with
  | .releaseReissue _ => r.action = .reissue
  | .releaseVoid _ => r.action = .void
  | _ => true

/-- `mutate`. -/
def mutate (desk : Desk) (db : Db) (actor : Actor) (r : Request) (input : Mutation) (draw : Draw) :
    Except ApiError (Value × Db) := do
  ensure (input.fits r) actionMismatch
  ensure (r.terminalOutcome = none) (conflict "TICKET_REQUEST_TERMINAL")
  let s ← apply desk db actor r input draw
  TicketManagement.text s.note 2000 false
  let (saved, db) ← save s.db s.request r.status draw.now
  let db ← event db saved actor.externalUserId actor.role s.eventType (some r.status) s.note s.metadata
  return (result saved, db)

end ShaponTravels.Wallet.Tickets
