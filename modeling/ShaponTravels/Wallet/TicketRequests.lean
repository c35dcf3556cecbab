import ShaponTravels.Imports.Portal
import ShaponTravels.Wallet.ClientRequests
import ShaponTravels.Wallet.ImportAllocations
import ShaponTravels.Wallet.Nonissuance
import ShaponTravels.Wallet.VoidWindow

/-!
# TicketRequests — the tables of ticket management and the bookings behind them

The rows of migrations 0050 and 0060 that `wallet/ticket_management/store.rs` reads and writes, and the
two queries that find a booking with a captured charge.  Instants are microseconds.
-/

namespace ShaponTravels.Wallet.Tickets

open Library
open Booking (Casing FlightBooking TicketIssue Reprice TicketVerification)
open TicketManagement (Action RequestType Direction Quote NewTicket Funding Entitlement EntitlementState
  InitialEntitlement ReissuePreference CreateRequest CreateCommand Replay unavailable)
open Nonissuance (Actor)

/-! ## Stages -/

/-- `rules::Status`. -/
inductive Status where
  | requested
  | inProgress
  | awaitingConfirmation
  | approved
  | rejected
  | expired
  deriving DecidableEq, Repr

def Status.text : Status → String
  | .requested => "requested"
  | .inProgress => "in-progress"
  | .awaitingConfirmation => "awaiting-confirmation"
  | .approved => "approved"
  | .rejected => "rejected"
  | .expired => "expired"

/-- `rules::Outcome`. -/
inductive Outcome where
  | refunded
  | reissued
  | voided
  | staffRejected
  | customerRejected
  | confirmationExpired
  deriving DecidableEq, Repr

def Outcome.text : Outcome → String
  | .refunded => "refunded"
  | .reissued => "reissued"
  | .voided => "voided"
  | .staffRejected => "staff-rejected"
  | .customerRejected => "customer-rejected"
  | .confirmationExpired => "confirmation-expired"

/-- `rules::outcome_matches`. -/
def outcomeMatches (status : Status) (outcome : Option Outcome) : Bool :=
  match status with
  | .approved => outcome ∈ [none, some .refunded, some .reissued, some .voided]
  | .rejected => outcome ∈ [some .staffRejected, some .customerRejected]
  | .expired => outcome = some .confirmationExpired
  | .requested | .inProgress | .awaitingConfirmation => outcome = none

/-- The pairs that `rules::transition` allows. -/
def follows : Status → Status → Bool
  | .requested, .inProgress | .requested, .rejected => true
  | .inProgress, .awaitingConfirmation | .inProgress, .rejected => true
  | .awaitingConfirmation, .approved | .awaitingConfirmation, .rejected | .awaitingConfirmation, .expired => true
  | .approved, .inProgress => true
  | _, _ => false

/-- `rules::transition`. -/
def transition (start target : Status) (outcome : Option Outcome) : Except ApiError Unit :=
  ensure (follows start target ∧ outcome = none) (conflict "INVALID_TICKET_TRANSITION")

/-! ## Roles -/

/-- The roles of `rules::operate`. -/
def operators : List String := ["staff_support", "admin", "superadmin"]

/-- `rules::operate`. -/
def operate (role : String) : Except ApiError Unit := ensure (role ∈ operators) forbidden

/-- Who may settle: administrators, and the account staff that a request is assigned to. -/
def Settles (role subject : String) (assignee : Option String) : Prop :=
  role ∈ ["admin", "superadmin"] ∨ (role = "staff_account" ∧ assignee = some subject)

instance (role subject : String) (assignee : Option String) : Decidable (Settles role subject assignee) := by
  unfold Settles
  infer_instance

/-- `rules::finance`. -/
def finance (role subject : String) (assignee : Option String) : Except ApiError Unit :=
  ensure (Settles role subject assignee) forbidden

/-- The roles of `rules::owner`. -/
def customers : List String := ["customer", "b2b", "b2b_sub", "client"]

/-- `rules::owner`. -/
def owner (role : String) : Except ApiError Unit := ensure (role ∈ customers) forbidden

/-! ## Rows -/

/-- What a request keeps of its booking as it was when the request was made. -/
structure Snapshot where
  bookingReference : String
  agencyName : Value
  agencyId : Option String
  airlineCode : Value
  flightDate : Value
  issuedAt : Int
  grossFare : Int
  userPayable : Int
  reissuePreferences : List ReissuePreference
  routes : List Value
  deriving DecidableEq

/-- `ticket_management_requests`. -/
structure Request where
  id : Uuid
  publicRef : String
  bookingId : Uuid
  walletAccountId : Uuid
  requestedByUserId : String
  action : Action
  requestType : RequestType
  status : Status
  terminalOutcome : Option Outcome
  version : Int
  currency : String
  requestNote : Option String
  snapshot : Snapshot
  activeQuoteId : Option Uuid
  approvedQuoteId : Option Uuid
  assigneeUserId : Option String
  assigneeRole : Option String
  holdOperationId : Option Uuid
  createdAt : Int
  updatedAt : Int
  statusChangedAt : Int
  deriving DecidableEq

/-- `ticket_management_selections`. -/
structure Selection where
  requestId : Uuid
  entitlementId : Uuid
  deriving DecidableEq

/-- `ticket_management_claims`. -/
structure Claim where
  entitlementId : Uuid
  requestId : Uuid
  deriving DecidableEq

/-- `ticket_management_quotes`. -/
structure QuoteRow where
  id : Uuid
  requestId : Uuid
  quoteVersion : Int
  data : Quote
  confirmationDeadlineAt : Int
  publishedByUserId : String
  publishedByRole : String
  deriving DecidableEq

/-- `ticket_management_events`. -/
structure Event where
  requestId : Uuid
  requestVersion : Int
  eventType : String
  actorId : String
  actorRole : String
  fromStatus : Option Status
  toStatus : Status
  note : Option String
  metadata : Value

/-! ## Bookings -/

/-- A row of `portal_import_bookings`, with the reference of its supplier and the latest details of its
flights. -/
structure ImportedBooking where
  row : Imports.ImportBooking
  bookingReference : Option String
  itinerary : Option Value

/-- `portal_agencies` with the owner and the profile each row is joined to. -/
structure Agency where
  agencyCode : String
  active : Bool
  ownerSubject : String
  ownerStanding : Bool
  name : Option String
  deriving DecidableEq

/-- `api_clients`, as far as an import reads them. -/
structure LinkedClient where
  id : Uuid
  externalUserId : Option String
  active : Bool
  audience : String
  deriving DecidableEq

/-- What the other modules keep of bookings, tickets, agencies, clients and staff. -/
structure Records where
  bookings : List FlightBooking
  issues : List TicketIssue
  reprices : List Reprice
  verifications : List TicketVerification
  imports : List ImportedBooking
  agencies : List Agency
  clients : List LinkedClient
  staff : List (String × String)

/-- The tables. -/
structure Db where
  records : Records
  wallet : WalletDb
  entitlements : List Entitlement
  requests : List Request
  selections : List Selection
  claims : List Claim
  quotes : List QuoteRow
  events : List Event
  replays : List Replay

/-- An import as the financial subject that its trigger registers. -/
def ImportedBooking.subject (b : ImportedBooking) : FinancialSubject :=
  ⟨b.row.id, .imported b.row.publicRef b.bookingReference b.row.operationId b.row.status⟩

/-- `booking_financial_subjects`. -/
def Records.subjects (r : Records) : List FinancialSubject :=
  r.bookings.map (fun b => ⟨b.id, .native b.publicRef⟩) ++ r.imports.map ImportedBooking.subject

/-- `Booking` of `store.rs`. -/
structure ChargedBooking where
  id : Uuid
  publicRef : String
  walletAccountId : Uuid
  operationId : Uuid
  amount : Int
  currency : String
  request : Value
  ticket : Value
  pricing : Value
  selling : Value
  issuedAt : Int
  ownerType : OwnerType
  ownerKey : String
  display : Value
  importData : Option Value

/-- The owner of an account. -/
def ownerOf (w : WalletDb) (account : Uuid) : Option WalletOwner := do
  let a ← lookup WalletAccount.id account w.accounts
  lookup WalletOwner.id a.ownerId w.owners

/-- The rows an actor sees: staff see all, the others those of their owner. -/
def Sees (actor : Actor) (o : WalletOwner) : Prop :=
  actor.staffRead ∨ ∃ own ∈ actor.owner, OwnerType.ofText? own.ownerType = some o.ownerType ∧ own.ownerKey = o.ownerKey

instance (actor : Actor) (o : WalletOwner) : Decidable (Sees actor o) := by
  unfold Sees
  infer_instance

/-- The name of an agency: of its profile or owner, else of the wallet's owner. -/
def Records.displayName (r : Records) (o : WalletOwner) : Value :=
  let named := if o.ownerType = .agency then
    (lookup Agency.agencyCode o.ownerKey r.agencies).bind Agency.name else none
  .object [("name", (named.map .str).getD (o.display.field "name"))]

/-- The verification of an issue. -/
def Records.verification (r : Records) (issue : Uuid) : Option TicketVerification :=
  lookup TicketVerification.issueId issue r.verifications

/-- A booking, its issue, its price and its operation, when they belong together and the charge is captured. -/
def chargedFlight (r : Records) (wallet : WalletDb) (actor : Actor) (reference : String) (client : Option Uuid)
    (b : FlightBooking) (t : TicketIssue) (p : Reprice) (w : WalletOperation) : Option ChargedBooking := do
  let o ← ownerOf wallet w.walletAccountId
  let v := r.verification t.id
  if b.publicRef = some reference ∧ (client.all fun c => b.clientId = c) ∧ t.bookingId = b.id ∧ p.id = b.priceId ∧
      p.clientId = b.clientId ∧ p.acceptedAt.isSome ∧ w.subjectKind = .ticketIssue ∧ w.subjectId = t.id ∧
      w.bookingId = some b.id ∧ w.state = .captured ∧ (t.state = .issued ∨ v.isSome) ∧ Sees actor o then
    some {
      id := b.id, publicRef := reference, walletAccountId := w.walletAccountId, operationId := w.id,
      amount := w.amount, currency := w.currency.text, request := b.request,
      ticket := (v.map (·.publicResponse)).getD (t.publicResponse.getD .null),
      pricing := p.tierPricing.getD .null, selling := p.selling,
      issuedAt := if v.isSome then t.createdAt else t.updatedAt,
      ownerType := o.ownerType, ownerKey := o.ownerKey, display := r.displayName o, importData := none }
  else none

/-- The query of `booking_scoped`. -/
def chargedFlights (r : Records) (wallet : WalletDb) (actor : Actor) (reference : String)
    (client : Option Uuid) : List ChargedBooking :=
  r.bookings.flatMap fun b => r.issues.flatMap fun t => r.reprices.flatMap fun p =>
    wallet.operations.filterMap (chargedFlight r wallet actor reference client b t p)

/-- A client reads the imports of the agency whose owner it was made for, while all of them are active. -/
def Records.readsImport (r : Records) (client : Uuid) (ag : Agency) : Bool :=
  ag.active && ag.ownerStanding && r.clients.any fun c =>
    c.id = client && c.externalUserId = some ag.ownerSubject && c.active && c.audience = "b2b"

/-- An import, its operation and its agency, when they belong together and the charge is captured. -/
def chargedImport (r : Records) (wallet : WalletDb) (actor : Actor) (reference : String) (client : Option Uuid)
    (b : ImportedBooking) (w : WalletOperation) (ag : Agency) : Option (ImportedBooking × WalletOperation × WalletOwner) := do
  let o ← ownerOf wallet w.walletAccountId
  if b.row.operationId = some w.id ∧ w.subjectKind = .manualIssue ∧ w.subjectId = b.row.id ∧
      w.state = .captured ∧ w.amount = b.row.payableMinor ∧ w.currency.text = b.row.currency ∧
      o.ownerType = .agency ∧ o.ownerKey = b.row.agencyCode ∧ ag.agencyCode = b.row.agencyCode ∧
      (b.bookingReference = some reference ∨ b.row.publicRef = reference) ∧ b.row.status = .confirmed ∧
      Sees actor o ∧ client.all (r.readsImport · ag) then
    some (b, w, o)
  else none

/-- An amount as the text of two places (`{}.{:02}`). -/
def twoPlaces (minor : Int) : String :=
  toString (minor / 100) ++ "." ++ (if minor % 100 < 10 then "0" else "") ++ toString (minor % 100)

/-- What `imports::bookings` makes of a row. -/
def importBooking (r : Records) (reference : String)
    (found : ImportedBooking × WalletOperation × WalletOwner) : Except ApiError ChargedBooking := do
  let (b, w, o) := found
  let data := b.row.data
  let travellers ← fetch ((data.field "passengers").field "travellers").asArray? unavailable
  let numbers ← fetch (data.field "ticketNumbers").asArray? unavailable
  let legs ← fetch ((b.itinerary.getD (data.field "itinerary")).field "legs").asArray? unavailable
  let issuedAt ← fetch b.row.issuedAt unavailable
  return {
    id := b.row.id, publicRef := b.bookingReference.getD reference, walletAccountId := w.walletAccountId,
    operationId := w.id, amount := b.row.payableMinor, currency := b.row.currency,
    request := .object [("passengerInfoes", .arr (travellers.map fun p =>
      .object [("passengerType", p.field "passengerType"), ("nameElement", p)]))],
    ticket := .object [("item1", .object [("ticketInfoes", .arr (numbers.map fun n =>
      .object [("ticketNumbers", .arr [n])]))])],
    pricing := .object [("gross", .str (twoPlaces b.row.grossMinor))],
    selling := .object [("item1", .object [("directions", .arr (legs.map fun l => .arr [l]))])],
    issuedAt := issuedAt, ownerType := o.ownerType, ownerKey := o.ownerKey, display := r.displayName o,
    importData := some data }

/-- `imports::bookings`. -/
def chargedImports (r : Records) (wallet : WalletDb) (actor : Actor) (reference : String)
    (client : Option Uuid) : Except ApiError (List ChargedBooking) :=
  (r.imports.flatMap fun b => r.agencies.flatMap fun ag =>
    wallet.operations.filterMap fun w => chargedImport r wallet actor reference client b w ag).mapM
      (importBooking r reference)

/-- The characters of a booking reference. -/
def isReferenceChar (c : Char) : Bool :=
  isAsciiDigit c || ('a' ≤ c && c ≤ 'z') || ('A' ≤ c && c ≤ 'Z') || c = '-'

def notFound : ApiError := ⟨.notFound, "TICKET_REQUEST_NOT_FOUND"⟩

/-- `booking_scoped`. -/
def bookingScoped (db : Db) (actor : Actor) (reference : String) (client : Option Uuid) :
    Except ApiError ChargedBooking := do
  ensure (reference ≠ "" ∧ reference.utf8ByteSize ≤ 40 ∧ reference.toList.all isReferenceChar)
    (invalid "INVALID_BOOKING_REFERENCE")
  let imported ← chargedImports db.records db.wallet actor reference client
  match chargedFlights db.records db.wallet actor reference client ++ imported with
  | [] => .error notFound
  | [b] => do
    let _ ← TicketManagement.minor b.amount
    ensure (¬ b.ticket.isNull ∧ ¬ b.pricing.isNull) unavailable
    return b
  | _ => .error (conflict "AMBIGUOUS_BOOKING_REFERENCE")

end ShaponTravels.Wallet.Tickets
