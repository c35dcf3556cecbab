import ShaponTravels.Booking.Schema
import ShaponTravels.Library.Outcome

/-!
# Site — callers, requests, quotes and the configured suppliers

What a handler is called with besides the database.
-/

namespace ShaponTravels.Booking

open Library

/-! ## Errors -/

/-- `booking::error`. -/
def error (code : String) : ApiError := ⟨.unprocessableEntity, code⟩

def conflict (code : String) : ApiError := ⟨.conflict, code⟩

def forbidden (code : String) : ApiError := ⟨.forbidden, code⟩

def notFound : ApiError := ⟨.notFound, "NOT_FOUND"⟩

/-- A query that expects a row, or a value that is not NULL, and finds none. -/
def noRow : ApiError := .ofDb .noRow

/-! ## Callers -/

/-- `auth::Machine`. -/
structure Machine where
  clientId : Uuid
  audience : String
  agentId : Option Uuid
  permissions : List String
  tier : Option String
  commissionSharePercent : Int

/-- `Machine::require`. -/
def Machine.require (m : Machine) (permission : String) : Except ApiError Unit :=
  ensure (permission ∈ m.permissions) ⟨.forbidden, "FORBIDDEN"⟩

/-- The `Idempotency-Key` header, when it is present and readable as text. -/
def idempotencyKey (header : Option String) : Except ApiError String :=
  fetch (header.filter fun s => s ≠ "" ∧ s.utf8ByteSize ≤ 128 ∧ s.toList.all isAsciiGraphic)
    (error "IDEMPOTENCY_KEY_REQUIRED")

/-! ## Passengers -/

/-- `booking::Name`. -/
structure Name where
  title : String
  firstName : String
  lastName : String
  middleName : Option String

/-- `booking::Document`. -/
structure Document where
  documentNumber : String
  expireDate : String
  issuingCountry : String
  nationality : String
  documentType : Option String

/-- `booking::Contact`. -/
structure Contact where
  phone : String
  phoneCountryCode : String
  email : String
  countryCode : String
  cityName : Option String

/-- `booking::Passenger`. -/
structure Passenger where
  name : Name
  gender : String
  passengerType : String
  dateOfBirth : String
  document : Document
  contact : Contact
  isLeadPassenger : Option Bool

/-- A field that is left out when it is absent. -/
def optionalField (key : String) : Option Value → List (String × Value)
  | some v => [(key, v)]
  | none => []

def Name.toValue (n : Name) : Value :=
  .object ([("title", .str n.title), ("firstName", .str n.firstName), ("lastName", .str n.lastName)]
    ++ optionalField "middleName" (n.middleName.map .str))

def Document.toValue (d : Document) : Value :=
  .object ([("documentNumber", .str d.documentNumber), ("expireDate", .str d.expireDate),
    ("issuingCountry", .str d.issuingCountry), ("nationality", .str d.nationality)]
    ++ optionalField "documentType" (d.documentType.map .str))

def Contact.toValue (c : Contact) : Value :=
  .object ([("phone", .str c.phone), ("phoneCountryCode", .str c.phoneCountryCode),
    ("email", .str c.email), ("countryCode", .str c.countryCode)]
    ++ optionalField "cityName" (c.cityName.map .str))

/-- The JSON a passenger is saved as. -/
def Passenger.toValue (p : Passenger) : Value :=
  .object ([("nameElement", p.name.toValue), ("gender", .str p.gender),
    ("passengerType", .str p.passengerType), ("dateOfBirth", .str p.dateOfBirth),
    ("documentInfo", p.document.toValue), ("contactInfo", p.contact.toValue)]
    ++ optionalField "isLeadPassenger" (p.isLeadPassenger.map .bool))

/-! ## Requests -/

/-- `BookRequest`. -/
structure BookRequest where
  uniqueTransId : String
  itemCodeRef : String
  priceCodeRef : Uuid
  passengerInfoes : List Passenger
  directIssueIntent : Bool
  taxRedemptions : List String
  commissionOnTaxes : List Value

/-- The draft, the creator and the customer contact of a booking made in the portal. -/
structure Creator where
  draft : Uuid
  actor : String
  contact : Value

/-- `serde_json::to_value` of a request. -/
def BookRequest.toValue (r : BookRequest) : Value :=
  .object [("uniqueTransID", .str r.uniqueTransId), ("itemCodeRef", .str r.itemCodeRef),
    ("priceCodeRef", .str r.priceCodeRef.text), ("passengerInfoes", .arr (r.passengerInfoes.map Passenger.toValue)),
    ("directIssueIntent", .bool r.directIssueIntent),
    ("taxRedemptions", .arr (r.taxRedemptions.map .str)),
    ("commissionOnTaxes", .arr r.commissionOnTaxes)]

/-- What the hash of a booking request is taken of. -/
def BookRequest.canonical (r : BookRequest) : Option Creator → Value
  | some c => .object [("request", r.toValue), ("draft", .str c.draft.text),
      ("creator", .str c.actor), ("contact", c.contact)]
  | none => r.toValue

/-- `PnrRequest`, the request of `NewTicket` and of `Cancel`. -/
structure PnrRequest where
  pnr : String
  bookingRefNumber : String
  searchId : Uuid
  priceId : Uuid
  offerId : Uuid
  bookingId : Uuid

def PnrRequest.hash (pf : Platform) (r : PnrRequest) : Digest :=
  pf.digest (Value.arr [.str r.bookingId.text, .str r.searchId.text, .str r.offerId.text,
    .str r.priceId.text, .str r.pnr, .str r.bookingRefNumber]).text

/-! ## Quotes -/

/-- `booking::Quote`. -/
structure Quote where
  offerId : Uuid
  priceId : Uuid
  searchId : Uuid
  supplierId : String
  availabilityEpoch : Int
  original : Value
  selling : Value
  referenceMap : Value
  searchOriginal : Value
  request : Value
  valid : Bool
  accepted : Bool
  repriceRequired : Bool
  latest : Bool
  audience : String
  agentId : Option Uuid
  deriving DecidableEq

/-- The references of a request are those of the booking. -/
def PnrRequest.names (r : PnrRequest) (q : Quote) (pnr : Option String) : Bool :=
  r.searchId = q.searchId && r.offerId = q.offerId && r.priceId = q.priceId &&
    pnr = some r.pnr && r.bookingRefNumber = r.pnr

/-! ## Suppliers -/

/-- A configured supplier: its currency and what its transport can do. -/
structure Supplier where
  currency : Option String
  holdBookingEnabled : Bool
  directIssueEnabled : Bool
  heldTicketingEnabled : Bool
  cancellationEnabled : Bool
  authorizedUatCancellation : Bool

/-- `supplier::SupplierError`. -/
inductive SupplierError where
  | timeout
  | transport
  | authentication
  | configuration
  | response
  | tooLarge
  deriving DecidableEq, Repr

/-- What a supplier call ends with: a body, its own error, or the timeout of the caller. -/
inductive SupplierReply where
  | body (v : Value)
  | failed (e : SupplierError)
  | elapsed
  deriving DecidableEq

def SupplierReply.body? : SupplierReply → Option Value
  | .body v => some v
  | .failed _ | .elapsed => none

/-- The parts of a URL the reviews look at. -/
structure Url where
  scheme : String
  host : Option String
  username : String
  password : Option String

/-- The process: its configuration, and the date, URL and JSON libraries. -/
structure Process where
  pf : Platform
  environment : String
  supplier : String → Option Supplier
  /-- `DateTime::parse_from_rfc3339`, in microseconds -/
  rfc3339 : String → Option Int
  /-- `%d %b %Y, %I:%M %p` at offset +06:00 -/
  localDeadline : String → Option Int
  /-- `%m/%d/%Y %H:%M:%S` -/
  numericDate : String → Bool
  /-- the text `serde_json` gives an instant -/
  instantText : Int → String
  /-- the text `to_jsonb` gives an instant -/
  timestampText : Int → String
  parseUrl : String → Option Url
  /-- whether a value is stored as `jsonb`, which refuses a text with U+0000 -/
  jsonb : Value → Bool

/-- A process and its validators of requests and of supplier responses.  The results hold whatever the validators
decide. -/
structure Site extends Process where
  /-- `booking::validate` -/
  validate : BookRequest → Quote → Bool → Except ApiError Unit
  /-- `booking::held_response` -/
  heldResponse : Value → Quote → Uuid → Option Value
  /-- `ticketing::issued_response` of a body, payload, passengers, quote, booking and issue -/
  issuedResponse : Value → Value → Value → Quote → Uuid → Uuid → Option Value
  /-- `report::recover` of a report, request, payload, quote, booking and issue -/
  recover : Value → Value → Value → Quote → Uuid → Uuid → Option Value

/-! ## Jobs -/

/-- The supplier mutations. -/
inductive Task where
  | book
  | bookDirect
  | newTicket
  | cancel
  deriving DecidableEq, Repr

/-- A supplier mutation and the reservation it was committed with. -/
structure Job where
  task : Task
  /-- the booking, the issue or the cancellation that was inserted for it -/
  row : Uuid
  booking : Uuid
  client : Uuid
  payload : Value
  passengers : Value
  quote : Quote
  deriving DecidableEq

/-- The task and the reservation identify a job. -/
def Job.key (j : Job) : Task × Uuid := (j.task, j.row)

/-- How a request goes on: with the saved row of an earlier one, or with what comes next. -/
inductive Attempt (ρ κ : Type) where
  | replay (row : ρ)
  | proceed (next : κ)

end ShaponTravels.Booking
