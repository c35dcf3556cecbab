import ShaponTravels.Imports.Itinerary
import ShaponTravels.Imports.Pricing

/-!
# Document — the receipt of an import

`portal_imports/receipt.rs` and the rest of `portal_imports/api.rs`: the document that is shown of an import,
and what a machine client reads of it.
-/

namespace ShaponTravels.Imports

open Library Pricing BigDecimal
open Booking (Casing)
open Wallet (conflict)

/-! ## The fare of the ticket -/

/-- What the document is written with: `n as f64 / 100.0` as a number, times, and the selling fares with their
margin, which are computed in floating point. -/
structure Writer where
  cents : Int → String
  instant : Int → String
  selling : Value → Int → List Value × Value

/-- Explicit field selection. -/
def pick (v : Value) (keys : List String) : Value :=
  .object (keys.filterMap fun key => (v.get? key).map fun x => (key, x))

/-- `minor` of `ticket_fare`. -/
def minor (v : Value) : Option Int := do
  let amount ← decimal v
  let cents := amount.mul (ofInt 100)
  let integral := cents.withScale 0
  guard (cents.cmp integral = .eq)
  (i64? integral.digits).filter fun n => 0 ≤ n

/-- The amounts of a saved fare, of all passengers of its type. -/
structure Ticket where
  kind : String
  count : Nat
  base : Int
  taxes : Int
  ait : Int

def Ticket.gross (t : Ticket) : Int := t.base + t.taxes + t.ait

def ticketOf (cs : Casing) (fare : Value) : Option Ticket := do
  let type ← (fare.field "passengerType").asStr?
  let count ← (fare.field "count").asU64?.filter fun n => 0 < n ∧ n ≤ 20
  let base ← minor (fare.field "basePrice")
  let taxes ← minor (fare.field "taxes")
  let service ← minor ((fare.get? "serviceCharge").getD (.ofInt 0))
  let taxes ← i64? (taxes + service)
  let ait ← minor (fare.field "ait")
  let fare ← i64? (base + taxes)
  let _ ← i64? (fare + ait)
  return ⟨cs.uppercase type, count, base, taxes, ait⟩

/-- The row of the document. -/
def Ticket.row (w : Writer) (t : Ticket) : Value :=
  .object [("passengerType", .str t.kind), ("count", .ofInt t.count), ("basePrice", .num (w.cents t.base)),
    ("taxes", .num (w.cents t.taxes)), ("ait", .num (w.cents t.ait)), ("serviceMargin", .ofInt 0),
    ("totalPrice", .num (w.cents t.gross))]

/-- The variables of the loop of `build`. -/
structure Tickets where
  seen : Value
  total : Int
  rows : List Value

/-- The body of the loop. -/
def ticketRow (cs : Casing) (w : Writer) (s : Tickets) (fare : Value) : Option Tickets := do
  let t ← ticketOf cs fare
  let total ← i64? (s.total + t.gross)
  let accumulated := (s.seen.field t.kind).asU64?.getD 0 + t.count
  guard (accumulated < 2 ^ 64)
  return ⟨s.seen.setField t.kind (.ofInt accumulated), total, s.rows ++ [t.row w]⟩

/-- The rows a receipt is built from: those of the supplier, or the fares that were read. -/
def fareSource (data : Value) : Option (List Value) :=
  ((data.field "supplierFares").asArray?.filter fun rows => rows ≠ []).or (data.field "fares").asArray?

/-- `build` of `ticket_fare`. -/
def buildFares (cs : Casing) (w : Writer) (data : Value) (gross : Int) (counts : Value) : Option (List Value) := do
  let source ← fareSource data
  let s ← source.foldlM (ticketRow cs w) ⟨.object [], 0, []⟩
  guard (s.total = gross ∧ s.seen = counts)
  return s.rows

/-- `ticket_fare`. -/
def ticketFare (cs : Casing) (w : Writer) (data : Value) (gross : Int) (counts : Value) : Value :=
  .object [("totalPrice", .num (w.cents gross)), ("fares", .arr ((buildFares cs w data gross counts).getD []))]

/-! ## The document -/

def travellerKeys : List String :=
  ["passengerType", "title", "firstName", "lastName", "gender", "dateOfBirth", "passportNumber",
    "passportExpiry", "issuingCountry", "nationality"]

def segmentKeys : List String :=
  ["from", "fromAirport", "to", "toAirport", "departureTerminal", "arrivalTerminal", "departure", "arrival",
    "airline", "airlineCode", "operatingCarrierCode", "codeshare", "flightNumber", "cabinClass", "bookingClass",
    "duration", "aircraft", "baggage", "handBaggage", "seatsLeft"]

def documentLeg (leg : Value) : Value :=
  (pick leg ["from", "to", "stops", "duration", "departure", "arrival"]).setField "segments"
    (.arr (((leg.field "segments").asArray?.getD []).map fun s => pick s segmentKeys))

def documentItinerary (itinerary : Value) (legs : List Value) : Value :=
  (pick itinerary ["carrierCode", "carrierName", "refundable", "codeshare"]).setField "legs"
    (.arr (legs.map documentLeg))

/-- The travellers of each type, as they are spelled. -/
def travellerCounts (travellers : List Value) : Value :=
  tally (travellers.map fun p => ((p.field "passengerType").asStr?.getD "ADT", 1))

/-- The tickets, those that were exchanged replaced. -/
def currentTickets (tickets : List Value) (metadata : Value) : List Value :=
  ((metadata.field "management").asArray?.getD []).foldl (fun tickets current =>
    match (current.field "passengerIndex").asU64? with
    | some index => tickets.set index (current.field "ticketNumber")
    | none => tickets) tickets

/-- What the queries add to the row of an import: its refreshed itinerary, its agency, its times and the
state of its management. -/
structure Reading where
  itinerary : Option Value
  agencyName : Value
  agencyEmail : Value
  createdAt : Value
  updatedAt : Value
  metadata : Value

/-- `row["data"]` of a document. -/
def ImportBooking.shownData (b : ImportBooking) (r : Reading) : Value :=
  b.data.setField "itinerary" (r.itinerary.getD (b.data.field "itinerary"))

/-- The booking of the document. -/
def documentBooking (cs : Casing) (w : Writer) (b : ImportBooking) (r : Reading) (counts itinerary : Value) :
    Value :=
  let data := b.shownData r
  let confirmed := b.status = .confirmed
  let (fares, margin) := w.selling data b.payableMinor
  .object [("bookingId", .str b.id.text), ("publicRef", .str ((importReference b.data).getD b.publicRef)),
    ("status", .str (statusText b.status)), ("statusMessage", .null),
    ("paymentState", if b.operationId.isNone then .str "unpaid" else r.metadata.field "managementPaymentState"),
    ("currency", .str b.currency), ("totalPrice", .num (w.cents b.payableMinor)), ("serviceMargin", margin),
    ("ticketFare", ticketFare cs w data b.grossMinor counts), ("passengerCounts", counts),
    ("travelDate", .str ((data.field "travelDate").asStr?.getD "")), ("directTicketing", .bool false),
    ("passportRequired", .bool ((data.field "passportRequired").asBool?.getD false)),
    ("itinerary", itinerary), ("fares", .arr fares), ("repricedAt", r.createdAt),
    ("headerContact", .object [("name", r.agencyName), ("licenseNo", .str b.agencyCode), ("email", r.agencyEmail),
      ("mobile", .str ""), ("address", .str ""), ("logoUrl", .null)]),
    ("pnr", data.field "pnr"), ("airlinesPnr", .arr ((data.field "airlinesPnr").asArray?.getD [])),
    ("bookingRefNumber", .null), ("bookingStatus", .str (if confirmed then "Ticketed" else "Booked")),
    ("ticketingTimeLimit", data.field "ticketingTimeLimit"),
    ("ticketingDeadlineAt", data.field "ticketingDeadlineAt"),
    ("ticketNumbers", .arr (currentTickets ((data.field "ticketNumbers").asArray?.getD []) r.metadata)),
    ("warnings", .arr []), ("bookedAt", r.createdAt), ("processingSince", .null),
    ("issuedAt", b.issuedAt.elim .null fun time => .str (w.instant time)),
    ("cancelledAt", if b.status = .cancelled then r.updatedAt else .null)]

/-- `receipt::document`, of the row that was found. -/
def document (cs : Casing) (w : Writer) (b : ImportBooking) (r : Reading) : Except ApiError Value := do
  let data := b.shownData r
  let travellers ← fetch ((data.field "passengers").field "travellers").asArray? invalid
  let travellers := travellers.map fun p => pick p travellerKeys
  let counts := travellerCounts travellers
  let legs ← fetch ((data.field "itinerary").field "legs").asArray? invalid
  let itinerary := documentItinerary (data.field "itinerary") legs
  return .object [("booking", documentBooking cs w b r counts itinerary), ("travellers", .arr travellers),
    ("source", .str b.source), ("version", .ofInt b.version),
    ("requestReferences", r.metadata.field "requestReferences")]

/-! ## What a machine client reads -/

/-- A row of `portal_import_api_references`. -/
structure References where
  transactionId : Uuid
  itemId : Uuid
  priceId : Uuid
  ticketId : Uuid

/-- The columns the reads of a client use. -/
def ImportBooking.row (b : ImportBooking) (refs : References) (operationState : Value) : Value :=
  .object [("id", .str b.id.text), ("public_ref", .str b.publicRef), ("agency_code", .str b.agencyCode),
    ("source", .str b.source), ("currency", .str b.currency), ("gross_minor", .ofInt b.grossMinor),
    ("payable_minor", .ofInt b.payableMinor), ("status", .str (statusText b.status)), ("data", b.data),
    ("operation_id", b.operationId.elim .null fun id => .str id.text), ("version", .ofInt b.version),
    ("transaction_id", .str refs.transactionId.text), ("item_id", .str refs.itemId.text),
    ("price_id", .str refs.priceId.text), ("ticket_id", .str refs.ticketId.text),
    ("operation_state", operationState)]

/-- `api::load`, of the row that was found. -/
def load (cs : Casing) (w : Writer) (b : ImportBooking) (r : Reading) (refs : References) (operationState : Value) :
    Except ApiError Imported := do
  let document ← document cs w b r
  return ⟨b.row refs operationState, document⟩

namespace Imported

variable (i : Imported)

def confirmed : Bool := i.row.field "status" = .str "confirmed"

def references : Value :=
  .object [("uniqueTransID", i.row.field "transaction_id"), ("itemCodeRef", i.row.field "item_id"),
    ("priceCodeRef", i.row.field "price_id"), ("bookingCodeRef", i.row.field "id")]

def passengerOf (p : Value) : Value :=
  let passenger := Value.object [
    ("nameElement", .object [("title", .str ((p.field "title").asStr?.getD "")), ("firstName", p.field "firstName"),
      ("lastName", p.field "lastName")]),
    ("gender", p.field "gender"), ("dateOfBirth", p.field "dateOfBirth"),
    ("documentInfo", .object [("documentNumber", p.field "passportNumber"), ("expireDate", p.field "passportExpiry"),
      ("issuingCountry", p.field "issuingCountry"), ("nationality", p.field "nationality")])]
  match (p.field "passengerType").asStr? with
  | some kind => passenger.setField "passengerType" (.str kind)
  | none => passenger

def passengers : List Value := ((i.document.field "travellers").asArray?.getD []).map passengerOf

/-- The status of a booking as the suppliers name it. -/
def bookingStatus : String :=
  match (i.row.field "status").asStr? with
  | some "confirmed" => "Ticketed"
  | some "cancelled" => "Cancelled"
  | some "expired" => "Expired"
  | _ => "Created"

/-- The breakdown of the saved price is shown beside the flight, and in it. -/
def withBreakdown (info breakdown : Value) : Value :=
  let info := info.setField "fareBreakdown" breakdown
  if (info.field "flightInfo").isObject then
    info.setField "flightInfo" ((info.field "flightInfo").setField "fareBreakdown" breakdown)
  else info

/-- `Imported::booking`. -/
def booking (d : Decimals) (cs : Casing) : Value :=
  let b := i.document.field "booking"
  let info := ((((((i.references.setField "pnr" (b.field "pnr")).setField "airlinesPNR" (b.field "airlinesPnr")).setField
    "bookingRefNumber" (b.field "pnr")).setField "bookingStatus" (.str i.bookingStatus)).setField
    "ticketingTimeLimit" (b.field "ticketingTimeLimit")).setField "passengerInfoes" (.arr i.passengers)).setField
    "flightInfo" ((i.flight d cs).getD .null)
  let info := match i.pricing d cs with
    | .ok pricing =>
      if (pricing.field "fareBreakdown").isObject then withBreakdown info (pricing.field "fareBreakdown") else info
    | .error _ => info
  .object [("item1", info), ("item2", .object [("isSuccess", .bool true)])]

/-- `retain` on the keys of an object. -/
def retain (v : Value) (keys : List String) : Value :=
  match v with
  | .obj fields => .obj (fields.filter fun f => f.1 ∈ keys)
  | v => v

def ticketKeys : List String :=
  ["uniqueTransID", "itemCodeRef", "priceCodeRef", "bookingCodeRef", "pnr", "flightInfo", "fareBreakdown"]

/-- Each passenger with the ticket at the same place. -/
def ticketInfo (p : Value × Value) : Value :=
  .object [("passengerInfo", retain p.1 ["nameElement", "passengerType", "gender"]),
    ("ticketNumbers", .arr [p.2])]

def isTicketNumber (v : Value) : Bool :=
  v.asStr?.any fun s => 10 ≤ s.utf8ByteSize && s.utf8ByteSize ≤ 16 && s.toList.all isAsciiDigit

/-- `Imported::ticket`. -/
def ticket (d : Decimals) (cs : Casing) : Except ApiError Value := do
  ensure i.confirmed ⟨.notFound, "NOT_FOUND"⟩
  let body := i.booking d cs
  let _ ← fetch (body.field "item1").asObject? invalidImport
  let tickets ← fetch ((i.document.field "booking").field "ticketNumbers").asArray? invalidImport
  ensure (tickets.length = i.passengers.length) (conflict "IMPORTED_TICKET_ASSOCIATION_UNAVAILABLE")
  ensure (tickets.all isTicketNumber) (conflict "IMPORTED_TICKET_NUMBER_INVALID")
  let item := ((retain (body.field "item1") ticketKeys).setField "ticketCodeRef" (i.row.field "ticket_id")).setField
    "ticketInfoes" (.arr ((i.passengers.zip tickets).map ticketInfo))
  return ((body.setField "item1" item).setField "payment" (.object [("required", .bool true),
    ("state", i.row.field "operation_state"), ("operationId", i.row.field "operation_id")])).setField
    "requiresReconciliation" (.bool (i.row.field "operation_state" ≠ .str "captured"))

/-- A passenger of the report, with the fare of the type. -/
def reportPassenger (cs : Casing) (flight t : Value) : Except ApiError Value := do
  let p := t.field "passengerInfo"
  let type ← fetch (p.field "passengerType").asStr? invalidImport
  let fare := (flight.field "passengerFares").field (cs.lower type)
  return .object [("title", (p.field "nameElement").field "title"), ("first", (p.field "nameElement").field "firstName"),
    ("last", (p.field "nameElement").field "lastName"), ("passengerType", p.field "passengerType"),
    ("ticketNumbers", t.field "ticketNumbers"), ("basePrice", fare.field "basePrice"), ("tax", fare.field "taxes"),
    ("ait", fare.field "ait"), ("totalPrice", fare.field "totalPrice")]

def reportSegment (s : Value) : Value :=
  .object [("origin", s.field "from"), ("destination", s.field "to"), ("departure", s.field "departure"),
    ("arrival", s.field "arrival"), ("flightNumber", s.field "flightNumber"),
    ("operationCarrier", s.field "airlineCode"), ("originName", s.field "fromAirport"),
    ("destinationName", s.field "toAirport"), ("departureTerminal", s.field "departureTerminal"),
    ("arrivalTerminal", s.field "arrivalTerminal"), ("baggage", s.field "baggage"),
    ("handBaggage", s.field "handBaggage")]

/-- A row of the breakdown of the report. -/
def reportFare (cs : Casing) (flight : Value) (f : String × Value) : Value :=
  .object [("passengerType", .str (cs.uppercase f.1)),
    ("passengerCount", (flight.field "passengerCounts").field f.1), ("basePrice", f.2.field "basePrice"),
    ("tax", f.2.field "taxes"), ("ait", f.2.field "ait"), ("totalPrice", f.2.field "totalPrice")]

/-- `Imported::report`. -/
def report (d : Decimals) (cs : Casing) : Except ApiError Value := do
  let ticket ← i.ticket d cs
  let flight ← fetch (i.flight d cs) (conflict "IMPORTED_REPORT_FARE_UNAVAILABLE")
  let infoes ← fetch ((ticket.field "item1").field "ticketInfoes").asArray? invalidImport
  let passengers ← infoes.mapM (reportPassenger cs flight)
  let b := i.document.field "booking"
  let legs := ((b.field "itinerary").field "legs").asArray?.getD []
  let segments := legs.flatMap fun l => ((l.field "segments").asArray?.getD []).map reportSegment
  let fares ← fetch (flight.field "passengerFares").asObject? invalidImport
  return .object [("ticketInfo", .object [("status", .str "Issued"), ("statusFor", .str "Ticket"),
      ("pnr", b.field "pnr"), ("uniqueTransID", i.row.field "transaction_id"),
      ("itemCodeRef", i.row.field "item_id"), ("bookingId", i.row.field "id"),
      ("ticketingPrice", flight.field "totalPrice")]),
    ("passengerInfo", .arr passengers), ("fareBreakdown", .arr (fares.map (reportFare cs flight))),
    ("segments", .arr segments)]

end Imported

end ShaponTravels.Imports
