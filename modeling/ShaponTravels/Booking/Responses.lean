import ShaponTravels.Booking.Evidence
import ShaponTravels.Booking.Passengers
import ShaponTravels.Pricing.BigDecimal

/-!
# Responses — what a supplier answers to `Book` and `NewTicket`

The verifiers of `booking.rs` and `ticketing.rs`: a response is compared with the accepted offer and
rewritten for the client.
-/

namespace ShaponTravels.Booking

/-! ## Money and itineraries -/

/-- `booking::money`. -/
def money (v : Value) : Option BigDecimal := if v.isNumber then BigDecimal.parse v.text else none

/-- Two prices are the same amount. -/
def sameMoney (a b : Value) : Option Bool := do
  let x ← money a
  let y ← money b
  return x.cmp y = .eq

/-- The prices under every key are the same. -/
def samePrices (keys : List String) (a b : Value) : Option Bool :=
  keys.foldlM (fun same key => do return same && (← sameMoney (a.field key) (b.field key))) true

/-- The signature of a segment. -/
def segmentSignature (s : Value) : List Value :=
  ["from", "to", "airlineCode", "flightNumber", "departure", "arrival", "bookingClass",
    "cabinClass"].map s.field

/-- `itinerary`: the segments of the options of each direction. -/
def itinerary (fare : Value) : Option (List (List (List (List Value)))) := do
  let groups ← (fare.field "directions").asArray?
  groups.mapM fun group => do
    let options ← group.asArray?
    options.mapM fun option => do
      let segments ← (option.field "segments").asArray?
      guard (segments ≠ [])
      return segments.map segmentSignature

/-- A cabin label that is absent. -/
def noCabin (v : Value) : Bool := v.isNull || v.asStr? = some ""

/-- Two segments are the same flight; a cabin label counts when both have one. -/
def sameSegment (a b : List Value) : Bool :=
  let cabin := a.getD 7 .null
  let cabin' := b.getD 7 .null
  if (!noCabin cabin && cabin.asStr?.isNone) || (!noCabin cabin' && cabin'.asStr?.isNone) then false
  else if noCabin cabin || noCabin cabin' then a.set 7 .null = b.set 7 .null
  else a = b

/-- Two lists of one length agree member by member. -/
def agree {α : Type} (same : α → α → Bool) (as bs : List α) : Bool :=
  as.length = bs.length && (as.zip bs).all fun p => same p.1 p.2

/-- `same_held_itinerary`. -/
def sameHeldItinerary (a b : Value) : Option Bool := do
  let x ← itinerary a
  let y ← itinerary b
  return agree (agree (agree sameSegment)) x y

/-! ## References -/

/-- The fields that hold a reference. -/
def isReference (key : String) : Bool :=
  containsText (toAsciiLowercase key) "ref" || key = "uniqueTransID" || key = "avlSrc"

mutual

/-- `search::bind_references`; `fresh` is the identifier drawn for a reference that is not mapped. -/
def bindReferences (fresh : String → Uuid) (map : Value) : Value → Value
  | .obj fields => .obj (bindReferenceFields fresh map fields)
  | .arr values => .arr (bindReferenceValues fresh map values)
  | v => v

def bindReferenceValues (fresh : String → Uuid) (map : Value) : List Value → List Value
  | [] => []
  | v :: values => bindReferences fresh map v :: bindReferenceValues fresh map values

def bindReferenceFields (fresh : String → Uuid) (map : Value) :
    List (String × Value) → List (String × Value)
  | [] => []
  | (key, v) :: fields =>
    let bound := match v with
      | .str text =>
        if isReference key && text ≠ "" then (map.get? text).getD (.str (fresh text).text) else v
      | v => bindReferences fresh map v
    (key, bound) :: bindReferenceFields fresh map fields

end

/-- The identity a field of a response stands for. -/
def boundIdentity (q : Quote) (id : Uuid) : String → Option Uuid
  | "uniqueTransID" => some q.searchId
  | "itemCodeRef" => some q.offerId
  | "priceCodeRef" => some q.priceId
  | "bookingCodeRef" => some id
  | _ => none

mutual

/-- `bind_booking_identities`. -/
def bindIdentities (q : Quote) (id : Uuid) : Value → Value
  | .obj fields => .obj (bindIdentityFields q id fields)
  | .arr values => .arr (bindIdentityValues q id values)
  | v => v

def bindIdentityValues (q : Quote) (id : Uuid) : List Value → List Value
  | [] => []
  | v :: values => bindIdentities q id v :: bindIdentityValues q id values

def bindIdentityFields (q : Quote) (id : Uuid) : List (String × Value) → List (String × Value)
  | [] => []
  | (key, v) :: fields =>
    let bound := match v, boundIdentity q id key with
      | .str _, some identity => .str identity.text
      | v, _ => bindIdentities q id v
    (key, bound) :: bindIdentityFields q id fields

end

/-! ## Flights -/

/-- Writing to a field that is there. -/
def modifyField (v : Value) (key : String) (f : Value → Value) : Value :=
  match v.get? key with
  | some x => v.setField key (f x)
  | none => v

/-- The selling prices take the place of the supplier's, where there are any. -/
def sellingPrices (keys : List String) (selling v : Value) : Value :=
  keys.foldl (fun v key => modifyField v key fun _ => selling.field key) v

/-- A fare of the flight has the accepted prices. -/
def acceptedFare (flight original : Value) (entry : String × Value) : Option Unit := do
  let count ← entry.2.asU64?
  if count = 0 then return ()
  else
    guard (← samePrices ["totalPrice", "basePrice", "taxes", "ait"]
      ((flight.field "passengerFares").field entry.1)
      ((original.field "passengerFares").field entry.1))

/-- The flight of a response: the accepted itinerary at the accepted prices, rewritten to the selling
prices. -/
def projectFlight (flight original selling : Value) : Option Value := do
  guard (← sameHeldItinerary flight original)
  guard ((flight.get? "currency").isNone ∨ flight.field "currency" = original.field "currency")
  guard (flight.field "passengerCounts" = original.field "passengerCounts")
  let components ← (flight.field "bookingComponents").asArray?
  guard (components.length = 1)
  let present := ["totalPrice", "basePrice", "taxes"].filter fun key => (flight.get? key).isSome
  guard (← samePrices present flight original)
  let counts ← (original.field "passengerCounts").asObject?
  let _ ← (Value.entries counts).mapM (acceptedFare flight original)
  guard (← samePrices ["totalPrice", "basePrice", "taxes", "ait"]
    ((flight.field "bookingComponents").item 0) ((original.field "bookingComponents").item 0))
  let kinds := (Value.entries counts).filter fun entry => entry.2.asU64? ≠ some 0
  let flight := kinds.foldl (fun flight entry =>
    modifyField flight "passengerFares" fun fares =>
      modifyField fares entry.1 (sellingPrices ["totalPrice", "discountPrice"]
        ((selling.field "passengerFares").field entry.1))) flight
  let flight := modifyField flight "totalPrice" fun _ => selling.field "totalPrice"
  return modifyField flight "bookingComponents" fun components =>
    components.updateItem 0 (sellingPrices ["totalPrice", "discountPrice"]
      ((selling.field "bookingComponents").item 0))

/-- `project_booking_response`. -/
def projectBookingResponse (fresh : String → Uuid) (body : Value) (q : Quote) (id : Uuid) :
    Option Value := do
  let info := body.field "item1"
  guard (["totalPrice", "passengerFares", "bookingComponents"].all fun key => (info.get? key).isNone)
  let result ← match info.get? "flightInfo" with
    | some flight => (projectFlight flight (q.original.field "item1")
        (q.selling.field "item1")).map fun flight =>
          modifyField body "item1" fun info => info.setField "flightInfo" flight
    | none => some body
  let refs ← q.referenceMap.asObject?
  let code ← (info.field "bookingCodeRef").asStr?
  let map := Value.obj (Value.insertField code (.str id.text) refs)
  let result := bindIdentities q id (bindReferences fresh map result)
  return match (q.selling.field "item1").get? "fareBreakdown" with
    | none => result
    | some breakdown => result.updateField "item1" fun info =>
        let info := info.setField "fareBreakdown" breakdown
        if (info.field "flightInfo").isObject then
          info.updateField "flightInfo" fun flight => flight.setField "fareBreakdown" breakdown
        else info

/-! ## Held bookings -/

/-- `held_response`. -/
def heldResponse (fresh : String → Uuid) (body : Value) (q : Quote) (id : Uuid) : Option Value := do
  let info := body.field "item1"
  guard (isSuccess body ∧ info.field "bookingStatus" = .str "Created" ∧
    (nonEmptyText (info.field "pnr")).isSome ∧ (nonEmptyText (info.field "bookingCodeRef")).isSome ∧
    ¬ containsTicket body)
  projectBookingResponse fresh body q id

/-! ## Issued tickets -/

/-- A ticket number beside those of the tickets before it. -/
def takeNumber (taken : List String) (v : Value) : Option (List String) := do
  let n ← v.asStr?
  guard (isTicketNumber n ∧ n ∉ taken)
  return n :: taken

/-- What a client sees of a ticket. -/
def publicTicket (ticket : Value) (nums : List Value) : Value :=
  let info := ticket.field "passengerInfo"
  .object [("passengerInfo", .object [("nameElement", info.field "nameElement"),
      ("passengerType", info.field "passengerType"), ("gender", info.field "gender")]),
    ("ticketNumbers", .arr nums)]

/-- The variables of the loop over the tickets. -/
structure Placed where
  seen : List Nat
  numbers : List String
  tickets : List Value

/-- The body of the loop: a ticket goes to the position of the one passenger it matches. -/
def placeTicket (cs : Casing) (booked : List Value) (supplier : String) (countsVerified : Bool)
    (s : Placed) (ticket : Value) : Option Placed :=
  match candidates cs booked (ticket.field "passengerInfo") supplier countsVerified with
  | [(_, i)] => do
    guard (i ∉ s.seen)
    let nums ← (ticket.field "ticketNumbers").asArray?
    guard (nums ≠ [])
    let numbers ← nums.foldlM takeNumber s.numbers
    return ⟨i :: s.seen, numbers, s.tickets.set i (publicTicket ticket nums)⟩
  | _ => none

/-- The passenger counts of the response are those of the offer. -/
def countsVerified (body : Value) (q : Quote) : Bool :=
  ((body.field "item1").field "flightInfo").field "passengerCounts" =
    (q.original.field "item1").field "passengerCounts"

/-- `if let Some(…) = source.get(key)`. -/
def copyPart (source : Value) (key : String) (item : Value) : Value :=
  match source.get? key with
  | some v => item.setField key v
  | none => item

theorem field_copyPart_ne {source item : Value} {key other : String} (h : other ≠ key) :
    (copyPart source key item).field other = item.field other := by
  unfold copyPart
  split
  · exact Value.field_setField_ne h
  · rfl

/-- `issued_response`. -/
def issuedResponse (cs : Casing) (fresh : String → Uuid) (body payload passengers : Value)
    (q : Quote) (id issue : Uuid) : Option Value := do
  let info := body.field "item1"
  guard (isSuccess body ∧ info.field "pnr" = payload.field "PNR" ∧
    (nonEmptyText (info.field "ticketCodeRef")).isSome)
  guard (codesAgree info payload)
  let expected ← passengers.asArray?
  let tickets ← (info.field "ticketInfoes").asArray?
  guard (expected ≠ [] ∧ tickets.length = expected.length)
  let placed ← tickets.foldlM (placeTicket cs expected q.supplierId (countsVerified body q))
    ⟨[], [], List.replicate expected.length .null⟩
  let projected ← projectBookingResponse fresh body q id
  let item := Value.object [("pnr", payload.field "PNR"), ("bookingCodeRef", .str id.text),
    ("priceCodeRef", .str q.priceId.text), ("itemCodeRef", .str q.offerId.text),
    ("uniqueTransID", .str q.searchId.text), ("ticketCodeRef", .str issue.text),
    ("ticketInfoes", .arr placed.tickets)]
  let item := copyPart (projected.field "item1") "flightInfo" item
  let item := copyPart (projected.field "item1") "fareBreakdown" item
  return .object [("item1", item), ("item2", .object [("isSuccess", .bool true)])]

end ShaponTravels.Booking
