import ShaponTravels.Booking.Site

/-!
# Evidence — what is read out of supplier responses

Ticket numbers, payloads, the issue preflight and the public reference, as `booking.rs`,
`booking/*.rs` and the database functions read them.
-/

namespace ShaponTravels.Booking

open Library

/-- A ticket field that carries something. -/
def isFilled (v : Value) : Bool := v ≠ .null && v ≠ .arr [] && v ≠ .str ""

/-- A reference a supplier may leave out; when it is there it is `expected`. -/
def absentOr (v expected : Value) : Bool := v = .null || v = .str "" || v = expected

/-- `as_str().filter(|s| !s.is_empty())`. -/
def nonEmptyText (v : Value) : Option String := v.asStr?.filter (· ≠ "")

mutual

/-- `booking::contains_ticket`. -/
def containsTicket : Value → Bool
  | .obj fields => containsTicketFields fields
  | .arr values => containsTicketValues values
  | .null | .bool _ | .num _ | .str _ => false

def containsTicketFields : List (String × Value) → Bool
  | [] => false
  | (k, v) :: fields =>
    (k = "ticketNumbers" && isFilled v) || containsTicket v || containsTicketFields fields

def containsTicketValues : List Value → Bool
  | [] => false
  | v :: values => containsTicket v || containsTicketValues values

end

/-- The references of a servicing payload and where a response has them. -/
def payloadFields : List (String × String) :=
  [("PNR", "pnr"), ("BookingRefNumber", "pnr"), ("BookingCodeRef", "bookingCodeRef"),
    ("UniqueTransID", "uniqueTransID"), ("PriceCodeRef", "priceCodeRef"),
    ("ItemCodeRef", "itemCodeRef")]

/-- The references that may come from the saved request instead. -/
def savedFields : List String := ["uniqueTransID", "priceCodeRef", "itemCodeRef"]

/-- `ticketing::supplier_payload`; `booking::saved_pnr_payload` computes the same. -/
def supplierPayload (original saved : Value) : Option Value := do
  let fields ← payloadFields.mapM fun (target, source) => do
    let v ← (nonEmptyText ((original.field "item1").field source)).or
      (if source ∈ savedFields then nonEmptyText (saved.field source) else none)
    return (target, Value.str v)
  return .object fields

/-- The references of a response against those of a payload. -/
def codeFields : List (String × String) :=
  [("bookingCodeRef", "BookingCodeRef"), ("priceCodeRef", "PriceCodeRef"),
    ("itemCodeRef", "ItemCodeRef"), ("uniqueTransID", "UniqueTransID")]

/-- Every reference the response has is the one of the payload. -/
def codesAgree (info payload : Value) : Bool :=
  codeFields.all fun (key, source) => absentOr (info.field key) (payload.field source)

/-- `item2.isSuccess` is true. -/
def isSuccess (body : Value) : Bool := (body.field "item2").field "isSuccess" = .bool true

/-- `booking::held_pnr_status`. -/
def heldPnrStatus (info : Value) : Bool :=
  info.field "status" = .str "Booked" || info.field "status" = .str "Created"

/-! ## Deadlines -/

/-- `deadline::instant`. -/
def Site.deadlineInstant (site : Site) (raw : String) : Option Int :=
  (site.rfc3339 raw).or (site.localDeadline raw)

/-- `deadline::valid_raw`. -/
def Site.deadlineValid (site : Site) (raw : String) : Bool :=
  (site.deadlineInstant raw).isSome || site.numericDate raw

/-- `booking::pnr_deadline`. -/
def Site.pnrDeadline (site : Site) (body : Value) : Option String :=
  ((body.field "item1").field "lastTicketTime").asStr?.filter site.deadlineValid

def seconds (n : Int) : Int := n * 1000000

/-- `ticketing::deadline_check`. -/
def Site.deadlineCheck (site : Site) (raw : Value) (pnr : Bool) (now margin : Int) :
    Except ApiError String :=
  match raw.asStr? with
  | none => .ok "supplier_validation_required"
  | some text =>
    let explicit := site.rfc3339 text
    match explicit.or (if pnr then site.deadlineInstant text else none) with
    | none => .ok "supplier_validation_required"
    | some deadline => do
      ensure (now + seconds margin < deadline) (conflict "TICKETING_DEADLINE_UNSAFE")
      return if explicit.isSome then "explicit_offset_checked" else "bangladesh_pnr_checked"

/-- `ticketing::issue_preflight`. -/
def Site.issuePreflight (site : Site) (original payload : Value) (verifiedPnr : Option Value)
    (now margin : Int) : Except ApiError Value := do
  ensure (isSuccess original ∧ (original.field "item1").field "bookingStatus" = .str "Created" ∧
    ¬ containsTicket original) (conflict "VERIFIED_HELD_BOOKING_REQUIRED")
  let (deadline, source) ←
    match verifiedPnr with
    | some pnr => do
      let info := pnr.field "item1"
      ensure (isSuccess pnr ∧ info.field "pnr" = payload.field "PNR" ∧ heldPnrStatus info ∧
        ¬ containsTicket pnr ∧ codesAgree info payload) (conflict "ISSUE_READINESS_NOT_VERIFIED")
      pure (info.field "lastTicketTime", "saved_pnr")
    | none => pure ((original.field "item1").field "ticketingTimeLimit", "booking")
  let checked ← site.deadlineCheck deadline (source = "saved_pnr") now margin
  return .object [("source", .str "saved_booking"), ("booking", original),
    ("verifiedPnrObservation", verifiedPnr.getD .null), ("deadlineSource", .str source),
    ("deadline", deadline), ("deadlineCheck", .str checked),
    ("checkedAt", .str (site.instantText now))]

/-- `valid` of `booking::reconcile_owned`. -/
def pnrReadable (body payload : Value) : Bool :=
  let info := body.field "item1"
  isSuccess body && info.field "pnr" = payload.field "PNR" &&
    (match (info.field "status").asStr? with
      | some s => trim s ≠ "" && s.utf8ByteSize ≤ 100 && !s.toList.any isControl
      | none => false) &&
    codesAgree info payload

/-! ## The public reference -/

/-- `value #>> '{}'` of a scalar. -/
def scalarText : Value → Option String
  | .str s => some s
  | .num lexeme => some lexeme
  | .bool b => some (if b then "true" else "false")
  | .null | .arr _ | .obj _ => none

/-- `^[A-Z0-9]{6}$`. -/
def isLocator (s : String) : Bool :=
  s.toList.length = 6 && s.toList.all fun c => ('A' ≤ c && c ≤ 'Z') || isAsciiDigit c

/-- No list of locators: NULL, the JSON null or the empty list. -/
def noLocators (v : Value) : Bool := v = .null || v = .arr []

/-- `booking_reference_from_evidence`. -/
def bookingReferenceFromEvidence (book lookup : Option Value) (verified : Bool) :
    Option String := do
  let book ← book
  let lookup := lookup.getD .null
  guard (scalarText ((book.field "item2").field "isSuccess") = some "true")
  let info := book.field "item1"
  let locator ← scalarText (info.field "pnr")
  guard (isLocator locator)
  let first := info.field "airlinesPNR"
  let second := if noLocators first then info.field "airlinePNRs" else first
  let looked := lookup.field "item1"
  let airlines :=
    if noLocators second ∧ verified ∧ scalarText (looked.field "pnr") = some locator then
      looked.field "airlinePNRs"
    else second
  let values ← airlines.asArray?
  let texts ← values.mapM Value.asStr?
  guard (texts.all isLocator)
  match texts with
  | [] => none
  | airline :: rest => do
    guard (rest.all (· = airline))
    return "STR" ++ locator ++ airline

/-! ## Diagnostics of a booking without a verified hold -/

/-- `outcome::transport_reason`. -/
def transportReason : SupplierError → String
  | .timeout => "BOOKING_TIMEOUT"
  | .transport => "BOOKING_TRANSPORT_ERROR"
  | .authentication => "BOOKING_SUPPLIER_AUTHENTICATION_ERROR"
  | .configuration => "BOOKING_SUPPLIER_CONFIGURATION_ERROR"
  | .response => "BOOKING_RESPONSE_UNVERIFIED"
  | .tooLarge => "BOOKING_RESPONSE_TOO_LARGE"

/-- The reasons `outcome::reason` passes on. -/
def savedReasons : List String :=
  ["BOOKING_TIMEOUT", "BOOKING_TRANSPORT_ERROR", "BOOKING_SUPPLIER_AUTHENTICATION_ERROR",
    "BOOKING_SUPPLIER_CONFIGURATION_ERROR", "BOOKING_RESPONSE_UNVERIFIED",
    "BOOKING_RESPONSE_TOO_LARGE", "DIRECT_ISSUE_OUTCOME_UNKNOWN"]

/-- `outcome::reason`. -/
def outcomeReason (supplier : String) (result : Option Value) (saved : String) : String :=
  if saved = "LATE_BOOKING_OUTCOME" then "LATE_BOOKING_OUTCOME"
  else
    match result.filter fun v => v.field "isSuccess" = .bool false with
    | some result =>
      if supplier = "triplover" ∧ (result.field "message").asStr?.any (fun s =>
          startsWith (trim s) "Duplicate booking for Passenger:") then
        "SUPPLIER_DUPLICATE_REPORTED"
      else "SUPPLIER_REPORTED_FAILURE"
    | none => if saved ∈ savedReasons then saved else "BOOKING_OUTCOME_UNKNOWN"

/-! ## PNR and report receipts -/

/-- `ticket_reconciliation::pnr_verified`. -/
def pnrVerified (body payload : Value) : Bool :=
  let info := body.field "item1"
  isSuccess body && info.field "status" = .str "Ticketed" &&
    info.field "pnr" = payload.field "PNR" && codesAgree info payload

/-- A ticket number: ten to sixteen digits. -/
def isTicketNumber (s : String) : Bool :=
  10 ≤ s.utf8ByteSize && s.utf8ByteSize ≤ 16 && s.toList.all isAsciiDigit

/-- `report::numbers`: the numbers of a list or of a comma-separated text, each once. -/
def ticketNumbers (v : Value) : Option (List String) := do
  let values ←
    match v with
    | .str s => some ((s.toList.splitOn ',').map fun part => trim (String.ofList part))
    | .arr values => values.mapM Value.asStr?
    | .null | .bool _ | .num _ | .obj _ => none
  guard (values.all isTicketNumber ∧ values.Nodup ∧ values ≠ [])
  return values

mutual

/-- `collect` of `pnr_tickets_match`; the set is the list of its members. -/
def collectNumbers : Value → Option (List String)
  | .obj fields => collectFields fields
  | .arr values => collectValues values
  | .null | .bool _ | .num _ | .str _ => some []

def collectFields : List (String × Value) → Option (List String)
  | [] => some []
  | (k, v) :: fields => do
    let here ← if k = "ticketNumbers" ∧ isFilled v then ticketNumbers v else collectNumbers v
    let rest ← collectFields fields
    return here ++ rest

def collectValues : List Value → Option (List String)
  | [] => some []
  | v :: values => do
    let here ← collectNumbers v
    let rest ← collectValues values
    return here ++ rest

end

/-- `ticket_reconciliation::pnr_tickets_match`. -/
def pnrTicketsMatch (pnr receipt : Value) : Bool :=
  match collectNumbers pnr, collectNumbers receipt with
  | some observed, some expected =>
    observed = [] || (observed.all (· ∈ expected) && expected.all (· ∈ observed))
  | _, _ => false

end ShaponTravels.Booking
