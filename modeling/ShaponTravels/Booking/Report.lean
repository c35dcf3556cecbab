import ShaponTravels.Booking.Responses
import ShaponTravels.Pricing.Arithmetic

/-!
# Report — a supplier's ticket report as evidence

`booking/report.rs`: a report is compared with the booked passengers and the accepted offer row by
row, and a recovery takes its tickets.
-/

namespace ShaponTravels.Booking.Report

open BigDecimal (Decimals)

/-- What a report is read with besides the database. -/
structure Reader where
  casing : Casing
  decimals : Decimals
  /-- `NaiveDateTime::parse_from_str` with `%Y-%m-%dT%H:%M:%S%.f`, or else with a blank -/
  instant : String → Option Int

/-- `report::Source`. -/
structure Source where
  supplierId : String
  request : Value
  issueRequest : Option Value
  ticket : Option Value

/-- `datetime`. -/
def Reader.datetime (r : Reader) (v : Value) : Option Int := v.asStr?.bind r.instant

/-- A value that is no object and no list. -/
def isScalar : Value → Bool
  | .obj _ | .arr _ => false
  | _ => true

/-- `copy_fields`. -/
def copyFields (source : Value) (keys : List String) : Value :=
  .object (keys.filterMap fun key => ((source.get? key).filter isScalar).map fun v => (key, v))

/-- The base, the taxes and the advance tax of a fare, less its total. -/
def fareDiscount (fare : Value) : Option BigDecimal := do
  let base ← money (fare.field "basePrice")
  let taxes ← money (fare.field "taxes")
  let ait ← money (fare.field "ait")
  let total ← money (fare.field "totalPrice")
  return ((base.add taxes).add ait).sub total

/-- The prices of a row under the names of a report. -/
def pricesMatch (row fare : Value) : List (String × String) → Option Bool
  | [] => some true
  | (a, b) :: rest => do
    if ← sameMoney (row.field a) (fare.field b) then pricesMatch row fare rest else return false

/-- `fare_matches`. -/
def fareMatches (row fare : Value) : Option Bool := do
  if ← pricesMatch row fare [("basePrice", "basePrice"), ("tax", "taxes"), ("ait", "ait"),
      ("totalPrice", "totalPrice")] then
    match row.get? "discount" with
    | none => return true
    | some discount =>
      let claimed ← money discount
      let expected ← fareDiscount fare
      return claimed.cmp expected = .eq
  else return false

/-- `selling_fare`. -/
def Reader.sellingFare (r : Reader) (row fare : Value) : Option Value := do
  let row := row.setField "totalPrice" (fare.field "totalPrice")
  let discount ← fareDiscount fare
  return ["discount", "discountPrice"].foldl (fun row key =>
    modifyField row key fun _ => .num (r.decimals.display discount)) row

/-- The references of a report that a supplier may leave out. -/
def absentOrEqual (row : Value) (key : String) (expected : Value) : Bool :=
  absentOr (row.field key) expected

/-! ## Rows -/

/-- The passenger a row names. -/
def rowPassenger (row : Value) : Value :=
  .object [("nameElement", .object [("firstName", row.field "first"), ("lastName", row.field "last"),
      ("middleName", row.field "middle")]),
    ("passengerType", row.field "passengerType")]

/-- Two sets of numbers are the same. -/
def sameNumbers (xs ys : List String) : Bool := xs.all (· ∈ ys) && ys.all (· ∈ xs)

/-- The fields of a row a client sees. -/
def publicKeys : List String :=
  ["title", "first", "middle", "last", "fullName", "passengerType", "gender", "dateOfBirth",
    "isLeadPax", "basePrice", "tax", "ait", "discount", "totalPrice", "ticketNumbers", "pnr"]

/-- The variables of the loop over the rows. -/
structure Rows where
  seen : List Nat
  usedTickets : List String
  passengers : List Value

/-- The body of the loop. -/
def Reader.row (r : Reader) (source : Source) (q : Quote) (payload : Value) (booked : List Value)
    (issued : Option (List Value)) (s : Rows) (row : Value) : Option Rows :=
  match candidates r.casing booked (rowPassenger row) source.supplierId true with
  | [(expected, i)] => do
    guard (i ∉ s.seen)
    let kind := r.casing.lower (← (expected.field "passengerType").asStr?)
    let raw := ((q.original.field "item1").field "passengerFares").field kind
    let selling := ((q.selling.field "item1").field "passengerFares").field kind
    guard (← fareMatches row raw)
    guard (row.field "isReissued" ≠ .bool true)
    guard (absentOrEqual row "pnr" (payload.field "PNR") ∧
      absentOrEqual row "uniqueTransID" (payload.field "UniqueTransID") ∧
      absentOrEqual row "currencyName" ((q.original.field "item1").field "currency"))
    guard ((row.get? "passengerCount").all fun count => count.asU64? = some 1)
    let nums ← ticketNumbers (row.field "ticketNumbers")
    let matching := (issued.getD []).countP fun t =>
      (ticketNumbers (t.field "ticketNumbers")).any (sameNumbers nums) &&
        passengerMatches r.casing expected (t.field "passengerInfo") source.supplierId true
    guard (issued.isNone ∨ matching = 1)
    guard (nums.all (· ∉ s.usedTickets))
    let visible ← r.sellingFare (copyFields row publicKeys) selling
    return ⟨i :: s.seen, nums ++ s.usedTickets, s.passengers ++ [visible]⟩
  | _ => none

/-! ## Reports -/

/-- One row of a fare breakdown, after the kinds before it. -/
def Reader.breakdownRow (r : Reader) (q : Quote) (s : List String × List Value) (row : Value) :
    Option (List String × List Value) := do
  let kind := r.casing.lower (← (row.field "passengerType").asStr?)
  let original := q.original.field "item1"
  guard (kind ∉ s.1 ∧ row.field "passengerCount" = (original.field "passengerCounts").field kind)
  guard ((← (row.field "passengerCount").asU64?) ≠ 0)
  guard (← fareMatches row ((original.field "passengerFares").field kind))
  let projected ← r.sellingFare (copyFields row ["passengerType", "passengerCount", "basePrice",
    "tax", "ait", "discount", "discountPrice", "totalPrice"])
    (((q.selling.field "item1").field "passengerFares").field kind)
  return (kind :: s.1, s.2 ++ [projected])

/-- The fare breakdown of a report: a row for each kind with passengers. -/
def Reader.fareBreakdown (r : Reader) (q : Quote) (rows : Value) : Option Value := do
  let (kinds, visible) ← (← rows.asArray?).foldlM (r.breakdownRow q) ([], [])
  let counts ← ((q.original.field "item1").field "passengerCounts").asObject?
  let expected := ((Value.entries counts).filter fun c => c.2.asU64?.any (0 < ·)).map Prod.fst
  guard (sameNumbers kinds expected)
  return .arr visible

/-- One segment of a report against the accepted one. -/
def Reader.segment (r : Reader) (row segment : Value) : Option Value := do
  guard ([("origin", "from"), ("destination", "to"), ("operationCarrier", "airlineCode"),
    ("flightNumber", "flightNumber"), ("bookingCode", "bookingClass")].all fun p =>
      row.field p.1 = segment.field p.2)
  let departure ← r.datetime (row.field "departure")
  let expectedDeparture ← r.datetime (segment.field "departure")
  guard (departure = expectedDeparture)
  let arrival ← r.datetime (row.field "arrival")
  let expectedArrival ← r.datetime (segment.field "arrival")
  guard (arrival = expectedArrival)
  guard (row.field "isCancelled" ≠ .bool true ∧ row.field "isRefunded" ≠ .bool true)
  return copyFields row ["origin", "destination", "originName", "destinationName",
    "originTerminal", "destinationTerminal", "departure", "arrival", "operationCarrier",
    "operationCarrierName", "flightNumber", "bookingCode", "cabinClass", "fareBasisCode",
    "equipment", "travelTime", "airlinePNRs"]

/-- The itinerary of a report, in the order of the accepted one. -/
def Reader.segments (r : Reader) (q : Quote) (rows : Value) : Option Value := do
  let groups ← ((q.original.field "item1").field "directions").asArray?
  let expected ← groups.mapM fun group => do
    match ← group.asArray? with
    | [option] => (option.field "segments").asArray?
    | _ => none
  let rows ← rows.asArray?
  guard (rows.length = expected.flatten.length)
  let visible ← (rows.zip expected.flatten).mapM fun p => r.segment p.1 p.2
  return .arr visible

/-- A part of a report that is projected when it is there. -/
def addPart (result : Value) (key : String) (part : Option Value)
    (project : Value → Option Value) : Option Value :=
  match part with
  | none => some result
  | some v => do return result.setField key (← project v)

/-- The tickets of the saved receipt, if there is one. -/
def issuedTickets : Option Value → Option (Option (List Value))
  | some v => (v.field "ticketInfoes").asArray?.map some
  | none => some none

/-- `report::project`. -/
def Reader.project (r : Reader) (body : Value) (source : Source) (q : Quote) (id : Uuid) :
    Option Value := do
  let ticket := source.ticket.map fun v => v.field "item1"
  let payload ← source.issueRequest
  let info := body.field "ticketInfo"
  guard (info.field "pnr" = payload.field "PNR" ∧
    info.field "uniqueTransID" = payload.field "UniqueTransID" ∧
    info.field "status" = .str "Issued" ∧ info.field "statusFor" = .str "Ticket" ∧
    info.field "isReissued" ≠ .bool true)
  guard (absentOrEqual info "itemCodeRef" (payload.field "ItemCodeRef"))
  guard (← sameMoney (info.field "ticketingPrice") ((q.original.field "item1").field "totalPrice"))
  let reportInfo := [("uniqueTransID", Value.str q.searchId.text), ("itemCodeRef", .str q.offerId.text),
    ("bookingId", .str id.text),
    ("ticketingPrice", (q.selling.field "item1").field "totalPrice")].foldl
    (fun v f => v.setField f.1 f.2)
    (copyFields info ["status", "statusFor", "ticketType", "isCompleted", "isReissued",
      "bookingDate", "issueDate", "bookingType", "journeyType", "pnr", "airlinePNRs",
      "ticketingPrice"])
  let rows ← (body.field "passengerInfo").asArray?
  let booked ← (source.request.field "passengerInfoes").asArray?
  let issued ← issuedTickets ticket
  guard (rows.length = booked.length ∧ issued.all (fun v => v.length = booked.length) ∧ rows ≠ [])
  let s ← rows.foldlM (r.row source q payload booked issued) ⟨[], [], []⟩
  let result := Value.object [("ticketInfo", reportInfo), ("passengerInfo", .arr s.passengers)]
  let result ← addPart result "fareBreakdown" (body.get? "fareBreakdown") (r.fareBreakdown q)
  addPart result "segments" (body.get? "segments") (r.segments q)

/-- The ticket a recovery takes from a row of the projected report. -/
def recoveredTicket (row : Value) : Option Value := do
  let nums ← ticketNumbers (row.field "ticketNumbers")
  return .object [("passengerInfo", .object [("nameElement", .object [("title", row.field "title"),
        ("firstName", row.field "first"), ("middleName", row.field "middle"),
        ("lastName", row.field "last")]),
      ("passengerType", row.field "passengerType"), ("gender", row.field "gender")]),
    ("ticketNumbers", .arr ((nums.mergeSort fun a b => decide (a ≤ b)).map .str))]

/-- `report::recover`. -/
def Reader.recover (r : Reader) (body request payload : Value) (q : Quote) (id issue : Uuid) :
    Option Value := do
  let info := body.field "ticketInfo"
  guard (info.field "isCompleted" = .bool true ∧ (r.datetime (info.field "issueDate")).isSome ∧
    (body.field "segments").asArray?.any (· ≠ []))
  let source : Source := ⟨q.supplierId, request, some payload, none⟩
  let projected ← r.project body source q id
  let rows ← (projected.field "passengerInfo").asArray?
  let tickets ← rows.mapM recoveredTicket
  return .object [("item1", .object [("pnr", payload.field "PNR"), ("bookingCodeRef", .str id.text),
      ("priceCodeRef", .str q.priceId.text), ("itemCodeRef", .str q.offerId.text),
      ("uniqueTransID", .str q.searchId.text), ("ticketCodeRef", .str issue.text),
      ("ticketInfoes", .arr tickets)]),
    ("item2", .object [("isSuccess", .bool true)])]

/-! ## What a recovery keeps of a row -/

open Library

variable {r : Reader} {source : Source} {q : Quote} {id issue : Uuid} {cs : Casing}
  {payload request body evidence : Value} {booked rows : List Value}

theorem get?_copyFields {v : Value} {keys : List String} {key : String} (h : key ∈ keys) :
    (copyFields v keys).get? key = (v.get? key).filter isScalar := by
  let field (key : String) : Option (String × Value) :=
    ((v.get? key).filter isScalar).map fun x => (key, x)
  have hkeys : ∀ f ∈ keys.filterMap field, field f.1 = some f := by
    intro f hf
    obtain ⟨k, -, hk⟩ := List.mem_filterMap.mp hf
    obtain ⟨x, hx, rfl⟩ := Option.map_eq_some_iff.mp hk
    exact hk
  show (Value.object (keys.filterMap field)).get? key = _
  rw [Value.get?_object]
  cases hfound : (keys.filterMap field).reverse.find? (fun f => f.1 = key) with
  | some f =>
    have hkey : f.1 = key := by simpa using List.find?_some hfound
    have hf := hkeys f (List.mem_reverse.mp (List.mem_of_find?_eq_some hfound))
    rw [hkey] at hf
    obtain ⟨x, hx, rfl⟩ := Option.map_eq_some_iff.mp hf
    exact hx.symm
  | none =>
    rw [List.find?_eq_none] at hfound
    cases hx : (v.get? key).filter isScalar with
    | none => rfl
    | some x =>
      have hmem : (key, x) ∈ keys.filterMap field :=
        List.mem_filterMap.mpr ⟨key, h, by simp only [field, hx, Option.map_some]⟩
      exact absurd (decide_eq_true rfl) (hfound (key, x) (List.mem_reverse.mpr hmem))

theorem asStr?_copyFields {v : Value} {keys : List String} {key : String} (h : key ∈ keys) :
    ((copyFields v keys).field key).asStr? = (v.field key).asStr? := by
  rw [Value.field, Value.field, get?_copyFields h]
  cases v.get? key with
  | none => rfl
  | some x => cases x <;> rfl

theorem field_modifyField_ne {v : Value} {key other : String} {f : Value → Value}
    (h : other ≠ key) : (modifyField v key f).field other = v.field other := by
  unfold modifyField
  split
  · exact Value.field_setField_ne h
  · rfl

theorem field_sellingFare {row fare v : Value} {key : String} (h : r.sellingFare row fare = some v)
    (hkey : key ∉ ["totalPrice", "discount", "discountPrice"]) : v.field key = row.field key := by
  simp only [List.mem_cons, List.not_mem_nil, or_false, not_or] at hkey
  simp only [Reader.sellingFare, bind_eq_some] at h
  obtain ⟨discount, -, heq⟩ := h
  obtain rfl := Option.some.inj heq
  simp only [List.foldl_cons, List.foldl_nil]
  rw [field_modifyField_ne hkey.2.2, field_modifyField_ne hkey.2.1, Value.field_setField_ne hkey.1]

/-- The fields of a row that name its passenger. -/
def namingKeys : List String := ["first", "last", "middle", "passengerType"]

/-- What is shown of a row names the passenger the row names, who is one of the booked ones. -/
structure Shown (cs : Casing) (supplier : String) (booked : List Value) (row visible : Value) :
    Prop where
  one : ∃ c, candidates cs booked (rowPassenger row) supplier true = [c]
  names : ∀ key ∈ namingKeys, (visible.field key).asStr? = (row.field key).asStr?

theorem row_shown {issued : Option (List Value)} {s s' : Rows} {row : Value}
    (h : r.row source q payload booked issued s row = some s') :
    ∃ visible, s'.passengers = s.passengers ++ [visible] ∧
      Shown r.casing source.supplierId booked row visible := by
  unfold Reader.row at h
  split at h
  · rename_i expected i hone
    simp only [bind_eq_some, guard_eq_some, exists_const] at h
    obtain ⟨-, _, -, _, -, -, -, -, -, nums, -, -, -, visible, hvisible, heq⟩ := h
    obtain rfl := Option.some.inj heq
    refine ⟨visible, rfl, ⟨_, hone⟩, ?_⟩
    intro key hkey
    have hpublic : key ∈ publicKeys ∧ key ∉ ["totalPrice", "discount", "discountPrice"] := by
      simp only [namingKeys, List.mem_cons, List.not_mem_nil, or_false] at hkey
      rcases hkey with rfl | rfl | rfl | rfl <;> decide
    rw [field_sellingFare hvisible hpublic.2, asStr?_copyFields hpublic.1]
  · cases h

theorem rows_shown {issued : Option (List Value)} {s s' : Rows}
    (h : rows.foldlM (r.row source q payload booked issued) s = some s') :
    ∃ shown, s'.passengers = s.passengers ++ shown ∧
      List.Forall₂ (Shown r.casing source.supplierId booked) rows shown := by
  induction rows generalizing s with
  | nil =>
    rw [List.foldlM_nil] at h
    cases h
    exact ⟨[], (List.append_nil _).symm, .nil⟩
  | cons row rows ih =>
    simp only [List.foldlM_cons, bind_eq_some] at h
    obtain ⟨middle, hfirst, hrest⟩ := h
    obtain ⟨visible, hvisible, hshown⟩ := row_shown hfirst
    obtain ⟨shown, hall, hrows⟩ := ih hrest
    exact ⟨visible :: shown, by rw [hall, hvisible]; simp, .cons hshown hrows⟩

theorem field_addPart_ne {result v : Value} {key other : String} {part : Option Value}
    {project : Value → Option Value} (h : addPart result key part project = some v)
    (hne : other ≠ key) : v.field other = result.field other := by
  cases part with
  | none =>
    cases h
    rfl
  | some part =>
    simp only [addPart, bind_eq_some] at h
    obtain ⟨projected, -, heq⟩ := h
    obtain rfl := Option.some.inj heq
    exact Value.field_setField_ne hne

theorem project_shown {projected : Value} (h : r.project body source q id = some projected) :
    ∃ rows booked shown, body.field "passengerInfo" = .arr rows ∧
      source.request.field "passengerInfoes" = .arr booked ∧ rows.length = booked.length ∧
      projected.field "passengerInfo" = .arr shown ∧
      List.Forall₂ (Shown r.casing source.supplierId booked) rows shown := by
  simp only [Reader.project, bind_eq_some, guard_eq_some, exists_const,
    Value.asArray?_eq_some] at h
  obtain ⟨payload, -, -, -, _, -, -, rows, hrows, booked, hbooked, issued, -, hlength, s, hs,
    middle, hmiddle, hprojected⟩ := h
  obtain ⟨shown, hshown, hall⟩ := rows_shown hs
  rw [List.nil_append] at hshown
  refine ⟨rows, booked, shown, hrows, hbooked, hlength.1, ?_, hall⟩
  rw [field_addPart_ne hprojected (by decide), field_addPart_ne hmiddle (by decide)]
  simp [Value.field, Value.get?_object, hshown]

/-- A recovered ticket names the passenger its row names. -/
theorem identity_recoveredTicket {row visible ticket : Value} {supplier : String}
    (hs : Shown cs supplier booked row visible) (h : recoveredTicket visible = some ticket) :
    identity cs (ticket.field "passengerInfo") = identity cs (rowPassenger row) := by
  simp only [recoveredTicket, bind_eq_some] at h
  obtain ⟨nums, -, heq⟩ := h
  obtain rfl := Option.some.inj heq
  have hnames := hs.names
  simp only [namingKeys, List.forall_mem_cons] at hnames
  obtain ⟨hfirst, hlast, hmiddle, hkind, -⟩ := hnames
  apply identity_congr
  · intro key hkey
    simp only [List.mem_cons, List.not_mem_nil, or_false] at hkey
    rcases hkey with rfl | rfl | rfl
    · simpa [rowPassenger, Value.field, Value.get?_object] using hfirst
    · simpa [rowPassenger, Value.field, Value.get?_object] using hlast
    · simpa [rowPassenger, Value.field, Value.get?_object] using hmiddle
  · simpa [rowPassenger, Value.field, Value.get?_object] using hkind

/-- A recovery has a ticket for each row of the report, in the order of the report. -/
theorem recover_rows (h : r.recover body request payload q id issue = some evidence) :
    ∃ rows booked tickets, body.field "passengerInfo" = .arr rows ∧
      request.field "passengerInfoes" = .arr booked ∧ rows.length = booked.length ∧
      (evidence.field "item1").field "ticketInfoes" = .arr tickets ∧
      List.Forall₂ (fun row ticket =>
        (∃ c, candidates r.casing booked (rowPassenger row) q.supplierId true = [c]) ∧
        identity r.casing (ticket.field "passengerInfo") = identity r.casing (rowPassenger row))
        rows tickets := by
  simp only [Reader.recover, bind_eq_some, guard_eq_some, exists_const,
    Value.asArray?_eq_some] at h
  obtain ⟨-, projected, hprojected, shown, hshown, tickets, htickets, heq⟩ := h
  obtain ⟨rows, booked, shown', hrows, hbooked, hlength, hshown', hall⟩ := project_shown hprojected
  rw [hshown] at hshown'
  cases hshown'
  refine ⟨rows, booked, tickets, hrows, hbooked, hlength, ?_, ?_⟩
  · obtain rfl := Option.some.inj heq
    simp [Value.field, Value.get?_object]
  · have hpaired := mapM_eq_some htickets
    clear hshown hrows hlength htickets heq hprojected
    induction hall generalizing tickets with
    | nil =>
      cases hpaired
      exact .nil
    | cons hrow _ ih =>
      cases hpaired with
      | cons hticket hrest =>
        exact .cons ⟨hrow.one, identity_recoveredTicket hrow hticket⟩ (ih _ hrest)

end ShaponTravels.Booking.Report
