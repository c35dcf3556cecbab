import ShaponTravels.Booking.Party
import ShaponTravels.Booking.Placement

/-!
# Tickets — the parties whose tickets can be verified

`Book` tells passengers apart by name and birth date, a ticket names its passenger by name and type.
-/

namespace ShaponTravels.Booking

open Library

variable {k : Checks} {fresh : String → Uuid} {passengers : List Passenger} {booked : List Value}
  {body payload : Value} {q : Quote} {id issue : Uuid} {portalCheckout : Bool}

/-- An issue response with the saved references, the accepted fare and itinerary and, in any order, a
ticket of every booked passenger. -/
structure Complete (fresh : String → Uuid) (booked : List Value) (body payload : Value) (q : Quote)
    (id : Uuid) : Prop where
  success : isSuccess body = true
  pnr : (body.field "item1").field "pnr" = payload.field "PNR"
  ticketCode : (nonEmptyText ((body.field "item1").field "ticketCodeRef")).isSome
  codes : codesAgree (body.field "item1") payload = true
  accepted : (projectBookingResponse fresh body q id).isSome
  tickets : ∃ places tickets, (body.field "item1").field "ticketInfoes" = .arr tickets ∧
    List.Forall₂ (TicketOf booked) places tickets ∧
    (places.map Prod.fst).Perm (List.range booked.length) ∧ (places.flatMap Prod.snd).Nodup

/-- What is left of `issued_response` for a complete response is the loop over its tickets. -/
theorem Complete.issued_iff (hc : Complete fresh booked body payload q id) (hne : booked ≠ [])
    {cs : Casing} {tickets : List Value}
    (ht : (body.field "item1").field "ticketInfoes" = .arr tickets)
    (hlength : tickets.length = booked.length) :
    (issuedResponse cs fresh body payload (.arr booked) q id issue).isSome ↔
      ∃ placed, tickets.foldlM (placeTicket cs booked q.supplierId (countsVerified body q))
        ⟨[], [], List.replicate booked.length .null⟩ = some placed := by
  obtain ⟨projected, hprojected⟩ := Option.isSome_iff_exists.mp hc.accepted
  have hguard : isSuccess body = true ∧
      (body.field "item1").field "pnr" = payload.field "PNR" ∧
      (nonEmptyText ((body.field "item1").field "ticketCodeRef")).isSome :=
    ⟨hc.success, hc.pnr, hc.ticketCode⟩
  rw [Option.isSome_iff_exists]
  simp only [issuedResponse, bind_eq_some, guard_eq_some, exists_const, Value.asArray?_eq_some, ht,
    hprojected, Value.arr.injEq]
  constructor
  · rintro ⟨_, -, -, _, rfl, _, rfl, -, placed, hplaced, -⟩
    exact ⟨placed, hplaced⟩
  · rintro ⟨placed, hplaced⟩
    exact ⟨_, hguard, hc.codes, booked, rfl, tickets, rfl, ⟨hne, hlength⟩, placed, hplaced,
      projected, rfl, rfl⟩

/-! ## Two adults -/

/-- The mappings of the letters A to Z, the dates and the airports of the runs below. -/
def sampleChecks : Checks where
  casing := ⟨fun c => [c.toUpper], toUpper_ne_nil, toAsciiLowercase⟩
  parseDate s :=
    if s = "2026-09-29" then some ⟨2026, 9, 29⟩
    else if s = "1960-01-01" then some ⟨1960, 1, 1⟩
    else if s = "1990-01-01" then some ⟨1990, 1, 1⟩
    else none
  today := ⟨2026, 9, 1⟩
  airportCountry code := if code ∈ ["DAC", "CXB"] then some "BD" else none

def sampleAdult (firstName birth : String) : Passenger where
  name := ⟨"Mr", firstName, "Uddin", none⟩
  gender := "Male"
  passengerType := "ADT"
  dateOfBirth := birth
  document := ⟨"", "", "", "BD", none⟩
  contact := ⟨"1700000000", "+880", "a@example.com", "BD", none⟩
  isLeadPassenger := none

/-- A father and his son. -/
def sampleFamily (son : String) : List Passenger :=
  [sampleAdult "Karim" "1960-01-01", sampleAdult son "1990-01-01"]

/-- A domestic flight for two adults. -/
def sampleFlight : Value :=
  let fare := Value.object [("totalPrice", .ofInt 100), ("basePrice", .ofInt 100),
    ("taxes", .ofInt 0), ("ait", .ofInt 0)]
  .object [("directions", .arr [.arr [.object [("segments", .arr [.object [("from", .str "DAC"),
      ("to", .str "CXB"), ("flightNumber", .str "437")]])]]]),
    ("passengerCounts", .object [("adt", .ofInt 2), ("chd", .ofInt 0), ("cnn", .ofInt 0),
      ("inf", .ofInt 0), ("ins", .ofInt 0)]),
    ("passengerFares", .object [("adt", fare)]),
    ("bookingComponents", .arr [.object [("totalPrice", .ofInt 200), ("basePrice", .ofInt 200),
      ("taxes", .ofInt 0), ("ait", .ofInt 0)]])]

def sampleAccepted : Quote where
  offerId := 1
  priceId := 2
  searchId := 3
  supplierId := "takeoff"
  availabilityEpoch := 1
  original := .object [("item1", sampleFlight)]
  selling := .object [("item1", sampleFlight)]
  referenceMap := .object []
  searchOriginal := .null
  request := .object [("routes", .arr [.object [("departureDate", .str "2026-09-29")]]),
    ("childrenAges", .arr [])]
  valid := true
  accepted := true
  repriceRequired := false
  latest := true
  audience := "b2b"
  agentId := none

def samplePayload : Value :=
  .object [("PNR", .str "ABC123"), ("BookingCodeRef", .str "b")]

def sampleTicket (p : Passenger) (number : String) : Value :=
  .object [("passengerInfo", p.toValue), ("ticketNumbers", .arr [.str number])]

/-- The tickets of two passengers, the second one first. -/
def sampleAnswered (p p' : Passenger) : Value :=
  .object [("item1", .object [("pnr", .str "ABC123"), ("ticketCodeRef", .str "t"),
      ("bookingCodeRef", .str "b"), ("flightInfo", sampleFlight),
      ("ticketInfoes", .arr [sampleTicket p' "7790000000002", sampleTicket p "7790000000001"])]),
    ("item2", .object [("isSuccess", .bool true)])]

def sampleFresh (_ : String) : Uuid := 9

theorem sampleTicket_of {booked : List Value} {p : Passenger} {i : Nat} {number : String}
    (hi : booked[i]? = some p.toValue) (hn : isTicketNumber number = true) :
    TicketOf booked (i, [number]) (sampleTicket p number) where
  passenger := by
    have hinfo : (sampleTicket p number).field "passengerInfo" = p.toValue := by
      rw [sampleTicket, Value.field, Value.get?_object]
      rfl
    exact ⟨p.toValue, hi, by rw [hinfo], by rw [hinfo]⟩
  numbers := by
    rw [sampleTicket, Value.field, Value.get?_object]
    rfl
  nonempty := List.cons_ne_nil _ _
  valid n hmem := by rwa [List.mem_singleton.mp hmem]

/-- The answer to a family, as far as it does not depend on the names. -/
theorem sampleAnswered_complete {p p' : Passenger}
    (h : let body := sampleAnswered p p'
      isSuccess body = true ∧ (body.field "item1").field "pnr" = samplePayload.field "PNR" ∧
      (nonEmptyText ((body.field "item1").field "ticketCodeRef")).isSome ∧
      codesAgree (body.field "item1") samplePayload = true ∧
      (projectBookingResponse sampleFresh body sampleAccepted 4).isSome) :
    Complete sampleFresh [p.toValue, p'.toValue] (sampleAnswered p p') samplePayload
      sampleAccepted 4 where
  success := h.1
  pnr := h.2.1
  ticketCode := h.2.2.1
  codes := h.2.2.2.1
  accepted := h.2.2.2.2
  tickets := by
    have hitem : ((sampleAnswered p p').field "item1").field "ticketInfoes" =
        .arr [sampleTicket p' "7790000000002", sampleTicket p "7790000000001"] := by
      simp [sampleAnswered, Value.field, Value.get?_object]
    refine ⟨[(1, ["7790000000002"]), (0, ["7790000000001"])], _, hitem, ?_, ?_, ?_⟩
    · exact .cons (sampleTicket_of rfl (by decide +kernel))
        (.cons (sampleTicket_of rfl (by decide +kernel)) .nil)
    · exact .swap 0 1 []
    · decide

/-- A complete response is verified exactly when no passenger of the party is taken for another. -/
theorem complete_issued_iff (hparty : k.validate passengers q portalCheckout = .ok ())
    (hc : Complete fresh (passengers.map Passenger.toValue) body payload q id) :
    (issuedResponse k.casing fresh body payload (.arr (passengers.map Passenger.toValue)) q id
        issue).isSome ↔
      Distinguishable k.casing (passengers.map Passenger.toValue) q.supplierId
        (countsVerified body q) := by
  obtain ⟨hne, hnames⟩ := validate_lastName hparty
  obtain ⟨places, tickets, ht, hplaced, hperm, hnumbers⟩ := hc.tickets
  have hid : ∀ p ∈ passengers.map Passenger.toValue, (identity k.casing p).isSome := by
    intro p hp
    obtain ⟨passenger, hmem, rfl⟩ := List.mem_map.mp hp
    exact Passenger.identity_isSome k.casing (hnames passenger hmem)
  have hlength : tickets.length = (passengers.map Passenger.toValue).length := by
    rw [← hplaced.length_eq, ← List.length_map (f := Prod.fst), hperm.length_eq, List.length_range]
  rw [hc.issued_iff (by simpa using hne) ht hlength]
  constructor
  · rintro ⟨placed, hrun⟩ i j p p' hi hj hmatch
    -- The ticket of passenger `j` has both as candidates.
    have hmem : j ∈ places.map Prod.fst :=
      hperm.mem_iff.mpr (List.mem_range.mpr (List.getElem?_eq_some_iff.mp hj).1)
    obtain ⟨place, hplace, rfl⟩ := List.mem_map.mp hmem
    obtain ⟨ticket, hticket, hof⟩ := exists_right hplaced hplace
    obtain ⟨c, hone⟩ := placeTickets_candidates hrun ticket hticket
    obtain ⟨p₁, hp₁, hself⟩ := hof.self hid
    rw [hj] at hp₁
    cases hp₁
    have hfirst : (p, i) ∈ [c] := by
      rw [← hone, mem_candidates, hof.matches_iff hj]
      exact ⟨hi, hmatch⟩
    have hsecond : (p', place.1) ∈ [c] := by
      rw [← hone, mem_candidates]
      exact ⟨hj, hself⟩
    rw [List.mem_singleton] at hfirst hsecond
    exact congrArg Prod.snd (hfirst.trans hsecond.symm)
  · intro hd
    exact placeTickets_some hd hid hplaced (hperm.nodup_iff.mpr List.nodup_range) hnumbers
      (fun _ _ hmem => by cases hmem) (fun _ _ hmem => by cases hmem)

/-- A father and a son of different names. -/
theorem complete_issued_iff_family :
    (issuedResponse sampleChecks.casing sampleFresh
        (sampleAnswered (sampleAdult "Karim" "1960-01-01") (sampleAdult "Rahim" "1990-01-01"))
        samplePayload (.arr ((sampleFamily "Rahim").map Passenger.toValue)) sampleAccepted 4
        5).isSome ↔
      Distinguishable sampleChecks.casing ((sampleFamily "Rahim").map Passenger.toValue) "takeoff"
        true :=
  have hparty : sampleChecks.validate (sampleFamily "Rahim") sampleAccepted false = .ok () := by
    decide +kernel
  complete_issued_iff hparty (sampleAnswered_complete (by decide +kernel))

/-- A father and a son of one name can be booked, and their tickets are never verified. -/
theorem complete_issued_namesakes :
    sampleChecks.validate (sampleFamily "Karim") sampleAccepted false = .ok () ∧
    Complete sampleFresh ((sampleFamily "Karim").map Passenger.toValue)
      (sampleAnswered (sampleAdult "Karim" "1960-01-01") (sampleAdult "Karim" "1990-01-01"))
      samplePayload sampleAccepted 4 ∧
    issuedResponse sampleChecks.casing sampleFresh
      (sampleAnswered (sampleAdult "Karim" "1960-01-01") (sampleAdult "Karim" "1990-01-01"))
      samplePayload (.arr ((sampleFamily "Karim").map Passenger.toValue)) sampleAccepted 4 5 =
        none :=
  ⟨by decide +kernel, sampleAnswered_complete (by decide +kernel), by decide +kernel⟩

end ShaponTravels.Booking
