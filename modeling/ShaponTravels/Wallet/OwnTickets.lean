import ShaponTravels.Booking.Report
import ShaponTravels.Booking.Tickets
import ShaponTravels.Pricing.Texts
import ShaponTravels.Wallet.Entitlements

/-!
# OwnTickets — the traveller an entitlement belongs to

Evidence comes from an issue response or from a report.  `allocate_initial` pairs it with the saved
passengers by position, so it is right when the evidence is in booking order.
-/

namespace ShaponTravels.Wallet.TicketManagement

open Library
open Booking

variable {r : Report.Reader} {cs : Casing} {fresh : String → Uuid} {booked tickets : List Value}
  {supplier : String} {counts : Bool} {fares : List (String × Value)}
  {entitlements : List InitialEntitlement} {q : Quote} {id issue : Uuid}
  {payload request receipt : Value}

/-! ## Evidence in booking order -/

/-- Every entitlement holds the ticket which the evidence has for the passenger at its position, and
that passenger's amount. -/
def OwnTickets (cs : Casing) (supplier : String) (counts : Bool) (fares : List (String × Value))
    (booked tickets : List Value) (entitlements : List InitialEntitlement) : Prop :=
  ∀ (i : Nat) (p : Value), booked[i]? = some p → ∃ e, entitlements[i]? = some e ∧
    e.passengerIndex = i ∧
    (∃ t ∈ tickets, passengerMatches cs p (t.field "passengerInfo") supplier counts = true) ∧
    (∀ t ∈ tickets, passengerMatches cs p (t.field "passengerInfo") supplier counts = true →
      singleNumber cs t = .ok e.ticketNumber) ∧
    ∃ type, p.field "passengerType" = .str type ∧
      kindAmount fares (toAsciiLowercase type) = .ok e.amountMinor

/-- Every ticket names one booked passenger. -/
def EachNamesOne (cs : Casing) (supplier : String) (counts : Bool) (booked tickets : List Value) :
    Prop :=
  ∀ t ∈ tickets, ∃ c, candidates cs booked (t.field "passengerInfo") supplier counts = [c]

/-- Rows, read as passengers, are in booking order. -/
def InBookingOrder (cs : Casing) (supplier : String) (counts : Bool) (passenger : Value → Value)
    (booked rows : List Value) : Prop :=
  ∀ (i : Nat) (p row : Value), booked[i]? = some p → rows[i]? = some row →
    passengerMatches cs p (passenger row) supplier counts = true

/-- Entitlements are each passenger's own when the evidence is in booking order, and only then. -/
theorem ownTickets_iff (hone : EachNamesOne cs supplier counts booked tickets)
    (ha : Allocated cs fares booked tickets entitlements) :
    OwnTickets cs supplier counts fares booked tickets entitlements ↔
      InBookingOrder cs supplier counts (·.field "passengerInfo") booked tickets := by
  constructor
  · intro hown i p t hp ht
    have hmem : t ∈ tickets := List.mem_of_getElem? ht
    obtain ⟨⟨p', j⟩, hcandidates⟩ := hone t hmem
    obtain ⟨hj, hmatch, -⟩ := candidates_single.mp hcandidates
    obtain ⟨e, he, -, -, hall, -⟩ := hown j p' hj
    obtain ⟨e', he', hentitled⟩ := ha.entitlement i p t hp ht
    -- The number is both entitlements', and numbers are distinct.
    have hnumber : e.ticketNumber = e'.ticketNumber := by
      have hsame := (hall t hmem hmatch).symm.trans hentitled.number
      exact Except.ok.inj hsame
    have hij : j = i := by
      have hleft : (entitlements.map (·.ticketNumber))[j]? = some e.ticketNumber := by
        rw [List.getElem?_map, he, Option.map_some]
      have hright : (entitlements.map (·.ticketNumber))[i]? = some e.ticketNumber := by
        rw [List.getElem?_map, he', Option.map_some, hnumber]
      have hlt : j < (entitlements.map (·.ticketNumber)).length :=
        (List.getElem?_eq_some_iff.mp hleft).1
      exact (List.getElem?_inj hlt ha.nodup).mp (hleft.trans hright.symm)
    subst hij
    rw [hp] at hj
    cases hj
    exact hmatch
  · intro horder i p hp
    have hlt : i < tickets.length := ha.length ▸ (List.getElem?_eq_some_iff.mp hp).1
    obtain ⟨t, ht⟩ : ∃ t, tickets[i]? = some t := ⟨_, List.getElem?_eq_getElem hlt⟩
    obtain ⟨e, he, hentitled⟩ := ha.entitlement i p t hp ht
    refine ⟨e, he, hentitled.index, ⟨t, List.mem_of_getElem? ht, horder i p t hp ht⟩, ?_,
      hentitled.amount⟩
    intro t' ht' hmatch
    -- A ticket that names the passenger is the one at the passenger's position.
    obtain ⟨k, hk⟩ := List.mem_iff_getElem?.mp ht'
    obtain ⟨p', hp'⟩ : ∃ p', booked[k]? = some p' := by
      have hk' : k < booked.length := ha.length ▸ (List.getElem?_eq_some_iff.mp hk).1
      exact ⟨_, List.getElem?_eq_getElem hk'⟩
    obtain ⟨⟨p'', j⟩, hcandidates⟩ := hone t' ht'
    have hunique := (candidates_single.mp hcandidates).2.2
    have hki : k = i :=
      (hunique k p' hp' (horder k p' t' hp' hk)).trans (hunique i p hp hmatch).symm
    subst hki
    rw [ht] at hk
    cases hk
    exact hentitled.number

/-! ## Issue responses -/

theorem field_publicTicket (ticket : Value) (nums : List Value) :
    ((publicTicket ticket nums).field "passengerInfo").field "nameElement" =
        (ticket.field "passengerInfo").field "nameElement" ∧
      ((publicTicket ticket nums).field "passengerInfo").field "passengerType" =
        (ticket.field "passengerInfo").field "passengerType" := by
  constructor
  · simp [publicTicket, Value.field, Value.get?_object]
  · simp [publicTicket, Value.field, Value.get?_object]

theorem candidates_publicTicket (ticket : Value) (nums : List Value) :
    candidates cs booked ((publicTicket ticket nums).field "passengerInfo") supplier counts =
      candidates cs booked (ticket.field "passengerInfo") supplier counts := by
  obtain ⟨hname, hkind⟩ := field_publicTicket ticket nums
  exact candidates_congr (identity_congr (fun key _ => by rw [hname]) (by rw [hkind]))

/-- The evidence of an issue response is in booking order. -/
theorem issuedResponse_order {body : Value}
    (h : issuedResponse cs fresh body payload (.arr booked) q id issue = some receipt) :
    ∃ tickets, (receipt.field "item1").field "ticketInfoes" = .arr tickets ∧
      EachNamesOne cs q.supplierId (countsVerified body q) booked tickets ∧
      InBookingOrder cs q.supplierId (countsVerified body q) (·.field "passengerInfo") booked
        tickets := by
  simp only [issuedResponse, bind_eq_some, guard_eq_some, exists_const, Value.asArray?_eq_some,
    Value.arr.injEq] at h
  obtain ⟨-, -, _, rfl, answered, -, hlength, placed, hplaced, projected, -, heq⟩ := h
  obtain ⟨hsound, hseen⟩ := placeTickets_sound (Placed.Sound.start cs booked q.supplierId
    (countsVerified body q)) hplaced
  have hfull : placed.seen.length = booked.length := by
    rw [hseen, List.length_nil, Nat.zero_add, hlength.2]
  have hat : ∀ i, i < booked.length → ∃ p ticket, booked[i]? = some p ∧
      placed.tickets[i]? = some ticket ∧ candidates cs booked (ticket.field "passengerInfo")
        q.supplierId (countsVerified body q) = [(p, i)] := by
    intro i hi
    obtain ⟨ticket, p, nums, hone, -, hticket⟩ := hsound.own i (hsound.all_seen hfull hi)
    refine ⟨p, _, (candidates_single.mp hone).1, hticket, ?_⟩
    rw [candidates_publicTicket, hone]
  refine ⟨placed.tickets, ?_, ?_, ?_⟩
  · obtain rfl := Option.some.inj heq
    have hitem : ∀ item other : Value,
        (Value.object [("item1", item), ("item2", other)]).field "item1" = item := by
      intro item other
      simp [Value.field, Value.get?_object]
    rw [hitem, field_copyPart_ne (by decide), field_copyPart_ne (by decide)]
    simp [Value.field, Value.get?_object]
  · intro t ht
    obtain ⟨i, hi⟩ := List.mem_iff_getElem?.mp ht
    have hlt : i < booked.length := hsound.length ▸ (List.getElem?_eq_some_iff.mp hi).1
    obtain ⟨p, ticket, -, hticket, hone⟩ := hat i hlt
    rw [hi] at hticket
    cases hticket
    exact ⟨_, hone⟩
  · intro i p row hp hrow
    obtain ⟨p', ticket, hp', hticket, hone⟩ := hat i (List.getElem?_eq_some_iff.mp hp).1
    rw [hrow] at hticket
    cases hticket
    rw [hp] at hp'
    cases hp'
    exact (candidates_single.mp hone).2.1

/-! ## Stored evidence -/

/-- What the stored evidence was made of: the supplier's issue response or its ticket report. -/
inductive Origin where
  | issued (body : Value)
  | recovered (report : Value)

namespace Origin

/-- The evidence the issue worker or a reconciliation stores. -/
def evidence (r : Report.Reader) (fresh : String → Uuid) (payload request : Value) (q : Quote)
    (id issue : Uuid) : Origin → Option Value
  | issued body =>
    issuedResponse r.casing fresh body payload (request.field "passengerInfoes") q id issue
  | recovered report => r.recover report request payload q id issue

/-- Whether the supplier's passenger counts were verified with the names. -/
def countsVerified (q : Quote) : Origin → Bool
  | issued body => Booking.countsVerified body q
  | recovered _ => true

/-- The rows of a report are in booking order. -/
def InOrder (cs : Casing) (q : Quote) (booked : List Value) : Origin → Prop
  | issued _ => True
  | recovered report => ∀ rows, report.field "passengerInfo" = .arr rows →
      InBookingOrder cs q.supplierId true Report.rowPassenger booked rows

end Origin

/-- The evidence of a report is in booking order when the report is. -/
theorem recover_order {report : Value}
    (h : r.recover report request payload q id issue = some receipt) :
    ∃ booked tickets, request.field "passengerInfoes" = .arr booked ∧
      (receipt.field "item1").field "ticketInfoes" = .arr tickets ∧
      EachNamesOne r.casing q.supplierId true booked tickets ∧
      (InBookingOrder r.casing q.supplierId true (·.field "passengerInfo") booked tickets ↔
        (Origin.recovered report).InOrder r.casing q booked) := by
  obtain ⟨rows, booked, tickets, hrows, hbooked, -, htickets, hall⟩ := Report.recover_rows h
  refine ⟨booked, tickets, hbooked, htickets, ?_, ?_⟩
  · intro t ht
    obtain ⟨row, -, ⟨c, hone⟩, hidentity⟩ := exists_left hall ht
    exact ⟨c, by rw [candidates_congr hidentity, hone]⟩
  · constructor
    · intro horder rows' hrows' i p row hp hrow
      rw [hrows] at hrows'
      cases hrows'
      obtain ⟨t, ht, -, hidentity⟩ := exists_getElem? hall hrow
      rw [← passengerMatches_congr hidentity]
      exact horder i p t hp ht
    · intro horder i p t hp ht
      have hlt : i < rows.length := hall.length_eq ▸ (List.getElem?_eq_some_iff.mp ht).1
      have hrow : rows[i]? = some rows[i] := List.getElem?_eq_getElem hlt
      obtain ⟨t', ht', -, hidentity⟩ := exists_getElem? hall hrow
      rw [ht] at ht'
      cases ht'
      rw [passengerMatches_congr hidentity]
      exact horder rows hrows i p _ hp hrow

/-- Stored evidence names every passenger once, in the order of what it was made of. -/
theorem Origin.order {origin : Origin}
    (h : origin.evidence r fresh payload request q id issue = some receipt)
    (hbooked : request.field "passengerInfoes" = .arr booked)
    (htickets : (receipt.field "item1").field "ticketInfoes" = .arr tickets) :
    EachNamesOne r.casing q.supplierId (origin.countsVerified q) booked tickets ∧
      (InBookingOrder r.casing q.supplierId (origin.countsVerified q) (·.field "passengerInfo")
        booked tickets ↔ origin.InOrder r.casing q booked) := by
  cases origin with
  | issued body =>
    rw [Origin.evidence, hbooked] at h
    obtain ⟨tickets', htickets', hone, horder⟩ := issuedResponse_order h
    rw [htickets] at htickets'
    cases htickets'
    exact ⟨hone, iff_of_true horder trivial⟩
  | recovered report =>
    obtain ⟨booked', tickets', hbooked', htickets', hone, horder⟩ := recover_order h
    rw [htickets] at htickets'
    cases htickets'
    rw [hbooked] at hbooked'
    cases hbooked'
    exact ⟨hone, horder⟩

/-! ## A report of two adults -/

def sampleReader : Report.Reader where
  casing := sampleChecks.casing
  decimals := Pricing.sampleDecimals
  instant s := if s = "2026-09-29T07:20:00" then some 0 else none

/-- The flight of the booking with its total and times. -/
def sampleTimedFlight : Value :=
  let segment := Value.object [("from", .str "DAC"), ("to", .str "CXB"),
    ("departure", .str "2026-09-29T07:20:00"), ("arrival", .str "2026-09-29T07:20:00")]
  (sampleFlight.setField "totalPrice" (.ofInt 200)).setField "directions"
    (.arr [.arr [.object [("segments", .arr [segment])]]])

def sampleReported : Booking.Quote :=
  { sampleAccepted with
    original := .object [("item1", sampleTimedFlight)]
    selling := .object [("item1", sampleTimedFlight)] }

def sampleRow (firstName number : String) : Value :=
  .object [("first", .str firstName), ("last", .str "Uddin"), ("passengerType", .str "ADT"),
    ("basePrice", .ofInt 100), ("tax", .ofInt 0), ("ait", .ofInt 0), ("totalPrice", .ofInt 100),
    ("ticketNumbers", .str number)]

def sampleRows : List Value := [sampleRow "Karim" "7790000000001", sampleRow "Rahim" "7790000000002"]

def sampleReport (rows : List Value) : Value :=
  .object [("ticketInfo", .object [("pnr", .str "ABC123"), ("status", .str "Issued"),
      ("statusFor", .str "Ticket"), ("ticketingPrice", .ofInt 200), ("isCompleted", .bool true),
      ("issueDate", .str "2026-09-29T07:20:00")]),
    ("passengerInfo", .arr rows),
    ("segments", .arr [.object [("origin", .str "DAC"), ("destination", .str "CXB"),
      ("departure", .str "2026-09-29T07:20:00"), ("arrival", .str "2026-09-29T07:20:00")]])]

/-- The saved request of the family. -/
def sampleSaved : Value :=
  .object [("passengerInfoes", .arr ((sampleFamily "Rahim").map Passenger.toValue))]

def samplePricing : Value :=
  .object [("payable", .str "200.00"), ("passengers", .object [("adt", .object [
    ("count", .ofInt 2), ("payable", .str "100.00")])])]

/-- The evidence of a report and the numbers of the entitlements made of it. -/
def sampleRecovery (rows : List Value) : Option (Value × List InitialEntitlement) := do
  let receipt ← sampleReader.recover (sampleReport rows) sampleSaved samplePayload sampleReported 4 5
  let entitlements ← (allocateInitial sampleReader.casing (sampleSaved.field "passengerInfoes")
    ((receipt.field "item1").field "ticketInfoes") samplePricing 20000).toOption
  return (receipt, entitlements)

theorem sampleRecovery_some {rows : List Value}
    (h : sampleRecovery rows = some (receipt, entitlements)) :
    (Origin.recovered (sampleReport rows)).evidence sampleReader sampleFresh samplePayload
        sampleSaved sampleReported 4 5 = some receipt ∧
      allocateInitial sampleReader.casing (sampleSaved.field "passengerInfoes")
        ((receipt.field "item1").field "ticketInfoes") samplePricing 20000 = .ok entitlements := by
  simp only [sampleRecovery, bind_eq_some] at h
  obtain ⟨receipt', hreceipt, entitlements', hentitlements, heq⟩ := h
  cases heq
  refine ⟨hreceipt, ?_⟩
  cases hallocated : allocateInitial sampleReader.casing (sampleSaved.field "passengerInfoes")
      ((receipt.field "item1").field "ticketInfoes") samplePricing 20000 with
  | error e =>
    rw [hallocated] at hentitlements
    cases hentitlements
  | ok found =>
    rw [hallocated] at hentitlements
    cases hentitlements
    rfl

/-- Entitlements are each passenger's own unless the evidence was taken from a report that lists its
rows in another order than the booking. -/
theorem initial_entitlements_own {origin : Origin} {pricing : Value} {captured : Int}
    (hevidence : origin.evidence r fresh payload request q id issue = some receipt)
    (hinitial : allocateInitial r.casing (request.field "passengerInfoes")
      ((receipt.field "item1").field "ticketInfoes") pricing captured = .ok entitlements) :
    ∃ booked tickets fares, request.field "passengerInfoes" = .arr booked ∧
      (receipt.field "item1").field "ticketInfoes" = .arr tickets ∧
      pricing.field "passengers" = .obj fares ∧
      (OwnTickets r.casing q.supplierId (origin.countsVerified q) fares booked tickets entitlements ↔
        origin.InOrder r.casing q booked) := by
  obtain ⟨booked, tickets, fares, hbooked, htickets, hfares, hallocated⟩ :=
    allocateInitial_ok hinitial
  obtain ⟨hone, horder⟩ := Origin.order hevidence hbooked htickets
  exact ⟨booked, tickets, fares, hbooked, htickets, hfares,
    (ownTickets_iff hone hallocated).trans horder⟩

set_option maxRecDepth 10000 in
/-- A report in booking order. -/
theorem initial_entitlements_own_sample : ∃ receipt entitlements booked tickets fares,
    sampleRecovery sampleRows = some (receipt, entitlements) ∧
    (receipt.field "item1").field "ticketInfoes" = .arr tickets ∧
    (OwnTickets sampleReader.casing "takeoff" true fares booked tickets entitlements ↔
      (Origin.recovered (sampleReport sampleRows)).InOrder sampleReader.casing sampleReported
        booked) := by
  have hsample : (sampleRecovery sampleRows).isSome := by decide +kernel
  obtain ⟨⟨receipt, entitlements⟩, hrecovery⟩ := Option.isSome_iff_exists.mp hsample
  obtain ⟨hevidence, hinitial⟩ := sampleRecovery_some hrecovery
  obtain ⟨booked, tickets, fares, -, htickets, -, hown⟩ :=
    initial_entitlements_own hevidence hinitial
  exact ⟨receipt, entitlements, booked, tickets, fares, hrecovery, htickets, hown⟩

set_option maxRecDepth 10000 in
/-- The same report with its rows the other way round gives each adult the ticket of the other. -/
theorem initial_entitlements_swapped : ∃ receipt entitlements booked tickets fares,
    (Origin.recovered (sampleReport sampleRows.reverse)).evidence sampleReader sampleFresh
      samplePayload sampleSaved sampleReported 4 5 = some receipt ∧
    allocateInitial sampleReader.casing (sampleSaved.field "passengerInfoes")
      ((receipt.field "item1").field "ticketInfoes") samplePricing 20000 = .ok entitlements ∧
    sampleSaved.field "passengerInfoes" = .arr booked ∧
    (receipt.field "item1").field "ticketInfoes" = .arr tickets ∧
    samplePricing.field "passengers" = .obj fares ∧
    ¬ OwnTickets sampleReader.casing "takeoff" true fares booked tickets entitlements := by
  have hsample : (sampleRecovery sampleRows.reverse).isSome := by decide +kernel
  obtain ⟨⟨receipt, entitlements⟩, hrecovery⟩ := Option.isSome_iff_exists.mp hsample
  obtain ⟨hevidence, hinitial⟩ := sampleRecovery_some hrecovery
  obtain ⟨booked, tickets, fares, hbooked, htickets, hfares, hallocated⟩ :=
    allocateInitial_ok hinitial
  obtain ⟨hone, horder⟩ := Origin.order hevidence hbooked htickets
  refine ⟨receipt, entitlements, booked, tickets, fares, hevidence, hinitial, hbooked, htickets,
    hfares, fun hown => ?_⟩
  have hrows : (sampleReport sampleRows.reverse).field "passengerInfo" = .arr sampleRows.reverse := by
    simp [sampleReport, Value.field, Value.get?_object]
  have hparty : sampleSaved.field "passengerInfoes" =
      .arr ((sampleFamily "Rahim").map Passenger.toValue) := by
    simp [sampleSaved, Value.field, Value.get?_object]
  rw [hbooked, Value.arr.injEq] at hparty
  subst hparty
  have hmatch := (horder.mp ((ownTickets_iff hone hallocated).mp hown)) _ hrows 0
    (sampleAdult "Karim" "1960-01-01").toValue (sampleRow "Rahim" "7790000000002") rfl rfl
  have hdiffers : passengerMatches sampleReader.casing (sampleAdult "Karim" "1960-01-01").toValue
      (Report.rowPassenger (sampleRow "Rahim" "7790000000002")) "takeoff" true = false := by
    decide +kernel
  rw [show sampleReported.supplierId = "takeoff" from rfl, hdiffers] at hmatch
  cases hmatch

end ShaponTravels.Wallet.TicketManagement
