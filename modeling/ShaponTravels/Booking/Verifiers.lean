import ShaponTravels.Booking.Party
import ShaponTravels.Booking.Report
import ShaponTravels.Booking.Reservation

/-!
# Verifiers — the validators of the source in one process

What a process runs as its validators: `validate` of a request, `held_response` and
`issued_response` of what a supplier answers, and `recover` of a ticket report.
-/

namespace ShaponTravels.Booking

open Library
open BigDecimal (Decimals)

/-- What the validators use of their libraries. -/
structure Verifiers where
  checks : Checks
  decimals : Decimals
  /-- the instants of a report -/
  instant : String → Option Int
  /-- the identifier drawn for a reference that is not mapped -/
  fresh : String → Uuid

def Verifiers.reader (v : Verifiers) : Report.Reader := ⟨v.checks.casing, v.decimals, v.instant⟩

/-- The site of a process with these validators. -/
def Verifiers.site (v : Verifiers) (p : Process) : Site where
  toProcess := p
  validate req q portalCheckout := v.checks.validate req.passengerInfoes q portalCheckout
  heldResponse := heldResponse v.fresh
  issuedResponse := issuedResponse v.checks.casing v.fresh
  recover := v.reader.recover

variable {v : Verifiers} {p : Process} {q : Quote} {j : Job} {reply : SupplierReply} {b : FlightBooking}
  {body r : Value} {id : Uuid}

/-- A response that holds a booking has a PNR and no ticket. -/
theorem heldResponse_created (h : (v.site p).heldResponse body q id = some r) : isSuccess body = true ∧
    (body.field "item1").field "bookingStatus" = .str "Created" ∧
    (nonEmptyText ((body.field "item1").field "pnr")).isSome = true ∧ containsTicket body = false := by
  change heldResponse v.fresh body q id = some r at h
  simp only [heldResponse, bind_eq_some, guard_eq_some, exists_const] at h
  obtain ⟨⟨hsuccess, hstatus, hpnr, -, hticket⟩, -⟩ := h
  exact ⟨hsuccess, hstatus, hpnr, by simpa using hticket⟩

/-- A booking that its worker holds can be issued from its response: until a PNR lookup is verified, only the
deadline of the response is in the way. -/
theorem issuePreflight_held (h : (holdOutcome (v.site p) j reply b).state = .held) :
    ∃ original, (holdOutcome (v.site p) j reply b).originalResponse = some original ∧
      ∀ payload now margin checked, (v.site p).deadlineCheck
          ((original.field "item1").field "ticketingTimeLimit") false now margin = .ok checked →
        ∃ preflight, (v.site p).issuePreflight original payload none now margin = .ok preflight := by
  cases hreply : reply.body? with
  | none => simp [holdOutcome, hreply] at h
  | some original =>
    refine ⟨original, by rw [holdOutcome, hreply], fun payload now margin checked hchecked => ?_⟩
    obtain ⟨response, hresponse⟩ : ∃ response, (v.site p).heldResponse original j.quote j.booking = some response := by
      rw [← Option.isSome_iff_exists]
      simp only [holdOutcome, hreply, Option.bind_some] at h
      split at h
      · assumption
      · cases h
    obtain ⟨hsuccess, hstatus, -, hticket⟩ := heldResponse_created hresponse
    simp only [Site.issuePreflight, bind_eq_ok, ensure_eq_ok, exists_const, pure_eq_ok]
    exact ⟨_, ⟨hsuccess, hstatus, by simp [hticket]⟩, _, rfl, checked, hchecked, rfl⟩

end ShaponTravels.Booking
