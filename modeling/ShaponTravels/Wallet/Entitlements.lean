import ShaponTravels.Booking.Passengers
import ShaponTravels.Pricing.BigDecimal
import ShaponTravels.Wallet.Money

/-!
# Entitlements — the tickets of a booking as money its owner holds

The amounts of `wallet/ticket_management/rules.rs` and `allocate_initial`, which pairs the saved
passengers with the tickets of the evidence by position.
-/

namespace ShaponTravels.Wallet.TicketManagement

open Library
open Booking (Casing)

/-! ## Amounts -/

/-- `MAX_MINOR`. -/
def maxMinor : Int := 9007199254740991

/-- `rules::minor`. -/
def minor (value : Int) : Except ApiError Int := do
  ensure (0 ≤ value ∧ value ≤ maxMinor) (invalid "INVALID_TICKET_AMOUNT")
  return value

/-- `rules::sum`. -/
def sum (values : List Int) : Except ApiError Int :=
  values.foldlM (fun total n => do
    let _ ← minor n
    let next ← fetch (i64? (total + n)) (invalid "INVALID_TICKET_AMOUNT")
    minor next) 0

/-- `Value::as_i64`. -/
def asI64? : Value → Option Int
  | .num lexeme => (BigDecimal.parseInteger lexeme.toList).bind i64?
  | _ => none

/-! ## The first entitlements -/

/-- `rules::InitialEntitlement`. -/
structure InitialEntitlement where
  passengerIndex : Nat
  passengerName : String
  passengerType : String
  ticketNumber : String
  amountMinor : Int
  deriving DecidableEq

/-- `bad` of `allocate_initial`. -/
def unavailable : ApiError := conflict "TICKET_ENTITLEMENT_UNAVAILABLE"

/-- What a passenger of a type pays. -/
def kindAmount (fares : List (String × Value)) (kind : String) : Except ApiError Int := do
  match (Value.entries fares).filter fun f => toAsciiLowercase f.1 = kind with
  | [fare] => do
    let payable ← fetch (fare.2.field "payable").asStr? unavailable
    let amount ← majorToMinor payable
    minor amount
  | _ => .error unavailable

/-- The parts of a name that are not blank. -/
def displayName (name : Value) : String :=
  " ".intercalate ((["title", "firstName", "middleName", "lastName"].filterMap fun key =>
    (name.field key).asStr?).filter fun s => trim s ≠ "")

/-- The only ticket number of a ticket. -/
def singleNumber (cs : Casing) (ticket : Value) : Except ApiError String := do
  let numbers ← fetch (ticket.field "ticketNumbers").asArray? unavailable
  match numbers with
  | [number] => do
    let text ← fetch number.asStr? unavailable
    return cs.uppercase (trim text)
  | _ => .error unavailable

/-- A casing that leaves every letter as it is. -/
def plainCasing : Casing := ⟨fun c => [c], fun _ => List.cons_ne_nil _ _, fun s => s⟩

/-- The body of the loop: the passenger and the ticket at one position. -/
def allocate (cs : Casing) (fares : List (String × Value)) (result : List InitialEntitlement)
    (entry : (Value × Value) × Nat) : Except ApiError (List InitialEntitlement) := do
  let ((p, ticket), index) := entry
  let type ← fetch (p.field "passengerType").asStr? unavailable
  let kind := toAsciiLowercase type
  let amount ← kindAmount fares kind
  ensure (0 < amount) unavailable
  let number ← singleNumber cs ticket
  ensure (number ≠ "" ∧ number.utf8ByteSize ≤ 80 ∧ number ∉ result.map (·.ticketNumber)) unavailable
  let name := displayName (p.field "nameElement")
  ensure (name ≠ "") unavailable
  return result ++ [⟨index, name, toAsciiUppercase kind, number, amount⟩]

/-- `allocate_initial`. -/
def allocateInitial (cs : Casing) (passengers tickets pricing : Value) (captured : Int) :
    Except ApiError (List InitialEntitlement) := do
  let passengers ← fetch passengers.asArray? unavailable
  let tickets ← fetch tickets.asArray? unavailable
  let fares ← fetch (pricing.field "passengers").asObject? unavailable
  ensure (0 < captured ∧ passengers ≠ [] ∧ passengers.length ≤ 20 ∧
    passengers.length = tickets.length) unavailable
  let text ← fetch (pricing.field "payable").asStr? unavailable
  let payable ← majorToMinor text
  ensure (payable = captured) unavailable
  let result ← (passengers.zip tickets).zipIdx.foldlM (allocate cs fares) []
  ensure ((Value.entries fares).all fun f => asI64? (f.2.field "count") =
    some (result.countP fun e => toAsciiLowercase e.passengerType = toAsciiLowercase f.1))
    unavailable
  let total ← sum (result.map (·.amountMinor))
  ensure (total = captured) unavailable
  return result

/-! ## What the amounts are -/

@[simp] theorem minor_eq_ok {v n : Int} : minor v = .ok n ↔ (0 ≤ v ∧ v ≤ maxMinor) ∧ v = n := by
  simp only [minor, bind_eq_ok, ensure_eq_ok, exists_const, pure_eq_ok]

/-- Two amounts in range add without leaving the 64 bits. -/
theorem i64?_add {total n : Int} (htotal : 0 ≤ total ∧ total ≤ maxMinor)
    (hn : 0 ≤ n ∧ n ≤ maxMinor) : i64? (total + n) = some (total + n) := by
  refine i64?_eq_some.mpr ⟨?_, rfl⟩
  unfold maxMinor at htotal hn
  unfold bigintMax
  omega

theorem sum_step {total n next : Int} (htotal : 0 ≤ total ∧ total ≤ maxMinor) :
    (do
      let _ ← minor n
      let next ← fetch (i64? (total + n)) (invalid "INVALID_TICKET_AMOUNT")
      minor next) = Except.ok next ↔ 0 ≤ n ∧ total + n ≤ maxMinor ∧ next = total + n := by
  simp only [bind_eq_ok, fetch_eq_ok, minor_eq_ok, i64?_eq_some]
  constructor
  · rintro ⟨_, ⟨hn, rfl⟩, _, ⟨-, rfl⟩, hnext, rfl⟩
    exact ⟨hn.1, hnext.2, rfl⟩
  · rintro ⟨hn, hnext, rfl⟩
    have hrange : 0 ≤ n ∧ n ≤ maxMinor := ⟨hn, by omega⟩
    exact ⟨n, ⟨hrange, rfl⟩, total + n, i64?_eq_some.mp (i64?_add htotal hrange), ⟨by omega, hnext⟩, rfl⟩

theorem sum_fold {values : List Int} {start total : Int} (hstart : 0 ≤ start ∧ start ≤ maxMinor) :
    values.foldlM (fun total n => do
      let _ ← minor n
      let next ← fetch (i64? (total + n)) (invalid "INVALID_TICKET_AMOUNT")
      minor next) start = Except.ok total ↔
    (∀ n ∈ values, 0 ≤ n) ∧ start + values.sum ≤ maxMinor ∧ total = start + values.sum := by
  induction values generalizing start with
  | nil =>
    simp only [List.foldlM_nil, pure_eq_ok, List.sum_nil, Int.add_zero]
    exact ⟨fun h => ⟨fun n hn => absurd hn List.not_mem_nil, hstart.2, h.symm⟩, fun h => h.2.2.symm⟩
  | cons n values ih =>
    rw [List.foldlM_cons, bind_eq_ok, List.sum_cons, List.forall_mem_cons]
    constructor
    · rintro ⟨next, hstep, hrest⟩
      obtain ⟨hn, hnext, rfl⟩ := (sum_step hstart).mp hstep
      obtain ⟨hvalues, hsum, rfl⟩ := (ih ⟨by omega, hnext⟩).mp hrest
      exact ⟨⟨hn, hvalues⟩, by omega, by omega⟩
    · rintro ⟨⟨hn, hvalues⟩, hsum, rfl⟩
      have hpos : 0 ≤ values.sum := List.sum_nonneg hvalues
      have hnext : start + n ≤ maxMinor := by omega
      exact ⟨start + n, (sum_step hstart).mpr ⟨hn, hnext, rfl⟩,
        (ih ⟨by omega, hnext⟩).mpr ⟨hvalues, by omega, by omega⟩⟩

/-- `sum` is the total of amounts that are not negative, as long as the total is in range. -/
theorem sum_eq_ok {values : List Int} {total : Int} :
    sum values = .ok total ↔
      (∀ n ∈ values, 0 ≤ n) ∧ values.sum ≤ maxMinor ∧ total = values.sum := by
  have h := @sum_fold values 0 total ⟨le_rfl, by decide⟩
  rw [Int.zero_add] at h
  exact h

/-- What `sum` goes through: the totals of the amounts it has read. -/
theorem sum_prefix {values before : List Int} {total : Int} (h : sum values = .ok total)
    (hbefore : before <+: values) : 0 ≤ before.sum ∧ before.sum ≤ maxMinor := by
  obtain ⟨hpos, hmax, -⟩ := sum_eq_ok.mp h
  obtain ⟨rest, rfl⟩ := hbefore
  rw [List.sum_append] at hmax
  have hb : 0 ≤ before.sum := List.sum_nonneg fun n hn => hpos n (List.mem_append_left _ hn)
  have hr : 0 ≤ rest.sum := List.sum_nonneg fun n hn => hpos n (List.mem_append_right _ hn)
  exact ⟨hb, by omega⟩

/-! ## What is allocated -/

variable {cs : Casing} {fares : List (String × Value)} {result result' : List InitialEntitlement}

/-- The entitlement made of a passenger, a ticket and their position. -/
structure Entitled (cs : Casing) (fares : List (String × Value)) (entry : (Value × Value) × Nat)
    (e : InitialEntitlement) : Prop where
  index : e.passengerIndex = entry.2
  number : singleNumber cs entry.1.2 = .ok e.ticketNumber
  amount : ∃ type, entry.1.1.field "passengerType" = .str type ∧
    kindAmount fares (toAsciiLowercase type) = .ok e.amountMinor

theorem allocate_ok {entry : (Value × Value) × Nat}
    (h : allocate cs fares result entry = .ok result') :
    ∃ e, result' = result ++ [e] ∧ Entitled cs fares entry e ∧
      e.ticketNumber ∉ result.map (·.ticketNumber) := by
  simp only [allocate, bind_eq_ok, fetch_eq_ok, ensure_eq_ok, exists_const, pure_eq_ok,
    Value.asStr?_eq_some] at h
  obtain ⟨type, htype, amount, hamount, -, number, hnumber, hfresh, -, rfl⟩ := h
  exact ⟨_, rfl, ⟨rfl, hnumber, type, htype, hamount⟩, hfresh.2.2⟩

/-- Every position gets its entitlement, and no number is used twice. -/
theorem allocate_all {entries : List ((Value × Value) × Nat)}
    (h : entries.foldlM (allocate cs fares) result = .ok result')
    (hnodup : (result.map (·.ticketNumber)).Nodup) :
    ∃ added, result' = result ++ added ∧ List.Forall₂ (Entitled cs fares) entries added ∧
      (result'.map (·.ticketNumber)).Nodup := by
  induction entries generalizing result with
  | nil =>
    rw [List.foldlM_nil, pure_eq_ok] at h
    subst h
    exact ⟨[], (List.append_nil _).symm, .nil, hnodup⟩
  | cons entry entries ih =>
    simp only [List.foldlM_cons, bind_eq_ok] at h
    obtain ⟨middle, hfirst, hrest⟩ := h
    obtain ⟨e, rfl, hentitled, hfresh⟩ := allocate_ok hfirst
    have hmiddle : ((result ++ [e]).map (·.ticketNumber)).Nodup := by
      rw [List.map_append, List.nodup_append]
      refine ⟨hnodup, List.nodup_singleton _, ?_⟩
      intro n hn m hm heq
      obtain rfl := List.mem_singleton.mp hm
      exact hfresh ((show n = e.ticketNumber from heq) ▸ hn)
    obtain ⟨added, rfl, hadded, hall⟩ := ih hrest hmiddle
    exact ⟨e :: added, by simp, .cons hentitled hadded, hall⟩

/-- The entitlements of an allocation, against the passengers and tickets it was made of. -/
structure Allocated (cs : Casing) (fares : List (String × Value)) (booked tickets : List Value)
    (entitlements : List InitialEntitlement) : Prop where
  length : tickets.length = booked.length
  entitlement : ∀ (i : Nat) (p t : Value), booked[i]? = some p → tickets[i]? = some t →
    ∃ e, entitlements[i]? = some e ∧ Entitled cs fares ((p, t), i) e
  count : entitlements.length = booked.length
  nodup : (entitlements.map (·.ticketNumber)).Nodup

theorem allocateInitial_ok {passengers tickets pricing : Value} {captured : Int}
    (h : allocateInitial cs passengers tickets pricing captured = .ok result) :
    ∃ booked ts fares, passengers = .arr booked ∧ tickets = .arr ts ∧
      pricing.field "passengers" = .obj fares ∧ Allocated cs fares booked ts result := by
  simp only [allocateInitial, bind_eq_ok, fetch_eq_ok, ensure_eq_ok, exists_const, pure_eq_ok,
    Value.asArray?_eq_some, Value.asObject?_eq_some] at h
  obtain ⟨booked, rfl, ts, rfl, fares, hfares, hguard, _, -, _, -, -, found, hfound, -, _, -, -,
    rfl⟩ := h
  obtain ⟨added, hadded, hall, hnodup⟩ := allocate_all hfound List.nodup_nil
  rw [List.nil_append] at hadded
  subst hadded
  have hlength : ts.length = booked.length := hguard.2.2.2.symm
  refine ⟨booked, ts, fares, rfl, rfl, hfares, hlength, ?_, ?_, hnodup⟩
  · intro i p t hp ht
    have hentry : ((booked.zip ts).zipIdx)[i]? = some ((p, t), i) := by
      have hzip : (booked.zip ts)[i]? = some (p, t) := by
        rw [List.getElem?_zip_eq_some]
        exact ⟨hp, ht⟩
      simp [List.getElem?_zipIdx, hzip]
    exact exists_getElem? hall hentry
  · rw [← hall.length_eq]
    simp [hlength]

end ShaponTravels.Wallet.TicketManagement
