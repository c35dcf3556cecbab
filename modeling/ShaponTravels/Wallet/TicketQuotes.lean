import Mathlib.Data.List.Dedup
import Mathlib.Data.Finset.Dedup
import ShaponTravels.Wallet.Entitlements

/-!
# TicketQuotes — what a void, refund or reissue may cost

`Quote::validate` and `Quote::validate_tickets` of `wallet/ticket_management/rules.rs`, and the loop of
`settle` that gives every reissued entitlement its successor.
-/

namespace ShaponTravels.Wallet.TicketManagement

open Library
open Booking (Casing)

/-! ## Quotes -/

/-- `rules::Action`. -/
inductive Action where
  | refund
  | reissue
  | void
  deriving DecidableEq, Repr

/-- `rules::Direction`. -/
inductive Direction where
  | credit
  | debit
  | none
  deriving DecidableEq, Repr

/-- `rules::Allocation`. -/
structure Allocation where
  entitlementId : Uuid
  fareDifferenceAmountMinor : Int
  deriving DecidableEq

/-- `rules::NewTicket`. -/
structure NewTicket where
  predecessorEntitlementId : Uuid
  newTicketNumber : String
  fareDifferenceAmountMinor : Int
  deriving DecidableEq

/-- `rules::Quote`. -/
structure Quote where
  direction : Direction
  currency : String
  userPayableEntitlementAmountMinor : Int
  fareDifferenceMinor : Int
  airlineFeeMinor : Int
  voidFeeMinor : Int
  serviceFeeMinor : Int
  customerAmountMinor : Int
  confirmationDeadlineAt : Int
  details : Option String
  reissueFareDifferenceAllocations : List Allocation
  deriving DecidableEq

/-- `rules::text`. -/
def text (value : Option String) (max : Nat) (required : Bool) : Except ApiError Unit :=
  let v := trim (value.getD "")
  ensure (v.length ≤ max ∧ ¬ (required ∧ v = "") ∧ Char.ofNat 0 ∉ v.toList) (invalid "INVALID_TICKET_NOTE")

/-- What an `unwrap` of nothing ends a request with. -/
def unwrapped : ApiError := ⟨.internalServerError, "UNWRAP"⟩

namespace Quote

/-- The amounts that `validate` checks one by one. -/
def amounts (q : Quote) : List Int :=
  [q.userPayableEntitlementAmountMinor, q.fareDifferenceMinor, q.airlineFeeMinor, q.voidFeeMinor,
    q.serviceFeeMinor, q.customerAmountMinor]

/-- The allocation of an entitlement. -/
def allocation (q : Quote) (id : Uuid) : Option Allocation :=
  q.reissueFareDifferenceAllocations.find? fun a => a.entitlementId = id

/-- The successor's amount of a selected entitlement, which must be in range. -/
def successorAmount (q : Quote) (e : Uuid × Int) : Except ApiError Int := do
  let a ← fetch (q.allocation e.1) unwrapped
  sum [e.2, a.fareDifferenceAmountMinor]

/-- The branch of `validate` for a reissue. -/
def reissueAmount (q : Quote) (entitlements : List (Uuid × Int)) : Except ApiError (Direction × Int) := do
  ensure (q.userPayableEntitlementAmountMinor = 0 ∧ q.voidFeeMinor = 0) (invalid "INVALID_REISSUE_QUOTE")
  let expected := entitlements.map Prod.fst
  let actual := q.reissueFareDifferenceAllocations.map (·.entitlementId)
  ensure (expected.toFinset = actual.toFinset ∧ actual.Nodup) (invalid "REISSUE_ALLOCATION_MISMATCH")
  let allocated ← sum (q.reissueFareDifferenceAllocations.map (·.fareDifferenceAmountMinor))
  ensure (allocated = q.fareDifferenceMinor) (invalid "REISSUE_ALLOCATION_MISMATCH")
  let _ ← entitlements.mapM q.successorAmount
  let charge ← sum [q.fareDifferenceMinor, q.airlineFeeMinor, q.serviceFeeMinor]
  return (if charge = 0 then .none else .debit, charge)

/-- The branch for a refund and a void. -/
def returnAmount (q : Quote) (action : Action) (entitlement : Int) : Except ApiError (Direction × Int) := do
  ensure (q.userPayableEntitlementAmountMinor = entitlement ∧ q.fareDifferenceMinor = 0 ∧
    q.reissueFareDifferenceAllocations = [] ∧ ¬ (action = .refund ∧ q.voidFeeMinor ≠ 0) ∧
    ¬ (action = .void ∧ q.airlineFeeMinor ≠ 0)) (invalid "INVALID_TICKET_QUOTE")
  let fee ← sum [q.airlineFeeMinor, q.voidFeeMinor, q.serviceFeeMinor]
  ensure (¬ (action = .refund ∧ entitlement < fee)) (invalid "REFUND_FEES_EXCEED_ENTITLEMENT")
  return if fee < entitlement then (.credit, entitlement - fee)
    else if entitlement < fee then (.debit, fee - entitlement)
    else (.none, 0)

/-- The direction and amount that the quote must state. -/
def outcome (q : Quote) (action : Action) (entitlements : List (Uuid × Int)) (entitlement : Int) :
    Except ApiError (Direction × Int) :=
  match action with
  | .reissue => q.reissueAmount entitlements
  | .refund => q.returnAmount .refund entitlement
  | .void => q.returnAmount .void entitlement

/-- `Quote::validate`. -/
def validate (q : Quote) (action : Action) (currency : String) (entitlements : List (Uuid × Int))
    (now : Int) : Except ApiError Unit := do
  let _ ← Wallet.currency q.currency
  ensure (q.currency = currency) (conflict "TICKET_CURRENCY_MISMATCH")
  text q.details 4000 false
  ensure (now < q.confirmationDeadlineAt) (invalid "INVALID_CONFIRMATION_DEADLINE")
  let _ ← q.amounts.mapM minor
  ensure (entitlements ≠ [] ∧ entitlements.length ≤ 20 ∧ (∀ e ∈ entitlements, 0 < e.2) ∧
    (entitlements.map Prod.fst).Nodup) (conflict "TICKET_ENTITLEMENT_UNAVAILABLE")
  let entitlement ← sum (entitlements.map Prod.snd)
  let (direction, amount) ← q.outcome action entitlements entitlement
  ensure (q.direction = direction ∧ q.customerAmountMinor = amount) (invalid "TICKET_QUOTE_AMOUNT_MISMATCH")

end Quote

/-! ## New tickets -/

/-- The maps of `validate_tickets`: the difference accepted for each predecessor, and the numbers. -/
structure Accepted where
  actual : List (Uuid × Int)
  numbers : List String

/-- The body of the loop of `validate_tickets`. -/
def acceptTicket (cs : Casing) (s : Accepted) (t : NewTicket) : Except ApiError Accepted := do
  let number := trim t.newTicketNumber
  ensure (number ≠ "" ∧ number.utf8ByteSize ≤ 80 ∧ ¬ number.toList.any isControl ∧
    cs.uppercase number ∉ s.numbers) (invalid "INVALID_REISSUE_TICKETS")
  let difference ← minor t.fareDifferenceAmountMinor
  ensure (t.predecessorEntitlementId ∉ s.actual.map Prod.fst) (invalid "INVALID_REISSUE_TICKETS")
  return ⟨s.actual ++ [(t.predecessorEntitlementId, difference)], s.numbers ++ [cs.uppercase number]⟩

/-- What a map collected from entries holds for a key: the last of its entries. -/
def collected (entries : List (Uuid × Int)) (id : Uuid) : Option Int :=
  (entries.reverse.find? fun e => e.1 = id).map Prod.snd

/-- Two maps are equal. -/
def sameEntries (xs ys : List (Uuid × Int)) : Bool :=
  (xs.map Prod.fst ++ ys.map Prod.fst).all fun id => collected xs id = collected ys id

/-- The accepted differences of a quote, by entitlement. -/
def Quote.differences (q : Quote) : List (Uuid × Int) :=
  q.reissueFareDifferenceAllocations.map fun a => (a.entitlementId, a.fareDifferenceAmountMinor)

/-- `Quote::validate_tickets`. -/
def Quote.validateTickets (cs : Casing) (q : Quote) (tickets : List NewTicket) : Except ApiError Unit := do
  let s ← tickets.foldlM (acceptTicket cs) ⟨[], []⟩
  ensure (tickets ≠ [] ∧ tickets.length ≤ 20 ∧ sameEntries s.actual q.differences)
    (invalid "REISSUE_ALLOCATION_MISMATCH")

/-! ## Successors -/

/-- A part of an entitlement that a captured operation paid. -/
structure Funding where
  operationId : Uuid
  amount : Int
  deriving DecidableEq

/-- The states of an entitlement. -/
inductive EntitlementState where
  | active
  | refunded
  | reissued
  | voided
  deriving DecidableEq, Repr

/-- A row of `ticket_management_entitlements`. -/
structure Entitlement where
  id : Uuid
  bookingId : Uuid
  walletAccountId : Uuid
  passengerIndex : Nat
  passengerName : String
  passengerType : String
  ticketNumber : String
  currency : String
  amount : Int
  funding : List Funding
  predecessorId : Option Uuid
  state : EntitlementState
  deriving DecidableEq

/-- The number a new ticket is stored under. -/
def NewTicket.number (cs : Casing) (t : NewTicket) : String := cs.uppercase (trim t.newTicketNumber)

/-- The ticket of a selected entitlement. -/
def ticketOf (tickets : List NewTicket) (id : Uuid) : Option NewTicket :=
  tickets.find? fun t => t.predecessorEntitlementId = id

/-- The part of a successor that the hold pays. -/
def NewTicket.funding (t : NewTicket) (hold : Option Uuid) : Except ApiError (List Funding) :=
  if 0 < t.fareDifferenceAmountMinor then do
    let operation ← fetch hold (conflict "TICKET_HOLD_UNAVAILABLE")
    return [⟨operation, t.fareDifferenceAmountMinor⟩]
  else
    return []

/-- The row that follows a reissued entitlement. -/
def Entitlement.successor (e : Entitlement) (id : Uuid) (number : String) (amount : Int)
    (added : List Funding) : Entitlement :=
  { e with
    id := id
    ticketNumber := number
    amount := amount
    funding := e.funding ++ added
    predecessorId := some e.id
    state := .active }

/-- The body of the loop of `settle` over the selected entitlements, with the rows the booking has by
then. -/
def successor (cs : Casing) (tickets : List NewTicket) (hold : Option Uuid) (rows : List Entitlement)
    (entry : Entitlement × Uuid) : Except ApiError (List Entitlement) := do
  let t ← fetch (ticketOf tickets entry.1.id) (conflict "REISSUE_ALLOCATION_MISMATCH")
  let number := t.number cs
  ensure (number ∉ rows.map (·.ticketNumber)) (conflict "REISSUE_TICKET_ALREADY_EXISTS")
  let added ← t.funding hold
  let amount ← sum [entry.1.amount, t.fareDifferenceAmountMinor]
  return rows ++ [entry.1.successor entry.2 number amount added]

/-- The loop; each successor gets a new id. -/
def successors (cs : Casing) (tickets : List NewTicket) (hold : Option Uuid) (rows : List Entitlement)
    (selected : List (Entitlement × Uuid)) : Except ApiError (List Entitlement) :=
  selected.foldlM (successor cs tickets hold) rows

/-! ## Sums -/

/-- `sum` over the integers, where no addition fails. -/
def sumIntegers (values : List Int) : Except ApiError Int :=
  values.foldlM (fun total n => do
    let _ ← minor n
    minor (total + n)) 0

/-- The checks keep both terms of every addition in range, so `checked_add` always has its result. -/
theorem sum_eq_sumIntegers (values : List Int) : sum values = sumIntegers values := by
  have hall : ∀ start : Int, 0 ≤ start ∧ start ≤ maxMinor →
      values.foldlM (fun total n => do
        let _ ← minor n
        let next ← fetch (i64? (total + n)) (invalid "INVALID_TICKET_AMOUNT")
        minor next) start =
      values.foldlM (fun total n => do
        let _ ← minor n
        minor (total + n)) start := by
    induction values with
    | nil => exact fun _ _ => rfl
    | cons n values ih =>
      intro start hstart
      rw [List.foldlM_cons, List.foldlM_cons]
      cases hn : minor n with
      | error e => rfl
      | ok m =>
        rw [ok_bind, ok_bind, i64?_add hstart (minor_eq_ok.mp hn).1, fetch_some, ok_bind]
        cases hnext : minor (start + n) with
        | error e => rfl
        | ok next =>
          obtain ⟨hrange, rfl⟩ := minor_eq_ok.mp hnext
          exact ih _ hrange
  exact hall 0 ⟨le_rfl, by decide⟩

/-! ## What a quote costs -/

/-- An amount that the UI represents. -/
def InRange (n : Int) : Prop := 0 ≤ n ∧ n ≤ maxMinor

/-- The total of the selected entitlements. -/
def selectedTotal (entitlements : List (Uuid × Int)) : Int := (entitlements.map Prod.snd).sum

namespace Quote

/-- What is charged beside the entitlements. -/
def fees (q : Quote) : Int := q.airlineFeeMinor + q.voidFeeMinor + q.serviceFeeMinor

/-- What the customer is paid. -/
def credit (q : Quote) : Int := if q.direction = .credit then q.customerAmountMinor else 0

/-- What the customer pays. -/
def debit (q : Quote) : Int := if q.direction = .debit then q.customerAmountMinor else 0

/-- The fare differences of a reissue. -/
def allocated (q : Quote) : List Int :=
  q.reissueFareDifferenceAllocations.map (·.fareDifferenceAmountMinor)

/-- The lists of amounts that `validate` adds up. -/
def summed (q : Quote) (action : Action) (entitlements : List (Uuid × Int)) : List (List Int) :=
  entitlements.map Prod.snd ::
    if action = .reissue then
      q.allocated :: [q.fareDifferenceMinor, q.airlineFeeMinor, q.serviceFeeMinor] ::
        entitlements.filterMap fun e =>
          (q.allocation e.1).map fun a => [e.2, a.fareDifferenceAmountMinor]
    else [[q.airlineFeeMinor, q.voidFeeMinor, q.serviceFeeMinor]]

/-- What an accepted quote states, and the amounts its check goes through. -/
structure Exact (q : Quote) (action : Action) (entitlements : List (Uuid × Int)) : Prop where
  amounts : ∀ n ∈ q.amounts, InRange n
  sums : ∀ values ∈ q.summed action entitlements, ∀ before, before <+: values → InRange before.sum
  refund : action = .refund → q.credit + q.fees = selectedTotal entitlements ∧ q.debit = 0
  void : action = .void → selectedTotal entitlements - q.fees = q.credit - q.debit
  reissue : action = .reissue →
    q.customerAmountMinor = q.allocated.sum + q.airlineFeeMinor + q.serviceFeeMinor ∧
    q.direction = (if q.customerAmountMinor = 0 then Direction.none else .debit)
  covers : action = .reissue →
    (q.reissueFareDifferenceAllocations.map (·.entitlementId)).Perm (entitlements.map Prod.fst)
  once : (entitlements.map Prod.fst).Nodup

variable {q : Quote} {action : Action} {entitlements : List (Uuid × Int)} {entitlement : Int}
  {direction : Direction} {amount : Int}

/-- What the branch of a reissue returns, and the sums it makes. -/
structure Reissued (q : Quote) (entitlements : List (Uuid × Int)) (direction : Direction)
    (amount : Int) : Prop where
  void : q.voidFeeMinor = 0
  ids : (entitlements.map Prod.fst).toFinset =
    (q.reissueFareDifferenceAllocations.map (·.entitlementId)).toFinset
  once : (q.reissueFareDifferenceAllocations.map (·.entitlementId)).Nodup
  differences : sum q.allocated = .ok q.fareDifferenceMinor
  successors : ∀ e ∈ entitlements, ∃ n, q.successorAmount e = .ok n
  charge : sum [q.fareDifferenceMinor, q.airlineFeeMinor, q.serviceFeeMinor] = .ok amount
  direction : direction = if amount = 0 then .none else .debit

theorem reissueAmount_ok (h : q.reissueAmount entitlements = .ok (direction, amount)) :
    q.Reissued entitlements direction amount := by
  simp only [reissueAmount, bind_eq_ok, ensure_eq_ok, exists_const, pure_eq_ok, Prod.mk.injEq] at h
  obtain ⟨⟨-, hvoid⟩, ⟨hids, hnodup⟩, allocated, hallocated, rfl, _, hsuccessors, charge, hcharge,
    hdirection, rfl⟩ := h
  refine ⟨hvoid, hids, hnodup, hallocated, ?_, hcharge, hdirection.symm⟩
  intro e he
  obtain ⟨n, -, hn⟩ := exists_output hsuccessors he
  exact ⟨n, hn⟩

/-- What the branch of a refund and a void returns. -/
structure Returned (q : Quote) (action : Action) (entitlement : Int) (direction : Direction)
    (amount : Int) : Prop where
  fees : sum [q.airlineFeeMinor, q.voidFeeMinor, q.serviceFeeMinor] = .ok q.fees
  bounded : action = .refund → q.fees ≤ entitlement
  result : (direction, amount) = if q.fees < entitlement then (.credit, entitlement - q.fees)
    else if entitlement < q.fees then (.debit, q.fees - entitlement)
    else (.none, 0)

theorem returnAmount_ok (h : q.returnAmount action entitlement = .ok (direction, amount)) :
    q.Returned action entitlement direction amount := by
  simp only [returnAmount, bind_eq_ok, ensure_eq_ok, exists_const, pure_eq_ok] at h
  obtain ⟨-, fee, hfee, hbound, hresult⟩ := h
  have hfees : fee = q.fees := by
    obtain ⟨-, -, rfl⟩ := sum_eq_ok.mp hfee
    simp only [List.sum_cons, List.sum_nil, Quote.fees]
    omega
  subst hfees
  refine ⟨hfee, ?_, hresult.symm⟩
  intro hrefund
  by_contra hlt
  exact hbound ⟨hrefund, by omega⟩

/-- Paying out what is left, or asking for what is missing, settles the difference. -/
theorem Returned.balance (h : q.Returned action entitlement q.direction q.customerAmountMinor) :
    entitlement - q.fees = q.credit - q.debit := by
  have hresult := h.result
  unfold Quote.credit Quote.debit
  split at hresult
  · rw [Prod.mk.injEq] at hresult
    rw [hresult.1, hresult.2, if_pos rfl, if_neg (by decide)]
    omega
  · split at hresult
    · rw [Prod.mk.injEq] at hresult
      rw [hresult.1, hresult.2, if_pos rfl, if_neg (by decide)]
      omega
    · rw [Prod.mk.injEq] at hresult
      rw [hresult.1, if_neg (by decide), if_neg (by decide)]
      omega

theorem Returned.debit_eq (h : q.Returned action entitlement q.direction q.customerAmountMinor)
    (hrefund : action = .refund) : q.debit = 0 := by
  have hresult := h.result
  have hbound := h.bounded hrefund
  unfold Quote.debit
  split at hresult
  · rw [Prod.mk.injEq] at hresult
    rw [hresult.1, if_neg (by decide)]
  · rw [if_neg (by omega), Prod.mk.injEq] at hresult
    rw [hresult.1, if_neg (by decide)]

/-- What `validate` has checked of a quote it accepts. -/
structure Checked (q : Quote) (action : Action) (entitlements : List (Uuid × Int)) : Prop where
  amounts : ∀ n ∈ q.amounts, InRange n
  once : (entitlements.map Prod.fst).Nodup
  total : sum (entitlements.map Prod.snd) = .ok (selectedTotal entitlements)
  outcome : q.outcome action entitlements (selectedTotal entitlements) =
    .ok (q.direction, q.customerAmountMinor)

theorem validate_ok {currency : String} {now : Int}
    (h : q.validate action currency entitlements now = .ok ()) : q.Checked action entitlements := by
  simp only [validate, bind_eq_ok, ensure_eq_ok, exists_const] at h
  obtain ⟨_, -, -, _, -, -, _, hamounts, ⟨-, -, -, hnodup⟩, total, htotal, outcome,
    houtcome, hdirection, hamount⟩ := h
  obtain rfl : total = selectedTotal entitlements := (sum_eq_ok.mp htotal).2.2
  refine ⟨?_, hnodup, htotal, ?_⟩
  swap
  · rw [houtcome, hdirection, hamount]
  intro n hn
  obtain ⟨m, -, hm⟩ := exists_output hamounts hn
  exact (minor_eq_ok.mp hm).1

/-- The allocation that is found for an entitlement is one of its own. -/
theorem allocation_eq_some {id : Uuid} {a : Allocation} (h : q.allocation id = some a) :
    a ∈ q.reissueFareDifferenceAllocations ∧ a.entitlementId = id := by
  refine ⟨List.mem_of_find?_eq_some h, ?_⟩
  have hfound := List.find?_some (p := fun a : Allocation => decide (a.entitlementId = id)) h
  exact of_decide_eq_true hfound

theorem Reissued.covers (h : q.Reissued entitlements direction amount)
    (honce : (entitlements.map Prod.fst).Nodup) :
    (q.reissueFareDifferenceAllocations.map (·.entitlementId)).Perm (entitlements.map Prod.fst) := by
  rw [List.perm_ext_iff_of_nodup h.once honce]
  intro id
  rw [← List.mem_toFinset, ← List.mem_toFinset, h.ids]

theorem Checked.sums (h : q.Checked action entitlements) {values before : List Int}
    (hvalues : values ∈ q.summed action entitlements) (hbefore : before <+: values) :
    InRange before.sum := by
  have hsummed : ∃ total, sum values = .ok total := by
    rcases List.mem_cons.mp hvalues with rfl | hvalues
    · exact ⟨_, h.total⟩
    · have houtcome := h.outcome
      cases action with
      | refund =>
        rw [if_neg (by decide), List.mem_singleton] at hvalues
        subst hvalues
        exact ⟨_, (returnAmount_ok houtcome).fees⟩
      | void =>
        rw [if_neg (by decide), List.mem_singleton] at hvalues
        subst hvalues
        exact ⟨_, (returnAmount_ok houtcome).fees⟩
      | reissue =>
        have hreissue := reissueAmount_ok houtcome
        rw [if_pos rfl, List.mem_cons, List.mem_cons, List.mem_filterMap] at hvalues
        rcases hvalues with rfl | rfl | ⟨e, he, hvalues⟩
        · exact ⟨_, hreissue.differences⟩
        · exact ⟨_, hreissue.charge⟩
        · obtain ⟨a, ha, rfl⟩ := Option.map_eq_some_iff.mp hvalues
          obtain ⟨n, hn⟩ := hreissue.successors e he
          unfold successorAmount at hn
          rw [ha, fetch_some, ok_bind] at hn
          exact ⟨n, hn⟩
  obtain ⟨total, htotal⟩ := hsummed
  exact sum_prefix htotal hbefore

theorem Checked.exact (h : q.Checked action entitlements) : q.Exact action entitlements where
  amounts := h.amounts
  sums _ hvalues _ hbefore := h.sums hvalues hbefore
  refund := by
    rintro rfl
    have hreturned := returnAmount_ok h.outcome
    have hbalance := hreturned.balance
    have hdebit := hreturned.debit_eq rfl
    exact ⟨by omega, hdebit⟩
  void := by
    rintro rfl
    exact (returnAmount_ok h.outcome).balance
  reissue := by
    rintro rfl
    have hreissue := reissueAmount_ok h.outcome
    obtain ⟨-, -, hdifference⟩ := sum_eq_ok.mp hreissue.differences
    obtain ⟨-, -, hcharge⟩ := sum_eq_ok.mp hreissue.charge
    refine ⟨?_, hreissue.direction⟩
    rw [hcharge, hdifference]
    simp only [List.sum_cons, List.sum_nil]
    omega
  covers := by
    rintro rfl
    exact (reissueAmount_ok h.outcome).covers h.once
  once := h.once

/-! ## No missing allocation -/

/-- An answer of the rules, not the end of an `unwrap`. -/
def Answered (e : ApiError) : Prop := e ≠ unwrapped

instance : DecidablePred Answered := fun e => inferInstanceAs (Decidable (e ≠ unwrapped))

theorem minor_answered (n : Int) : FailsWith Answered (minor n) :=
  .bind (.ensure fun _ => by decide) fun _ _ => .pure _

theorem sum_answered (values : List Int) : FailsWith Answered (sum values) :=
  .foldlM (fun _ n _ => .bind (minor_answered n) fun _ _ =>
    .bind (.fetch fun _ => by decide) fun _ _ => minor_answered _) 0

theorem currency_answered (value : String) : FailsWith Answered (Wallet.currency value) := by
  intro e h
  unfold Wallet.currency at h
  split at h
  · cases h
  · cases h
    decide

/-- The ids were compared before the loop over the entitlements: none of them misses its allocation. -/
theorem allocation_isSome {e : Uuid × Int} (he : e ∈ entitlements)
    (hids : (entitlements.map Prod.fst).toFinset =
      (q.reissueFareDifferenceAllocations.map (·.entitlementId)).toFinset) :
    ∃ a, q.allocation e.1 = some a := by
  have hid : e.1 ∈ (entitlements.map Prod.fst).toFinset :=
    List.mem_toFinset.mpr (List.mem_map_of_mem he)
  rw [hids, List.mem_toFinset, List.mem_map] at hid
  obtain ⟨a, ha, hid⟩ := hid
  refine Option.isSome_iff_exists.mp (List.find?_isSome.mpr ⟨a, ha, ?_⟩)
  exact decide_eq_true hid

theorem reissueAmount_answered (q : Quote) (entitlements : List (Uuid × Int)) :
    FailsWith Answered (q.reissueAmount entitlements) := by
  refine .bind (.ensure fun _ => by decide) fun _ _ => ?_
  refine .bind (.ensure fun _ => by decide) fun _ hids => ?_
  have hids := (ensure_eq_ok.mp hids).1
  refine .bind (sum_answered _) fun _ _ => ?_
  refine .bind (.ensure fun _ => by decide) fun _ _ => ?_
  refine .bind (.mapM fun e he => ?_) fun _ _ => ?_
  · obtain ⟨a, ha⟩ := allocation_isSome he hids
    unfold successorAmount
    rw [ha, fetch_some, ok_bind]
    exact sum_answered _
  · exact .bind (sum_answered _) fun _ _ => .pure _

theorem returnAmount_answered (q : Quote) (action : Action) (entitlement : Int) :
    FailsWith Answered (q.returnAmount action entitlement) :=
  .bind (.ensure fun _ => by decide) fun _ _ =>
    .bind (sum_answered _) fun _ _ => .bind (.ensure fun _ => by decide) fun _ _ => .pure _

theorem outcome_answered (q : Quote) (action : Action) (entitlements : List (Uuid × Int))
    (entitlement : Int) : FailsWith Answered (q.outcome action entitlements entitlement) := by
  cases action with
  | refund => exact q.returnAmount_answered .refund entitlement
  | reissue => exact q.reissueAmount_answered entitlements
  | void => exact q.returnAmount_answered .void entitlement

theorem validate_answered (q : Quote) (action : Action) (currency : String)
    (entitlements : List (Uuid × Int)) (now : Int) :
    FailsWith Answered (q.validate action currency entitlements now) := by
  refine .bind (currency_answered _) fun _ _ => ?_
  refine .bind (.ensure fun _ => by decide) fun _ _ => ?_
  refine .bind (.ensure fun _ => by decide) fun _ _ => ?_
  refine .bind (.ensure fun _ => by decide) fun _ _ => ?_
  refine .bind (.mapM fun n _ => minor_answered n) fun _ _ => ?_
  refine .bind (.ensure fun _ => by decide) fun _ _ => ?_
  refine .bind (sum_answered _) fun _ _ => ?_
  exact .bind (q.outcome_answered action entitlements _) fun _ _ => .ensure fun _ => by decide

/-! ## One outcome for the fees -/

/-- The terms that two quotes for a selection share. -/
structure SameTerms (q q' : Quote) : Prop where
  airline : q.airlineFeeMinor = q'.airlineFeeMinor
  void : q.voidFeeMinor = q'.voidFeeMinor
  service : q.serviceFeeMinor = q'.serviceFeeMinor
  allocations : q.reissueFareDifferenceAllocations = q'.reissueFareDifferenceAllocations

variable {q' : Quote}

theorem SameTerms.fees_eq (h : q.SameTerms q') : q.fees = q'.fees := by
  unfold fees
  rw [h.airline, h.void, h.service]

theorem Returned.unique (h : q.Returned action entitlement q.direction q.customerAmountMinor)
    (h' : q'.Returned action entitlement q'.direction q'.customerAmountMinor)
    (hterms : q.SameTerms q') :
    (q.direction, q.customerAmountMinor) = (q'.direction, q'.customerAmountMinor) := by
  rw [h.result, h'.result, hterms.fees_eq]

theorem Checked.unique (h : q.Checked action entitlements) (h' : q'.Checked action entitlements)
    (hterms : q.SameTerms q') :
    (q.direction, q.customerAmountMinor) = (q'.direction, q'.customerAmountMinor) := by
  have houtcome := h.outcome
  have houtcome' := h'.outcome
  cases action with
  | refund => exact (returnAmount_ok houtcome).unique (returnAmount_ok houtcome') hterms
  | void => exact (returnAmount_ok houtcome).unique (returnAmount_ok houtcome') hterms
  | reissue =>
    have hamount := (h.exact.reissue rfl).1
    have hamount' := (h'.exact.reissue rfl).1
    have hsame : q.customerAmountMinor = q'.customerAmountMinor := by
      rw [hamount, hamount', hterms.airline, hterms.service]
      unfold allocated
      rw [hterms.allocations]
    rw [(h.exact.reissue rfl).2, (h'.exact.reissue rfl).2, hsame]

end Quote

end ShaponTravels.Wallet.TicketManagement
