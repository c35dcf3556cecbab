import ShaponTravels.Wallet.TicketHolds

/-!
# TicketOrder — requests, claims and holds in every reachable state

The wallet has reserved for ticket management what the approved requests that are not settled still owe.
-/

namespace ShaponTravels.Wallet.Tickets

open Library
open TicketManagement (Action Direction Quote Entitlement plainCasing)
open Nonissuance (Actor)

variable {desk : Desk} {db : Db} {r : Request}

/-- What a request owes by the quote that its customer approved. -/
def Db.debitOf (db : Db) (r : Request) : Int := ((db.quote r.approvedQuoteId).map fun row => row.data.debit).getD 0

/-- The operations that are reserved for ticket management on an account. -/
def reservedOn (account : Uuid) (db : Db) : List WalletOperation :=
  db.wallet.operations.filter fun o =>
    o.subjectKind = .ticketManagement ∧ o.walletAccountId = account ∧ o.state = .reserved

/-- The requests of an account that are approved and not settled. -/
def unsettledOn (account : Uuid) (db : Db) : List Request :=
  db.requests.filter fun r => r.walletAccountId = account ∧ r.status = .approved ∧ r.terminalOutcome = none

/-- How the requests, their claims and their holds fit together. -/
structure InOrder (db : Db) : Prop where
  /-- An open request claims what it selected. -/
  claims : ∀ r ∈ db.requests, r.terminalOutcome = none →
    ∀ id, (⟨id, r.id⟩ : Claim) ∈ db.claims ↔ (⟨r.id, id⟩ : Selection) ∈ db.selections
  active : ∀ c ∈ db.claims, ∃ e ∈ db.entitlements, e.id = c.entitlementId ∧ e.state = .active
  single : ∀ c ∈ db.claims, ∀ c' ∈ db.claims, c.entitlementId = c'.entitlementId → c.requestId = c'.requestId
  ended : ∀ r ∈ db.requests, r.terminalOutcome ≠ none → ∀ c ∈ db.claims, c.requestId ≠ r.id
  actions : ∀ r ∈ db.requests, ∀ r' ∈ db.requests, r.bookingId = r'.bookingId → r.action = r'.action →
    r.terminalOutcome = none → r'.terminalOutcome = none → r = r'
  passengers : ∀ e ∈ db.entitlements, ∀ e' ∈ db.entitlements, e.state = .active → e'.state = .active →
    e.bookingId = e'.bookingId → e.passengerIndex = e'.passengerIndex → e = e'
  /-- A hold is that of an approved debit. -/
  hold : ∀ r ∈ db.requests, r.holdOperationId.isSome ↔ r.status = .approved ∧
    ∃ row ∈ db.quotes, r.approvedQuoteId = some row.id ∧ row.data.direction = .debit
  amount : ∀ r ∈ db.requests, ∀ id, r.holdOperationId = some id → ∃ o ∈ db.wallet.operations, ∃ row ∈ db.quotes,
    o.id = id ∧ r.approvedQuoteId = some row.id ∧ o.subjectKind = .ticketManagement ∧
    o.walletAccountId = r.walletAccountId ∧ o.amount = row.data.customerAmountMinor ∧
    o.state = if r.terminalOutcome = none then .reserved else .captured
  /-- Nothing is reserved for a quote of a request that was rejected, expired or reopened. -/
  released : ∀ r ∈ db.requests, r.status ≠ .approved → ∀ row ∈ db.quotes, row.requestId = r.id →
    ∀ o ∈ db.wallet.operations, o.subjectKind = .ticketManagement → o.subjectId = row.id → ¬ o.state.isOpen
  sums : ∀ account, ((reservedOn account db).map (·.amount)).sum = ((unsettledOn account db).map db.debitOf).sum

/-! ## The sums -/

theorem quote_of_mem (hk : Keys db) {row : QuoteRow} (hrow : row ∈ db.quotes) : db.quote (some row.id) = some row :=
  hk.quotes.lookup hrow

/-- The unsettled requests that hold something. -/
def holdingOn (account : Uuid) (db : Db) : List Request :=
  (unsettledOn account db).filter fun r => r.holdOperationId ≠ none

theorem Tidy.debitOf_of_free (h : Tidy db) (hr : r ∈ db.requests) (hstatus : r.status = .approved)
    (hhold : r.holdOperationId = none) : db.debitOf r = 0 := by
  obtain ⟨row, hrow, happroved, -, -, hsecured⟩ := (h.held.backed r hr).approved hstatus
  unfold Db.debitOf
  rw [happroved, quote_of_mem h.keys hrow]
  cases hsecured with
  | free hdirection _ => exact if_neg hdirection
  | debit o _ _ hsome =>
    rw [hhold] at hsome
    cases hsome

/-- The operation that an unsettled request holds, for what the request owes. -/
theorem Tidy.reserved_of_hold (h : Tidy db) (hr : r ∈ db.requests) (hopen : r.terminalOutcome = none) {id : Uuid}
    (hhold : r.holdOperationId = some id) : ∃ o ∈ reservedOn r.walletAccountId db, o.id = id ∧ o.amount = db.debitOf r := by
  obtain ⟨-, row, hrow, o, ho, hid, happroved, -, hdirection, hdebits, hstate⟩ := (h.held.backed r hr).hold hhold
  rw [if_pos hopen] at hstate
  refine ⟨o, List.mem_filter.mpr ⟨ho, decide_eq_true ⟨hdebits.kind, hdebits.account, hstate⟩⟩, hid, ?_⟩
  unfold Db.debitOf
  rw [happroved, quote_of_mem h.keys hrow, hdebits.amount]
  exact (if_pos hdirection).symm

theorem Tidy.sums (h : Tidy db) (account : Uuid) :
    ((reservedOn account db).map (·.amount)).sum = ((unsettledOn account db).map db.debitOf).sum := by
  have hunsettled : ∀ r ∈ unsettledOn account db, r ∈ db.requests ∧ r.walletAccountId = account ∧
      r.status = .approved ∧ r.terminalOutcome = none := by
    intro r hr
    simpa [unsettledOn] using hr
  -- the requests that hold nothing owe nothing
  have hholding : ((unsettledOn account db).map db.debitOf).sum = ((holdingOn account db).map db.debitOf).sum := by
    unfold holdingOn
    rw [sum_filter_map (fun r : Request => r.holdOperationId ≠ none)]
    refine sum_congr fun r hr => ?_
    obtain ⟨hmem, -, hstatus, -⟩ := hunsettled r hr
    split
    · rfl
    · rename_i hnone
      exact h.debitOf_of_free hmem hstatus (not_not.mp hnone)
  rw [hholding]
  have hmem : ∀ r ∈ holdingOn account db, r ∈ unsettledOn account db ∧ ∃ id, r.holdOperationId = some id := by
    intro r hr
    obtain ⟨hold, hsome⟩ := List.mem_filter.mp hr
    exact ⟨hold, Option.ne_none_iff_exists'.mp (of_decide_eq_true hsome)⟩
  have hoperations : KeyUnique (fun o : WalletOperation => some o.id) (reservedOn account db) := by
    have hids : ((reservedOn account db).map WalletOperation.id).Nodup :=
      h.keys.wallet.keyed.operations.sublist (List.filter_sublist.map _)
    have hsome := hids.map (Option.some_injective Uuid)
    rw [List.map_map] at hsome
    exact hsome
  -- no two requests have one hold
  have hholds : KeyUnique Request.holdOperationId (holdingOn account db) := by
    have hnodup : (holdingOn account db).Nodup :=
      (List.Nodup.of_map _ h.keys.requests).sublist (List.filter_sublist.trans List.filter_sublist)
    refine (List.nodup_map_iff_inj_on hnodup).mpr fun r hr r' hr' heq => ?_
    obtain ⟨hold, id, hid⟩ := hmem r hr
    have hr := (hunsettled r hold).1
    have hr' := (hunsettled r' (hmem r' hr').1).1
    exact h.keys.requests.eq_of_key hr hr' (h.held.owner h.keys hr hr' hid (heq ▸ hid))
  refine sum_matched hoperations hholds ?_ ?_
  · intro o ho
    obtain ⟨hmem, hkind, haccount, hstate⟩ : o ∈ db.wallet.operations ∧ o.subjectKind = .ticketManagement ∧
        o.walletAccountId = account ∧ o.state = .reserved := by simpa [reservedOn] using ho
    obtain ⟨r, hr, hstatus, hopen, hhold⟩ := (h.held.reserved o hmem hkind).2 hstate
    obtain ⟨o', ho', hid, hamount⟩ := h.reserved_of_hold hr hopen hhold
    have hmem' : o' ∈ db.wallet.operations := (List.mem_filter.mp ho').1
    obtain rfl := h.keys.wallet.keyed.operations.eq_of_key hmem' hmem hid
    have haccount' : r.walletAccountId = account := by
      have hof : o'.walletAccountId = r.walletAccountId := (of_decide_eq_true (List.mem_filter.mp ho').2).2.1
      exact hof.symm.trans haccount
    refine ⟨r, ?_, hhold, hamount.symm⟩
    exact List.mem_filter.mpr ⟨List.mem_filter.mpr ⟨hr, decide_eq_true ⟨haccount', hstatus, hopen⟩⟩, by simp [hhold]⟩
  · intro r hr
    obtain ⟨hold, id, hid⟩ := hmem r hr
    obtain ⟨hr, haccount, -, hopen⟩ := hunsettled r hold
    obtain ⟨o, ho, rfl, -⟩ := h.reserved_of_hold hr hopen hid
    exact ⟨o, haccount ▸ ho, hid.symm⟩

/-! ## The order of the tables -/

theorem Tidy.inOrder (h : Tidy db) : InOrder db := by
  have hk := h.keys
  constructor
  case claims => exact h.claimed.held
  case active => exact h.claimed.active
  case single => exact fun c hc c' hc' hid => congrArg Claim.requestId (hk.claims.eq_of_key hc hc' hid)
  case ended =>
    intro r hr hended c hc hid
    obtain ⟨r', hr', hid', hopen⟩ := h.claimed.unended c hc
    obtain rfl := hk.requests.eq_of_key hr' hr (hid'.trans hid)
    exact hended hopen
  case actions =>
    intro r hr r' hr' hbooking haction hopen hopen'
    exact hk.requests.eq_of_key hr hr' (h.claimed.actions r hr r' hr' hbooking haction hopen hopen')
  case passengers =>
    intro e he e' he' hactive hactive' hbooking hindex
    exact hk.entitlements.ids.eq_of_key he he' (hk.entitlements.passengers e he e' he' hactive hactive' hbooking hindex)
  case hold =>
    intro r hr
    constructor
    · intro hsome
      obtain ⟨id, hid⟩ := Option.isSome_iff_exists.mp hsome
      obtain ⟨hstatus, row, hrow, -, -, -, happroved, -, hdirection, -⟩ := (h.held.backed r hr).hold hid
      exact ⟨hstatus, row, hrow, happroved, hdirection⟩
    · rintro ⟨hstatus, row, hrow, happroved, hdirection⟩
      obtain ⟨row', hrow', happroved', -, -, hsecured⟩ := (h.held.backed r hr).approved hstatus
      obtain rfl := hk.quotes.eq_of_key hrow' hrow (Option.some.inj (happroved'.symm.trans happroved))
      cases hsecured with
      | free hnot _ => exact absurd hdirection hnot
      | debit o _ _ hhold => exact Option.isSome_iff_exists.mpr ⟨o.id, hhold⟩
  case amount =>
    intro r hr id hid
    obtain ⟨-, row, hrow, o, ho, heq, happroved, -, -, hdebits, hstate⟩ := (h.held.backed r hr).hold hid
    exact ⟨o, ho, row, hrow, heq, happroved, hdebits.kind, hdebits.account, hdebits.amount, hstate⟩
  case released =>
    intro r hr hstatus row hrow hrequest o ho hkind hsubject hopen
    obtain ⟨hne, hheld⟩ := h.held.reserved o ho hkind
    have hreserved : o.state = .reserved := by
      cases hstate : o.state with
      | reserved => rfl
      | reconciliation => exact absurd hstate hne
      | captured | released =>
        rw [hstate] at hopen
        cases hopen
    -- the operation is held by the request of its quote, which is an approved one
    obtain ⟨r', hr', hstatus', -, hhold⟩ := hheld hreserved
    obtain ⟨-, row', hrow', o', ho', hid, -, hrequest', -, hdebits, -⟩ := (h.held.backed r' hr').hold hhold
    obtain rfl := hk.wallet.keyed.operations.eq_of_key ho' ho hid
    obtain rfl := hk.quotes.eq_of_key hrow' hrow (hdebits.subject.symm.trans hsubject)
    obtain rfl := hk.requests.eq_of_key hr' hr (hrequest'.symm.trans hrequest)
    exact hstatus hstatus'
  case sums => exact h.sums

/-- In every reachable state an open request claims its active entitlements and no other request does, an
ended one claims nothing, a hold is that of an approved debit, and the wallet has reserved what the unsettled
requests owe. -/
theorem requests_inOrder (desk : Desk) (db : Db) (h : (machine desk).Reachable db) : InOrder db :=
  (tidy_reachable h).inOrder

/-! ### A refund and a reissue of one flight -/

def sampleTraveller (first : String) : Value :=
  .object [("passengerType", .str "ADT"), ("nameElement", .object [("firstName", .str first), ("lastName", .str "Ali")])]

/-- A flight of two passengers. -/
def sampleFlight : Booking.FlightBooking where
  id := 5
  clientId := 1
  offerId := 1
  priceId := 6
  supplierId := "s"
  idempotencyKey := "k"
  requestHash := 0
  request := .object [("passengerInfoes", .arr [sampleTraveller "Rahim", sampleTraveller "Karim"])]
  state := .held
  executionMode := .hold
  originalResponse := none
  publicResponse := none
  pnr := none
  supplierBookingRef := none
  ticketingTimeLimit := none
  errorCode := none
  lastReconciliation := none
  lastReconciliationVerified := false
  reconciledAt := none
  publicRef := some "BK-1"
  portalHoldDraftId := none
  createdByExternalUserId := none
  portalCustomerContact := none
  createdAt := 0
  updatedAt := 0

def sampleNumber (number : String) : Value := .object [("ticketNumbers", .arr [.str number])]

def sampleIssue : Booking.TicketIssue where
  id := 7
  bookingId := 5
  clientId := 1
  idempotencyKey := "k"
  requestHash := 0
  state := .issued
  request := .null
  preflight := .null
  originalResponse := none
  publicResponse := some (.object [("item1", .object [("ticketInfoes",
    .arr [sampleNumber "176-1", sampleNumber "176-2"])])])
  walletRequired := true
  createdAt := 0
  updatedAt := 0

def sampleSegment : Value :=
  .object [("from", .str "DAC"), ("to", .str "CXB"), ("departure", .str "2026-11-01"), ("airlineCode", .str "BG")]

def samplePrice : Booking.Reprice where
  id := 6
  offerId := 1
  clientId := 1
  version := 1
  original := .null
  selling := .object [("item1", .object [("directions", .arr [.arr [.object [("segments", .arr [sampleSegment])]]])])]
  referenceMap := .null
  audience := "b2b"
  agentId := none
  currency := "BDT"
  tierPricing := some (.object [("gross", .str "220.00"), ("payable", .str "200.00"),
    ("passengers", .object [("adt", .object [("count", .ofInt 2), ("payable", .str "100.00")])])])
  acceptedAt := some 1
  expiresAt := 0

def sampleRecords : Records where
  bookings := [sampleFlight]
  issues := [sampleIssue]
  reprices := [samplePrice]
  verifications := []
  imports := []
  agencies := [⟨"AG1", true, "user_o", true, none⟩]
  clients := []
  staff := [("user_s", "staff_account")]

def sampleDesk : Desk where
  pf := ⟨fun s => BitVec.ofNat 256 s.length, id, id, id⟩
  cs := plainCasing
  rfc3339 := fun t => toString t
  dateOf := fun _ => some 0

def sampleAgent : Actor := ⟨"user_o", "b2b", some ⟨"agency", "AG1"⟩, .object []⟩
def sampleAdmin : Actor := ⟨"user_a", "admin", none, .object []⟩

def sampleDraw (n : Nat) : Draw where
  now := n
  clock := n
  reference := n
  quote := BitVec.ofNat 128 (1000 * n)
  operation := BitVec.ofNat 128 (1000 * n + 1)
  entries := fun i => BitVec.ofNat 128 (1000 * n + 10 + i)
  entitlements := fun i => BitVec.ofNat 128 (1000 * n + 100 + i)

/-- The price of the flight is paid and captured. -/
def samplePaid : List Command :=
  [.wallet (.provision ⟨"agency", "AG1"⟩ "BDT" (.object []) 2 3),
    .wallet (.posting ⟨20, 3, "deposit", 100000, none, none, "deposit:1", 0, "x", "admin", "", .object [], 0⟩),
    .wallet (.reserve ⟨50, 3, "ticket_issue", 7, some 5, 20000, "BDT", "x", "b2b"⟩ ⟨21, 0⟩),
    .wallet (.settle 50 true "x" "system" ⟨22, 0⟩)]

/-- The first passenger is refunded, with a fee. -/
def sampleRefund : List Command :=
  [.create sampleAgent ⟨90, "BK-1", .refund, .voluntary, [0], [0], none⟩ (sampleDraw 1),
    .mutate sampleAdmin ⟨90, 1, 91, .review true none⟩ (sampleDraw 2),
    .mutate sampleAdmin ⟨90, 2, 92, .publishQuote ⟨.credit, "BDT", 10000, 0, 1000, 0, 500, 8500, 100, none, []⟩⟩
      (sampleDraw 3),
    .mutate sampleAgent ⟨90, 3, 93, .customerDecision 3000 true none⟩ (sampleDraw 4),
    .mutate sampleAdmin ⟨90, 4, 94, .completeRefund none⟩ (sampleDraw 5)]

/-- The second passenger approves a dearer ticket. -/
def sampleApproval : List Command :=
  [.create sampleAgent ⟨190, "BK-1", .reissue, .voluntary, [1], [0], none⟩ (sampleDraw 11),
    .mutate sampleAdmin ⟨190, 1, 191, .review true none⟩ (sampleDraw 12),
    .mutate sampleAdmin ⟨190, 2, 192, .publishQuote ⟨.debit, "BDT", 0, 3000, 200, 0, 100, 3300, 100, none, [⟨1101, 3000⟩]⟩⟩
      (sampleDraw 13),
    .mutate sampleAgent ⟨190, 3, 193, .customerDecision 13000 true none⟩ (sampleDraw 14)]

def sampleRun (commands : List Command) : Except ApiError Db :=
  commands.foldlM (Db.step sampleDesk) (.start sampleRecords)

theorem sampleRun_reachable {commands : List Command} {db : Db} (h : sampleRun commands = .ok db) :
    (machine sampleDesk).Reachable db := by
  obtain ⟨t, hrun⟩ := Machine.Run.foldlM (M := machine sampleDesk) (fun _ _ _ h => .inl h) (.nil _) h
  exact ⟨_, t, ⟨sampleRecords, rfl⟩, hrun⟩

/-- After the approval the difference and the fees of the new ticket are reserved. -/
theorem requests_inOrder_approved : ∃ db, sampleRun (samplePaid ++ sampleRefund ++ sampleApproval) = .ok db ∧
    (reservedOn 3 db).map (·.amount) = [3300] ∧ (unsettledOn 3 db).map (·.id) = [190] ∧ InOrder db := by
  have hrun : (sampleRun (samplePaid ++ sampleRefund ++ sampleApproval)).map (fun db =>
      ((reservedOn 3 db).map (·.amount), (unsettledOn 3 db).map (·.id))) = .ok ([3300], [190]) := by decide +kernel
  obtain ⟨db, hdb, heq⟩ := map_eq_ok.mp hrun
  obtain ⟨hreserved, hunsettled⟩ := Prod.mk.inj heq
  exact ⟨db, hdb, hreserved, hunsettled, requests_inOrder sampleDesk db (sampleRun_reachable hdb)⟩

end ShaponTravels.Wallet.Tickets
