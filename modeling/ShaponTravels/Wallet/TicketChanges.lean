import ShaponTravels.Wallet.TicketCommands

/-!
# TicketChanges — what a command does to the tables

Every function of the store is read once.  A command is a path of small changes, of which at most one is a
mutation of the request that it names.
-/

namespace ShaponTravels.Wallet.Tickets

open Library
open Booking (Casing)
open TicketManagement (Action Direction Quote NewTicket Funding Entitlement EntitlementState InitialEntitlement ticketOf)
open Nonissuance (Actor)

variable {desk : Desk} {db db' db₁ db₂ : Db} {actor : Actor} {r r' saved : Request} {input : Mutation}
  {draw : Draw}

/-! ## Rows of entitlements -/

/-- What the keys of `ticket_management_entitlements` keep apart, and the range of the amounts. -/
structure Rows (rows : List Entitlement) : Prop where
  ids : KeyUnique Entitlement.id rows
  passengers : ∀ e ∈ rows, ∀ e' ∈ rows, e.state = .active → e'.state = .active → e.bookingId = e'.bookingId →
    e.passengerIndex = e'.passengerIndex → e.id = e'.id
  amounts : ∀ e ∈ rows, 0 < e.amount ∧ e.amount ≤ TicketManagement.maxMinor

theorem insertEntitlement_ok {rows rows' : List Entitlement} {e : Entitlement} (h : insertEntitlement rows e = .ok rows') :
    rows' = rows ++ [e] ∧ (∀ e' ∈ rows, e'.id ≠ e.id) ∧ (Rows rows → Rows rows') := by
  simp only [insertEntitlement, bind_eq_ok, ensure_eq_ok, exists_const, pure_eq_ok] at h
  obtain ⟨hamount, -, -, hid, -, -, hpassenger, rfl⟩ := h
  refine ⟨rfl, hid, fun hr => ⟨keyUnique_concat.mpr ⟨hr.ids, hid⟩, ?_, ?_⟩⟩
  · intro a ha b hb hactive hactive' hbooking hindex
    rcases List.mem_append.mp ha with hold | hnew <;> rcases List.mem_append.mp hb with hold' | hnew'
    · exact hr.passengers a hold b hold' hactive hactive' hbooking hindex
    · obtain rfl := List.mem_singleton.mp hnew'
      exact absurd ⟨hbooking, hindex, hactive⟩ (hpassenger hactive' a hold)
    · obtain rfl := List.mem_singleton.mp hnew
      exact absurd ⟨hbooking.symm, hindex.symm, hactive'⟩ (hpassenger hactive b hold')
    · rw [List.mem_singleton.mp hnew, List.mem_singleton.mp hnew']
  · intro a ha
    rcases List.mem_append.mp ha with ha | ha
    · exact hr.amounts a ha
    · rw [List.mem_singleton.mp ha]
      exact ⟨by omega, hamount.2⟩

/-- A loop that inserts one row for every element. -/
theorem foldlM_insert {α ε : Type} {f : List Entitlement → α → Except ε (List Entitlement)} {R : α → Entitlement → Prop}
    (hf : ∀ rows a rows', f rows a = .ok rows' →
      ∃ e, R a e ∧ rows' = rows ++ [e] ∧ (∀ e' ∈ rows, e'.id ≠ e.id) ∧ (Rows rows → Rows rows'))
    {as : List α} {rows rows' : List Entitlement} (h : as.foldlM f rows = .ok rows') :
    ∃ added, rows' = rows ++ added ∧ List.Forall₂ R as added ∧
      (∀ e ∈ added, ∀ e' ∈ rows, e'.id ≠ e.id) ∧ (Rows rows → Rows rows') := by
  induction as generalizing rows with
  | nil =>
    obtain rfl := pure_eq_ok.mp h
    exact ⟨[], by simp, .nil, by simp, fun hr => hr⟩
  | cons a as ih =>
    rw [List.foldlM_cons, bind_eq_ok] at h
    obtain ⟨rows₁, hfirst, hrest⟩ := h
    obtain ⟨e, hR, rfl, hnew, hkeeps⟩ := hf _ _ _ hfirst
    obtain ⟨added, rfl, hall, hfresh, hkeeps'⟩ := ih hrest
    refine ⟨e :: added, by simp, .cons hR hall, ?_, fun hr => hkeeps' (hkeeps hr)⟩
    intro e₁ he₁ e' he'
    rcases List.mem_cons.mp he₁ with rfl | he₁
    · exact hnew e' he'
    · exact hfresh e₁ he₁ e' (List.mem_append_left _ he')

/-- The first rows of a booking. -/
structure Initialized (cs : Casing) (db : Db) (b : ChargedBooking) (draw : Draw) (added : List Entitlement) : Prop where
  none : ∀ e ∈ db.entitlements, e.bookingId ≠ b.id
  rows : ∃ initial, allocation cs b = .ok initial ∧
    List.Forall₂ (fun e row => row = initialRow b e.1 (draw.entitlements e.2)) initial.zipIdx added
  fresh : ∀ e ∈ added, ∀ e' ∈ db.entitlements, e'.id ≠ e.id
  keeps : Rows db.entitlements → Rows (db.entitlements ++ added)

theorem initializeEntitlements_ok {cs : Casing} {b : ChargedBooking}
    (h : initializeEntitlements cs db b draw = .ok db') :
    db' = db ∨ ∃ added, Initialized cs db b draw added ∧ db' = { db with entitlements := db.entitlements ++ added } := by
  unfold initializeEntitlements at h
  split at h
  · exact .inl (Except.ok.inj h).symm
  · rename_i hnone
    simp only [bind_eq_ok, mapError_eq_ok, pure_eq_ok] at h
    obtain ⟨initial, hinitial, rows, hrows, rfl⟩ := h
    obtain ⟨added, rfl, hall, hfresh, hkeeps⟩ := foldlM_insert
      (R := fun e row => row = initialRow b e.1 (draw.entitlements e.2)) (fun rows e rows' h => ⟨_, rfl, insertEntitlement_ok h⟩) hrows
    have hempty : db.entitlementsOf b.id = [] := not_not.mp hnone
    refine .inr ⟨added, ⟨?_, ⟨initial, hinitial, hall⟩, hfresh, hkeeps⟩, rfl⟩
    intro e he hbooking
    have hmem : e ∈ db.entitlementsOf b.id := List.mem_filter.mpr ⟨he, by simpa using hbooking⟩
    rw [hempty] at hmem
    cases hmem

/-- The state of an entitlement of a settled request. -/
def closedState : Outcome → EntitlementState
  | .refunded => .refunded
  | .reissued => .reissued
  | _ => .voided

theorem closedState_ne (outcome : Outcome) : closedState outcome ≠ .active := by
  cases outcome <;> decide

/-- Rows after some of them were closed. -/
def closeRows (outcome : Outcome) (ids : List Uuid) (rows : List Entitlement) : List Entitlement :=
  rows.map fun e => if e.id ∈ ids then { e with state := closedState outcome } else e

theorem close_ok {outcome : Outcome} {rows rows' : List Entitlement} {e : Entitlement}
    (h : close outcome rows e = .ok rows') :
    rows' = closeRows outcome [e.id] rows := by
  simp only [close, bind_eq_ok, ensure_eq_ok, exists_const, pure_eq_ok] at h
  obtain ⟨-, rfl⟩ := h
  unfold Library.modify closeRows
  refine List.map_congr_left fun e' _ => ?_
  by_cases hid : e'.id = e.id
  · rw [if_pos hid, if_pos (List.mem_singleton.mpr hid)]
    cases outcome <;> rfl
  · rw [if_neg hid, if_neg (fun hmem => hid (List.mem_singleton.mp hmem))]

theorem closeRows_closeRows (outcome : Outcome) (ids ids' : List Uuid) (rows : List Entitlement) :
    closeRows outcome ids' (closeRows outcome ids rows) = closeRows outcome (ids ++ ids') rows := by
  unfold closeRows
  rw [List.map_map]
  refine List.map_congr_left fun e _ => ?_
  show (if (if e.id ∈ ids then _ else e).id ∈ ids' then _ else _) = _
  by_cases hids : e.id ∈ ids <;> by_cases hids' : e.id ∈ ids' <;> simp [hids, hids']

theorem closeRows_nil (outcome : Outcome) (rows : List Entitlement) : closeRows outcome [] rows = rows := by
  simp [closeRows]

/-- The loop that closes the selected rows. -/
theorem foldlM_close {outcome : Outcome} {selected rows rows' : List Entitlement}
    (h : selected.foldlM (close outcome) rows = .ok rows') :
    rows' = closeRows outcome (selected.map (·.id)) rows := by
  induction selected generalizing rows with
  | nil =>
    obtain rfl := pure_eq_ok.mp h
    exact (closeRows_nil outcome _).symm
  | cons e selected ih =>
    rw [List.foldlM_cons, bind_eq_ok] at h
    obtain ⟨rows₁, hfirst, hrest⟩ := h
    obtain rfl := close_ok hfirst
    rw [ih hrest, closeRows_closeRows]
    rfl

theorem mem_closeRows {outcome : Outcome} {ids : List Uuid} {rows : List Entitlement} {e' : Entitlement}
    (h : e' ∈ closeRows outcome ids rows) :
    ∃ e ∈ rows, (e.id ∈ ids ∧ e' = { e with state := closedState outcome }) ∨ (e.id ∉ ids ∧ e' = e) := by
  obtain ⟨e, he, rfl⟩ := List.mem_map.mp h
  refine ⟨e, he, ?_⟩
  by_cases hid : e.id ∈ ids
  · exact .inl ⟨hid, if_pos hid⟩
  · exact .inr ⟨hid, if_neg hid⟩

theorem Rows.close {rows : List Entitlement} (h : Rows rows) (outcome : Outcome) (ids : List Uuid) :
    Rows (closeRows outcome ids rows) := by
  have hmap : (closeRows outcome ids rows).map Entitlement.id = rows.map Entitlement.id := by
    rw [closeRows, List.map_map]
    refine List.map_congr_left fun e _ => ?_
    show (if e.id ∈ ids then _ else e).id = e.id
    split <;> rfl
  have hactive : ∀ e' ∈ closeRows outcome ids rows, e'.state = .active → e' ∈ rows := by
    intro e' he' hstate
    obtain ⟨e, he, ⟨-, rfl⟩ | ⟨-, rfl⟩⟩ := mem_closeRows he'
    · exact absurd hstate (closedState_ne outcome)
    · exact he
  refine ⟨?_, ?_, ?_⟩
  · unfold KeyUnique
    rw [hmap]
    exact h.ids
  · intro e he e' he' hstate hstate'
    exact h.passengers e (hactive e he hstate) e' (hactive e' he' hstate') hstate hstate'
  · intro e' he'
    obtain ⟨e, he, ⟨-, rfl⟩ | ⟨-, rfl⟩⟩ := mem_closeRows he'
    · exact h.amounts e he
    · exact h.amounts _ he

/-- How a reissued row is followed: with the number and the difference of its ticket. -/
structure Succeeded (cs : Casing) (r : Request) (tickets : List NewTicket) (entry : Entitlement × Uuid)
    (e : Entitlement) (t : NewTicket) (added : List Funding) : Prop where
  ticket : ticketOf tickets entry.1.id = some t
  nonneg : 0 ≤ t.fareDifferenceAmountMinor
  funding : (added = [] ∧ t.fareDifferenceAmountMinor = 0) ∨ ∃ hold, r.holdOperationId = some hold ∧
    0 < t.fareDifferenceAmountMinor ∧ added = [⟨hold, t.fareDifferenceAmountMinor⟩]
  row : e = r.successor entry (t.number cs) (entry.1.amount + t.fareDifferenceAmountMinor) added

theorem succeed_ok {cs : Casing} {tickets : List NewTicket} {rows rows' : List Entitlement} {entry : Entitlement × Uuid}
    (h : succeed cs r tickets rows entry = .ok rows') :
    ∃ e, (∃ t added, Succeeded cs r tickets entry e t added) ∧ rows' = rows ++ [e] ∧ (∀ e' ∈ rows, e'.id ≠ e.id) ∧
      (Rows rows → Rows rows') := by
  simp only [succeed, bind_eq_ok, fetch_eq_ok, ensure_eq_ok, exists_const, mapError_eq_ok] at h
  obtain ⟨t, ht, -, added, hadded, amount, hamount, hinsert⟩ := h
  obtain ⟨hnonneg, -, hsum⟩ := TicketManagement.sum_eq_ok.mp hamount
  have hpos : 0 ≤ t.fareDifferenceAmountMinor := hnonneg _ (by simp)
  have htotal : amount = entry.1.amount + t.fareDifferenceAmountMinor := by
    rw [hsum, List.sum_cons, List.sum_singleton]
  have hfunding : (added = [] ∧ t.fareDifferenceAmountMinor = 0) ∨ ∃ hold, r.holdOperationId = some hold ∧
      0 < t.fareDifferenceAmountMinor ∧ added = [⟨hold, t.fareDifferenceAmountMinor⟩] := by
    unfold NewTicket.funding at hadded
    split at hadded
    · rename_i hlt
      simp only [bind_eq_ok, fetch_eq_ok, pure_eq_ok] at hadded
      obtain ⟨hold, hhold, rfl⟩ := hadded
      exact .inr ⟨hold, hhold, hlt, rfl⟩
    · obtain rfl := pure_eq_ok.mp hadded
      exact .inl ⟨rfl, by omega⟩
  exact ⟨_, ⟨t, added, ht, hpos, hfunding, by rw [htotal]⟩, insertEntitlement_ok hinsert⟩

/-! ## Rows of requests -/

/-- What `save` did. -/
structure Saved (db : Db) (r : Request) (previous : Status) (now : Int) (saved : Request) (db' : Db) : Prop where
  row : saved = r.advanced previous now
  stage : r.status = previous ∨ follows previous r.status
  staged : saved.Staged
  unended : ∀ old ∈ db.requests, old.id = r.id → old.terminalOutcome = none ∧ saved.version = old.version + 1
  tables : db' = { db with
    requests := modify Request.id r.id saved.columns db.requests
    claims := remaining db.claims saved }

theorem save_ok {previous : Status} {now : Int} (h : save db r previous now = .ok (saved, db')) :
    Saved db r previous now saved db' := by
  simp only [save, updateRequest, bind_eq_ok, ensure_eq_ok, exists_const, mapError_eq_ok, pure_eq_ok,
    Prod.mk.injEq] at h
  obtain ⟨-, ⟨⟩, hstage, _, ⟨⟨hstaged, -⟩, hold, rfl⟩, rfl, rfl⟩ := h
  refine ⟨rfl, ?_, hstaged, hold, rfl⟩
  unfold checkStage at hstage
  split at hstage
  · rename_i hsame
    exact .inl hsame
  · simp only [transition, ensure_eq_ok] at hstage
    exact .inr hstage.1

/-- An event of a request, the next of the log. -/
structure Logged (db : Db) (r : Request) (start : Option Status) (db' : Db) : Prop where
  event : ∃ ev : Event, ev.requestId = r.id ∧ ev.requestVersion = r.version ∧ ev.fromStatus = start ∧
    ev.toStatus = r.status ∧ db' = { db with events := db.events ++ [ev] }

theorem event_ok {actorId role kind : String} {start : Option Status} {note : Option String} {metadata : Value}
    (h : event db r actorId role kind start note metadata = .ok db') : Logged db r start db' := by
  simp only [event, bind_eq_ok, ensure_eq_ok, exists_const, pure_eq_ok] at h
  exact ⟨_, rfl, rfl, rfl, rfl, h.2.symm⟩

/-! ## Mutations -/

/-- A quote that was checked against the rows of its request. -/
def Validated (db : Db) (r : Request) (q : Quote) : Prop :=
  q.Checked r.action (amountsOf (selections db r))

/-- The quote of a request that its customer decides on. -/
structure Offered (db : Db) (r : Request) (row : QuoteRow) : Prop where
  status : r.status = .awaitingConfirmation
  active : r.activeQuoteId = some row.id
  mem : row ∈ db.quotes
  validated : Validated db r row.data

theorem activeSelections_ok {selected : List Entitlement} (h : activeSelections db r = .ok selected) :
    selected = selections db r ∧ selected ≠ [] ∧ ∀ e ∈ selected, e.state = .active := by
  simp only [activeSelections, bind_eq_ok, ensure_eq_ok, exists_const, pure_eq_ok] at h
  obtain ⟨⟨hne, -, hactive⟩, rfl⟩ := h
  exact ⟨rfl, hne, hactive⟩

theorem quote_ok {id : Option Uuid} {q : Quote} (h : quote db id = .ok q) :
    ∃ row ∈ db.quotes, id = some row.id ∧ row.data = q := by
  simp only [quote, bind_eq_ok, fetch_eq_ok, pure_eq_ok] at h
  obtain ⟨row, hrow, rfl⟩ := h
  obtain ⟨key, rfl, hlookup⟩ := Option.bind_eq_some_iff.mp hrow
  exact ⟨row, lookup_mem hlookup, by rw [lookup_key hlookup], rfl⟩

/-- The operation that holds the debit of a request. -/
structure Debits (r : Request) (row : QuoteRow) (o : WalletOperation) : Prop where
  account : o.walletAccountId = r.walletAccountId
  booking : o.bookingId = some r.bookingId
  kind : o.subjectKind = .ticketManagement
  subject : o.subjectId = row.id
  currency : o.currency.text = r.currency
  amount : o.amount = row.data.customerAmountMinor

/-- A hold that is found valid. -/
structure Holding (db : Db) (r : Request) (row : QuoteRow) (o : WalletOperation) : Prop extends Debits r row o where
  mem : o ∈ db.wallet.operations
  hold : r.holdOperationId = some o.id
  quoted : row ∈ db.quotes ∧ r.approvedQuoteId = some row.id
  reserved : o.state = .reserved
  direction : row.data.direction = .debit

theorem validateHold_ok {id : Uuid} (h : validateHold db r = .ok id) :
    ∃ row o, Holding db r row o ∧ o.id = id := by
  simp only [validateHold, bind_eq_ok, fetch_eq_ok, ensure_eq_ok, exists_const, pure_eq_ok] at h
  obtain ⟨q, hq, hold, hhold, ⟨⟨o, ho, hid, haccount, hbooking, hkind, hsubject, hcurrency, hamount, hstate⟩, hdirection⟩,
    rfl⟩ := h
  obtain ⟨row, hrow, hquote, rfl⟩ := quote_ok hq
  have hrowid : o.subjectId = row.id := Option.some.inj (hsubject.trans hquote)
  exact ⟨row, o, ⟨⟨haccount, hbooking, hkind, hrowid, hcurrency, hamount⟩, ho, by rw [hhold, hid], ⟨hrow, hquote⟩,
    hstate, hdirection⟩, hid⟩

/-- The money of a settlement. -/
inductive Paid (desk : Desk) (db : Db) (actor : Actor) (r : Request) (row : QuoteRow) (draw : Draw)
    (wallet : WalletDb) : Prop where
  | debit (o o' : WalletOperation) (hholding : Holding db r row o)
      (hsettle : Wallet.settle desk.pf db.records.subjects db.wallet o.id true actor.externalUserId actor.role
        (draw.entry 0) = .ok (o', wallet))
  | credit (cs : List (Uuid × Int)) (entries : List Uuid) (hdirection : row.data.direction = .credit)
      (hhold : r.holdOperationId = none)
      (hcredits : credits (selections db r) row.data.customerAmountMinor = .ok (cs, 0))
      (hpost : postCredits desk db.records.subjects db.wallet actor r cs draw = .ok (entries, wallet))
  | none (hdirection : row.data.direction = .none) (hhold : r.holdOperationId = none) (hwallet : wallet = db.wallet)

/-- What a settlement starts from. -/
structure Settling (db : Db) (actor : Actor) (r : Request) (row : QuoteRow) : Prop where
  actor : Settles actor.role actor.externalUserId r.assigneeUserId
  status : r.status = .approved
  approved : r.approvedQuoteId = some row.id
  active : r.activeQuoteId = some row.id
  mem : row ∈ db.quotes
  selected : selections db r ≠ [] ∧ ∀ e ∈ selections db r, e.state = .active

/-- The rows after a settlement: the selected ones are closed, and those of a reissue are followed. -/
structure Rewritten (cs : Casing) (db : Db) (r : Request) (row : QuoteRow) (rows : List Entitlement)
    (added : List Entitlement) : Prop where
  table : rows = closeRows (outcomeOf r.action) ((selections db r).map (·.id)) db.entitlements ++ added
  keeps : Rows db.entitlements → Rows rows
  fresh : ∀ e ∈ added, ∀ e' ∈ db.entitlements, e'.id ≠ e.id
  successors : added = [] ∨ (r.action = .reissue ∧ ∃ tickets ids, row.data.validateTickets cs tickets = .ok () ∧
    (ids.map Prod.fst = selections db r) ∧
    List.Forall₂ (fun entry e => ∃ t funding, Succeeded cs r tickets entry e t funding) ids added)

/-- The changes of a request and of the other tables before `save`. -/
inductive Turn (desk : Desk) (db : Db) (actor : Actor) (r : Request) (input : Mutation) (draw : Draw) :
    Db → Request → Prop where
  | moved (status : Status) (outcome : Option Outcome) (hbefore : r.status ≠ .approved) (hafter : status ≠ .approved)
      (hopen : outcome = none → status = .inProgress ∧ r.status = .requested) :
      Turn desk db actor r input draw db { r with status := status, terminalOutcome := outcome }
  | published (row : QuoteRow) (hrow : row.requestId = r.id) (hnew : ∀ q ∈ db.quotes, q.id ≠ row.id)
      (hstatus : r.status = .inProgress) (hvalidated : Validated db r row.data) :
      Turn desk db actor r input draw { db with quotes := db.quotes ++ [row] }
        { r with activeQuoteId := some row.id, status := .awaitingConfirmation }
  | confirmed (row : QuoteRow) (note : Option String) (hinput : input = .customerDecision row.id true note)
      (hrole : actor.role ∈ customers) (hoffered : Offered db r row) (hdirection : row.data.direction ≠ .debit) :
      Turn desk db actor r input draw db { r with approvedQuoteId := some row.id, status := .approved }
  | held (row : QuoteRow) (note : Option String) (o : WalletOperation) (wallet : WalletDb)
      (hinput : input = .customerDecision row.id true note) (hrole : actor.role ∈ customers)
      (hoffered : Offered db r row) (hdirection : row.data.direction = .debit)
      (hreserve : Wallet.reserve desk.pf db.records.subjects db.wallet (holdOf actor r row.id row.data draw)
        (draw.entry 0) = .ok (o, wallet)) (hreserved : o.state = .reserved) :
      Turn desk db actor r input draw { db with wallet := wallet }
        { r with holdOperationId := some o.id, approvedQuoteId := some row.id, status := .approved }
  | assigned (assignee role : String) (hstatus : r.status = .approved) :
      Turn desk db actor r input draw db { r with assigneeUserId := some assignee, assigneeRole := some role }
  | reopened (hstatus : r.status = .approved) (hhold : r.holdOperationId = none) :
      Turn desk db actor r input draw db (reopen r)
  | released (row : QuoteRow) (o o' : WalletOperation) (wallet : WalletDb) (hstatus : r.status = .approved)
      (hholding : Holding db r row o)
      (hsettle : Wallet.settle desk.pf db.records.subjects db.wallet o.id false actor.externalUserId actor.role
        (draw.entry 0) = .ok (o', wallet)) :
      Turn desk db actor r input draw { db with wallet := wallet } (reopen r)
  | settled (row : QuoteRow) (wallet : WalletDb) (rows added : List Entitlement) (hsettling : Settling db actor r row)
      (hpaid : Paid desk db actor r row draw wallet) (hrewritten : Rewritten desk.cs db r row rows added) :
      Turn desk db actor r input draw { db with wallet := wallet, entitlements := rows }
        { r with terminalOutcome := some (outcomeOf r.action) }

theorem review_ok {accept : Bool} {note : Option String} {s : Step} (h : review db actor r accept note = .ok s) :
    Turn desk db actor r input draw s.db s.request := by
  simp only [review, bind_eq_ok] at h
  obtain ⟨_, -, _, -, h⟩ := h
  split at h
  · simp only [bind_eq_ok, ensure_eq_ok, exists_const, pure_eq_ok] at h
    obtain ⟨hstatus, rfl⟩ := h
    exact .moved .inProgress r.terminalOutcome (by rw [hstatus]; decide) (by decide) fun _ => ⟨rfl, hstatus⟩
  · simp only [bind_eq_ok, ensure_eq_ok, exists_const, pure_eq_ok] at h
    obtain ⟨hstatus, rfl⟩ := h
    have hbefore : r.status ≠ .approved := by
      intro happroved
      rw [happroved] at hstatus
      exact absurd hstatus (by decide)
    exact .moved .rejected (some .staffRejected) hbefore (by decide) fun hnone => absurd hnone (by decide)

theorem publishQuote_ok {q : Quote} {s : Step} (h : publishQuote desk db actor r q draw = .ok s) :
    Turn desk db actor r input draw s.db s.request := by
  simp only [publishQuote, insertQuote, bind_eq_ok, ensure_eq_ok, exists_const, mapError_eq_ok, pure_eq_ok] at h
  obtain ⟨_, -, hstatus, selected, hselected, ⟨⟩, hvalid, _, ⟨hnew, rfl⟩, rfl⟩ := h
  obtain ⟨rfl, -, -⟩ := activeSelections_ok hselected
  exact .published _ rfl hnew hstatus (Quote.validate_ok hvalid)

theorem customerDecision_ok {quoteId : Uuid} {approved : Bool} {note : Option String} {s : Step}
    (h : customerDecision desk db actor r quoteId approved note draw = .ok s) :
    Turn desk db actor r (.customerDecision quoteId approved note) draw s.db s.request := by
  simp only [customerDecision, owner, bind_eq_ok, ensure_eq_ok, exists_const] at h
  obtain ⟨hrole, _, -, ⟨hstatus, hactive⟩, q, hq, -, selected, hselected, ⟨⟩, hvalid, h⟩ := h
  obtain ⟨rfl, -, -⟩ := activeSelections_ok hselected
  obtain ⟨row, hrow, hid, rfl⟩ := quote_ok hq
  obtain rfl := Option.some.inj hid
  have hoffered : Offered db r row := ⟨hstatus, hactive, hrow, Quote.validate_ok hvalid⟩
  cases approved with
  | false =>
    obtain rfl := pure_eq_ok.mp h
    exact .moved .rejected (some .customerRejected) (by rw [hstatus]; decide) (by decide)
      fun hnone => absurd hnone (by decide)
  | true =>
    simp only [if_true, approve, bind_eq_ok] at h
    obtain ⟨⟨db₁, r₁⟩, happrove, h⟩ := h
    obtain rfl := pure_eq_ok.mp h
    split at happrove
    · rename_i hdirection
      simp only [bind_eq_ok, ensure_eq_ok, exists_const, pure_eq_ok] at happrove
      obtain ⟨⟨o, wallet⟩, hreserve, hreserved, heq⟩ := happrove
      obtain ⟨rfl, rfl⟩ := Prod.mk.inj heq
      exact .held row note o wallet rfl hrole hoffered hdirection hreserve hreserved
    · rename_i hdirection
      obtain ⟨rfl, rfl⟩ := Prod.mk.inj (pure_eq_ok.mp happrove)
      exact .confirmed row note rfl hrole hoffered hdirection

theorem assign_ok {assignee : String} {reason : Option String} {s : Step}
    (h : assign db actor r assignee reason = .ok s) : Turn desk db actor r input draw s.db s.request := by
  simp only [assign, bind_eq_ok, ensure_eq_ok, exists_const, fetch_eq_ok, pure_eq_ok] at h
  obtain ⟨_, -, _, -, hstatus, member, -, rfl⟩ := h
  exact .assigned assignee member.2 hstatus

theorem requote_ok {reason : String} {s : Step} (h : requote db actor r reason = .ok s) :
    Turn desk db actor r input draw s.db s.request := by
  simp only [requote, bind_eq_ok, ensure_eq_ok, exists_const, pure_eq_ok] at h
  obtain ⟨_, -, _, -, ⟨hstatus, hhold⟩, rfl⟩ := h
  exact .reopened hstatus hhold

theorem release_ok {reason : String} {s : Step} (h : release desk db actor r reason draw = .ok s) :
    Turn desk db actor r input draw s.db s.request := by
  simp only [release, bind_eq_ok, ensure_eq_ok, exists_const] at h
  obtain ⟨_, -, _, -, ⟨hstatus, -⟩, h⟩ := h
  split at h
  · rename_i id hhold
    simp only [bind_eq_ok, pure_eq_ok] at h
    obtain ⟨id', hvalid, ⟨o', wallet⟩, hsettle, q, -, rfl⟩ := h
    obtain ⟨row, o, hholding, -⟩ := validateHold_ok hvalid
    obtain rfl := Option.some.inj (hhold.symm.trans hholding.hold)
    exact .released row o o' wallet hstatus hholding hsettle
  · rename_i hhold
    obtain rfl := pure_eq_ok.mp h
    exact .reopened hstatus hhold

theorem settleMoney_ok {row : QuoteRow} {entries : List Uuid} {wallet : WalletDb} (hrow : row ∈ db.quotes)
    (happroved : r.approvedQuoteId = some row.id)
    (h : settleMoney desk db actor r row.data (selections db r) draw = .ok (entries, wallet)) :
    (∀ q ∈ db.quotes, q.id = row.id → q = row) → Paid desk db actor r row draw wallet := by
  intro hone
  unfold settleMoney at h
  split at h
  · rename_i hdirection
    simp only [bind_eq_ok, pure_eq_ok] at h
    obtain ⟨id, hvalid, ⟨o', wallet'⟩, hsettle, heq⟩ := h
    obtain ⟨-, rfl⟩ := Prod.mk.inj heq
    obtain ⟨row', o, hholding, rfl⟩ := validateHold_ok hvalid
    have hid : row'.id = row.id := Option.some.inj (hholding.quoted.2.symm.trans happroved)
    obtain rfl := hone row' hholding.quoted.1 hid
    exact .debit o o' hholding hsettle
  · rename_i hdirection
    simp only [bind_eq_ok, ensure_eq_ok, exists_const] at h
    obtain ⟨hhold, ⟨cs, remaining⟩, hcredits, rfl, hpost⟩ := h
    exact .credit cs entries hdirection hhold hcredits hpost
  · rename_i hdirection
    simp only [bind_eq_ok, ensure_eq_ok, exists_const, pure_eq_ok] at h
    obtain ⟨hhold, heq⟩ := h
    obtain ⟨-, rfl⟩ := Prod.mk.inj heq
    exact .none hdirection hhold rfl

theorem succeedAll_ok {cs : Casing} {newTickets : Option (List NewTicket)} {named : List (Entitlement × Uuid)}
    {rows rows' : List Entitlement} (h : succeedAll cs r newTickets named rows = .ok rows') :
    ∃ added, rows' = rows ++ added ∧ (∀ e ∈ added, ∀ e' ∈ rows, e'.id ≠ e.id) ∧ (Rows rows → Rows rows') ∧
      (added = [] ∨ ∃ tickets, newTickets = some tickets ∧
        List.Forall₂ (fun entry e => ∃ t funding, Succeeded cs r tickets entry e t funding) named added) := by
  cases newTickets with
  | none =>
    obtain rfl := Except.ok.inj h
    exact ⟨[], by simp, by simp, fun hr => hr, .inl rfl⟩
  | some tickets =>
    obtain ⟨added, rfl, hall, hfresh, hkeeps⟩ := foldlM_insert (fun _ _ _ h => succeed_ok h) h
    exact ⟨added, rfl, hfresh, hkeeps, .inr ⟨tickets, rfl, hall⟩⟩

theorem closeRows_ids (outcome : Outcome) (ids : List Uuid) (rows : List Entitlement) :
    (closeRows outcome ids rows).map Entitlement.id = rows.map Entitlement.id := by
  rw [closeRows, List.map_map]
  refine List.map_congr_left fun e _ => ?_
  show (if e.id ∈ ids then _ else e).id = e.id
  split <;> rfl

theorem settle_ok {newTickets : Option (List NewTicket)} {metadata : Value}
    (hquotes : KeyUnique QuoteRow.id db.quotes) (haction : newTickets.isSome → r.action = .reissue)
    (h : settle desk db actor r newTickets draw = .ok (db', r', metadata)) : Turn desk db actor r input draw db' r' := by
  simp only [settle, finance, bind_eq_ok, ensure_eq_ok, exists_const, mapError_eq_ok, pure_eq_ok, Prod.mk.injEq] at h
  obtain ⟨hactor, ⟨hstatus, -, hactive⟩, q, hq, selected, hselected, ⟨⟩, htickets, _, -, ⟨entries, wallet⟩, hmoney,
    closed, hclosed, rows, hrows, rfl, rfl, -⟩ := h
  obtain ⟨rfl, hsome, hall⟩ := activeSelections_ok hselected
  obtain ⟨row, hrow, happroved, rfl⟩ := quote_ok hq
  have hone : ∀ q ∈ db.quotes, q.id = row.id → q = row := fun q hq hid => hquotes.eq_of_key hq hrow hid
  obtain rfl := foldlM_close hclosed
  obtain ⟨added, rfl, hfresh, hkeeps, hadded⟩ := succeedAll_ok hrows
  refine .settled row wallet _ added ⟨hactor, hstatus, happroved, hactive.symm.trans happroved, hrow, hsome, hall⟩
    (settleMoney_ok hrow happroved hmoney hone) ⟨rfl, fun hr => hkeeps (hr.close _ _), ?_, ?_⟩
  · intro e he e' he'
    have hmem : e'.id ∈ (closeRows (outcomeOf r.action) ((selections db r).map (·.id)) db.entitlements).map
        Entitlement.id := by
      rw [closeRows_ids]
      exact List.mem_map_of_mem he'
    obtain ⟨e'', he'', hid⟩ := List.mem_map.mp hmem
    exact hid ▸ hfresh e he e'' he''
  · rcases hadded with rfl | ⟨tickets, rfl, hforall⟩
    · exact .inl rfl
    · refine .inr ⟨haction rfl, tickets, _, htickets, ?_, hforall⟩
      rw [List.map_map]
      exact List.zipIdx_map_fst _ _

theorem complete_ok {action : Action} {eventType : String} {newTickets : Option (List NewTicket)}
    {note : Option String} {s : Step} (hquotes : KeyUnique QuoteRow.id db.quotes)
    (haction : newTickets.isSome → action = .reissue)
    (h : complete desk db actor r action eventType newTickets note draw = .ok s) :
    Turn desk db actor r input draw s.db s.request := by
  simp only [complete, bind_eq_ok, ensure_eq_ok, exists_const, pure_eq_ok] at h
  obtain ⟨rfl, ⟨db₁, r₁, metadata⟩, hsettle, rfl⟩ := h
  exact settle_ok hquotes haction hsettle

theorem apply_ok {s : Step} (hquotes : KeyUnique QuoteRow.id db.quotes)
    (h : apply desk db actor r input draw = .ok s) : Turn desk db actor r input draw s.db s.request := by
  cases input with
  | review accept note => exact review_ok h
  | publishQuote q => exact publishQuote_ok h
  | customerDecision quoteId approved note => exact customerDecision_ok h
  | requote reason => exact requote_ok h
  | assign assignee reason => exact assign_ok h
  | completeRefund note => exact complete_ok hquotes (fun hsome => absurd hsome (by decide)) h
  | completeReissue tickets note => exact complete_ok hquotes (fun _ => rfl) h
  | completeVoid note => exact complete_ok hquotes (fun hsome => absurd hsome (by decide)) h
  | releaseReissue reason => exact release_ok h
  | releaseVoid reason => exact release_ok h

/-! ## Changes of the tables -/

/-- One request of the tables is changed, saved, and given an event. -/
structure Turned (desk : Desk) (db : Db) (actor : Actor) (r : Request) (input : Mutation) (draw : Draw)
    (saved : Request) (db' : Db) : Prop where
  mem : r ∈ db.requests
  unended : r.terminalOutcome = none
  change : ∃ db₁ r₁ db₂, Turn desk db actor r input draw db₁ r₁ ∧ Saved db₁ r₁ r.status draw.now saved db₂ ∧
    Logged db₂ saved (some r.status) db'

theorem mutate_ok {value : Value} (hquotes : KeyUnique QuoteRow.id db.quotes) (hr : r ∈ db.requests)
    (h : mutate desk db actor r input draw = .ok (value, db')) :
    ∃ saved, Turned desk db actor r input draw saved db' := by
  simp only [mutate, bind_eq_ok, ensure_eq_ok, exists_const, pure_eq_ok, Prod.mk.injEq] at h
  obtain ⟨-, hunended, s, happly, -, -, ⟨saved, db₂⟩, hsave, db₃, hevent, -, rfl⟩ := h
  exact ⟨saved, hr, hunended, s.db, s.request, db₂, apply_ok hquotes happly, save_ok hsave, event_ok hevent⟩

/-- A quote ran out before its customer decided on it. -/
structure Expired (db : Db) (r : Request) (now : Int) (saved : Request) (db' : Db) : Prop where
  mem : r ∈ db.requests
  status : r.status = .awaitingConfirmation
  change : ∃ db₂, Saved db { r with status := .expired, terminalOutcome := some .confirmationExpired }
    .awaitingConfirmation now saved db₂ ∧ Logged db₂ saved (some r.status) db'

theorem expire_ok (hr : r ∈ db.requests) (h : expire db r draw = .ok (r', db')) :
    (r' = r ∧ db' = db) ∨ Expired db r draw.now r' db' := by
  unfold expire at h
  split at h
  · obtain ⟨rfl, rfl⟩ := Prod.mk.inj (Except.ok.inj h)
    exact .inl ⟨rfl, rfl⟩
  · rename_i hstatus
    have hwaiting : r.status = .awaitingConfirmation := not_not.mp hstatus
    simp only [bind_eq_ok] at h
    obtain ⟨row, -, h⟩ := h
    split at h
    · simp only [bind_eq_ok, pure_eq_ok, Prod.mk.injEq] at h
      obtain ⟨⟨saved, db₂⟩, hsave, db₃, hevent, rfl, rfl⟩ := h
      refine .inr ⟨hr, hwaiting, db₂, save_ok hsave, ?_⟩
      rw [hwaiting]
      exact event_ok hevent
    · obtain ⟨rfl, rfl⟩ := Prod.mk.inj (pure_eq_ok.mp h)
      exact .inl ⟨rfl, rfl⟩

end ShaponTravels.Wallet.Tickets
