import ShaponTravels.Booking.World
import ShaponTravels.Wallet.Changes

/-!
# Transactions — what each committed transaction did

One lemma for each transaction: the checks that passed and the tables it left.  The proofs about
runs start from these and do not unfold a transaction again.
-/

namespace ShaponTravels.Booking

open Library
open Wallet (AuditEvent Draw WalletOperation)

variable {site : Site} {db db' : Db} {j : Job} {reply : SupplierReply} {draw : Draws}

/-- A database with more events on record. -/
def Db.logged (db : Db) (events : List AuditEvent) : Db :=
  { db with wallet := { db.wallet with audit := db.wallet.audit ++ events } }

/-! ## Bookings -/

/-- The row `b` was inserted. -/
structure Inserted (db : Db) (b : FlightBooking) (db' : Db) : Prop where
  id : ∀ b' ∈ db.bookings, b'.id ≠ b.id
  key : ∀ b' ∈ db.bookings, ¬ (b'.clientId = b.clientId ∧ b'.idempotencyKey = b.idempotencyKey)
  offer : b.executionMode = .direct →
    ∀ b' ∈ db.bookings, ¬ (b'.executionMode = .direct ∧ b'.offerId = b.offerId)
  rows : db' = { db with bookings := db.bookings ++ [b] }

theorem insertBooking_ok {b : FlightBooking} (h : insertBooking db b = .ok db') :
    Inserted db b db' := by
  simp only [insertBooking, bind_eq_ok, ensure_eq_ok, exists_const, pure_eq_ok] at h
  obtain ⟨-, hid, hkey, hoffer, -, -, -, hrows⟩ := h
  exact ⟨hid, hkey, hoffer, hrows.symm⟩

theorem auditReserved_logged (db : Db) (creator : Option Creator) (client booking : Uuid) :
    ∃ events, auditReserved db creator client booking = db.logged events := by
  cases creator with
  | none => exact ⟨_, rfl⟩
  | some c => exact ⟨[_] ++ [_], by simp only [Db.logged, ← List.append_assoc]; rfl⟩

theorem bookFresh_ok {m : Machine} {req : BookRequest} {creator : Option Creator} {key : String}
    {hash : Digest} {attempt : Attempt FlightBooking Job}
    (h : bookFresh site db m req creator key hash draw = .ok (attempt, db')) :
    ∃ q db₁ events, Inserted db (newBooking m req creator q key hash draw) db₁ ∧
      attempt = .proceed ((newBooking m req creator q key hash draw).job q) ∧
      db' = db₁.logged events := by
  have hrest : ∃ q db₁, insertBooking db (newBooking m req creator q key hash draw) = .ok db₁ ∧
      attempt = .proceed ((newBooking m req creator q key hash draw).job q) ∧
      db' = auditReserved db₁ creator m.clientId draw.id := by
    cases creator with
    | none =>
      simp only [bookFresh, bind_eq_ok, fetch_eq_ok, ensure_eq_ok, exists_const, mapError_eq_ok,
        pure_eq_ok, Prod.mk.injEq] at h
      obtain ⟨q, -, -, -, -, -, fresh, -, -, db₁, hinsert, hattempt, hdb⟩ := h
      exact ⟨q, db₁, hinsert, hattempt.symm, hdb.symm⟩
    | some c =>
      simp only [bookFresh, bind_eq_ok, fetch_eq_ok, ensure_eq_ok, exists_const, mapError_eq_ok,
        pure_eq_ok, Prod.mk.injEq] at h
      obtain ⟨-, -, q, -, -, -, -, -, fresh, -, -, db₁, hinsert, hattempt, hdb⟩ := h
      exact ⟨q, db₁, hinsert, hattempt.symm, hdb.symm⟩
  obtain ⟨q, db₁, hinsert, hattempt, hdb⟩ := hrest
  obtain ⟨events, hevents⟩ := auditReserved_logged db₁ creator m.clientId draw.id
  exact ⟨q, db₁, events, insertBooking_ok hinsert, hattempt, hdb.trans hevents⟩

/-- A booking request repeats the booking of its key, or reserves a new one. -/
theorem bookOwned_ok {m : Machine} {header : Option String} {req : BookRequest}
    {creator : Option Creator} {attempt : Attempt FlightBooking Job}
    (h : bookOwned site db m header req creator draw = .ok (attempt, db')) :
    ∃ key, idempotencyKey header = .ok key ∧
      ((∃ previous, db.bookingByKey m.clientId key = some previous ∧
          previous.requestHash = site.pf.digest (req.canonical creator).text ∧
          attempt = .replay previous ∧ db' = db) ∨
        (db.bookingByKey m.clientId key = none ∧ ∃ q b db₁ events,
          b = newBooking m req creator q key (site.pf.digest (req.canonical creator).text) draw ∧
          Inserted db b db₁ ∧ attempt = .proceed (b.job q) ∧ db' = db₁.logged events)) := by
  have hrest : ∃ key, idempotencyKey header = .ok key ∧
      ((∃ previous, db.bookingByKey m.clientId key = some previous ∧
          previous.requestHash = site.pf.digest (req.canonical creator).text ∧
          (Attempt.replay previous, db) = (attempt, db')) ∨
        (db.bookingByKey m.clientId key = none ∧ bookFresh site db m req creator key
          (site.pf.digest (req.canonical creator).text) draw = .ok (attempt, db'))) := by
    simp only [bookOwned, bind_eq_ok, ensure_eq_ok, exists_const] at h
    obtain ⟨-, -, -, h⟩ := h
    split at h
    · simp only [bind_eq_ok, ensure_eq_ok, exists_const] at h
      obtain ⟨-, -, key, hkey, client, -, -, h⟩ := h
      refine ⟨key, hkey, ?_⟩
      split at h
      · rename_i previous hold
        simp only [bind_eq_ok, ensure_eq_ok, exists_const, pure_eq_ok] at h
        exact .inl ⟨previous, hold, h⟩
      · rename_i hnone
        exact .inr ⟨hnone, h⟩
    · simp only [bind_eq_ok, ensure_eq_ok, exists_const] at h
      obtain ⟨key, hkey, client, -, -, h⟩ := h
      refine ⟨key, hkey, ?_⟩
      split at h
      · rename_i previous hold
        simp only [bind_eq_ok, ensure_eq_ok, exists_const, pure_eq_ok] at h
        exact .inl ⟨previous, hold, h⟩
      · rename_i hnone
        exact .inr ⟨hnone, h⟩
  obtain ⟨key, hkey, ⟨previous, hold, hhash, heq⟩ | ⟨hnone, h⟩⟩ := hrest
  · obtain ⟨hattempt, hdb⟩ := Prod.mk.inj heq
    exact ⟨key, hkey, .inl ⟨previous, hold, hhash, hattempt.symm, hdb.symm⟩⟩
  · obtain ⟨q, db₁, events, hinserted, hattempt, hdb⟩ := bookFresh_ok h
    exact ⟨key, hkey, .inr ⟨hnone, q, _, db₁, events, rfl, hinserted, hattempt, hdb⟩⟩

theorem resolve_ok {administrator booking : Uuid} {input : ResolutionInput} {now : Int}
    (h : resolve site db administrator booking input now = .ok db') :
    ∃ b response resolutions events, lookup FlightBooking.id booking db.bookings = some b ∧
      (b.state = .outcomeUnknown ∨ b.state = .pending) ∧
      db' = Db.logged { db with
        resolutions := resolutions
        bookings := modify FlightBooking.id booking (fun b =>
          ({ b with state := .manuallyResolved, publicResponse := response,
                    errorCode := none } : FlightBooking).save now) db.bookings } events := by
  simp only [resolve, bind_eq_ok, fetch_eq_ok, ensure_eq_ok, exists_const, pure_eq_ok] at h
  obtain ⟨-, expected, -, b, hb, -, -, hstate, hdb⟩ := h
  exact ⟨b, _, _, _, hb, hstate.imp_right And.left, hdb.symm⟩

/-- What a PNR lookup makes of a booking that no later lookup was saved for. -/
def pnrObserved (site : Site) (c : PnrCall) (body : Value) (now : Int) (b : FlightBooking) :
    FlightBooking :=
  let valid := pnrReadable body c.payload
  if b.reconciledAt.all fun instant => instant ≤ c.started then
    ({ b with
      lastReconciliation := some body
      lastReconciliationVerified := valid
      reconciledAt := some c.started
      ticketingTimeLimit := if valid then site.pnrDeadline body else b.ticketingTimeLimit
        } : FlightBooking).save now
  else b

theorem savePnr_logged (site : Site) (db : Db) (c : PnrCall) (body : Value) (now : Int) :
    ∃ observations events, savePnr site db c body now = Db.logged { db with
      observations := db.observations ++ observations
      bookings := modify FlightBooking.id c.booking (pnrObserved site c body now) db.bookings }
        events := by
  refine ⟨[⟨db.observations.length + 1, c.booking, body, pnrReadable body c.payload, c.started,
    now⟩], ?_⟩
  simp only [savePnr]
  split
  · exact ⟨_, rfl⟩
  · refine ⟨[], ?_⟩
    simp only [Db.logged, List.append_nil]
    rfl

theorem checkReply_ok {booking : Uuid} {response : Option Value} :
    checkReply site db booking response = .ok () ↔ (∃ b ∈ db.bookings, b.id = booking) ∧
      response.all site.jsonb = true ∧ db.bookingWritable booking = true := by
  simp only [checkReply, bind_eq_ok, ensure_eq_ok, exists_const, List.any_eq_true, decide_eq_true_eq]

theorem saveHold_ok {now : Int} (h : saveHold site db j reply now = .ok db') :
    (∃ b ∈ db.bookings, b.id = j.booking) ∧ ∃ events,
      db' = (recordOutcome db j.booking reply.body? now (holdOutcome site j reply)
        (holdLate reply)).logged events := by
  obtain ⟨⟨⟩, hcheck, h⟩ := bind_eq_ok.mp h
  refine ⟨(checkReply_ok.mp hcheck).1, ?_⟩
  split at h
  all_goals
    rw [pure_eq_ok] at h
    exact ⟨_, h.symm⟩

/-- The row of an issue was inserted. -/
structure IssueInserted (db : Db) (t : TicketIssue) (db' : Db) : Prop where
  id : ∀ t' ∈ db.issues, t'.id ≠ t.id
  booking : ∀ t' ∈ db.issues, t'.bookingId ≠ t.bookingId
  cancellation : ∀ c ∈ db.cancellations, c.bookingId ≠ t.bookingId
  rows : db' = { db with issues := db.issues ++ [t] }

theorem insertIssue_ok {t : TicketIssue} (h : insertIssue db t = .ok db') :
    IssueInserted db t db' := by
  simp only [insertIssue, bind_eq_ok, ensure_eq_ok, exists_const, pure_eq_ok] at h
  obtain ⟨-, hcancel, hid, hbooking, -, -, hrows⟩ := h
  exact ⟨hid, hbooking, hcancel, hrows.symm⟩

/-- The direct worker keeps the response, and adds the issue when the booking was pending. -/
theorem saveDirect_ok (h : saveDirect site db j reply draw = .ok db') :
    ∃ saved events, saved = recordOutcome db j.booking reply.body? draw.now
        (directOutcome reply.body? (directIssue site j reply.body? draw).publicResponse) id ∧
      ((db.hasPending j.booking = true ∧ ∃ db₁,
          IssueInserted saved (directIssue site j reply.body? draw) db₁ ∧ db' = db₁.logged events) ∨
        (db.hasPending j.booking = false ∧ db' = saved.logged events)) := by
  simp only [saveDirect, bind_eq_ok] at h
  obtain ⟨-, -, h⟩ := h
  split at h
  · rename_i hpending
    simp only [bind_eq_ok, mapError_eq_ok, pure_eq_ok] at h
    obtain ⟨db₁, hinsert, hdb⟩ := h
    exact ⟨_, _, rfl, .inl ⟨hpending, db₁, insertIssue_ok hinsert, hdb.symm⟩⟩
  · rename_i hpending
    simp only [bind_eq_ok, pure_eq_ok] at h
    obtain ⟨saved, rfl, hdb⟩ := h
    exact ⟨_, _, rfl, .inr ⟨by simpa using hpending, hdb.symm⟩⟩

/-! ## Issues -/

theorem acceptedPayable_ok {snapshot : Option Value} {selling : Value} {currencyText : String}
    {payable : Int}
    (h : Wallet.Ticket.acceptedPayable snapshot selling currencyText = .ok payable) :
    ∃ s text, snapshot = some s ∧ s.field "payable" = .str text ∧
      Wallet.majorToMinor text = .ok payable := by
  simp only [Wallet.Ticket.acceptedPayable, bind_eq_ok, fetch_eq_ok, Value.asStr?_eq_some] at h
  obtain ⟨s, hs, minor, ⟨text, htext, hminor⟩, discount, -, h⟩ := h
  suffices hsame : minor = payable from ⟨s, text, hs, htext, by rw [hminor, hsame]⟩
  -- either sign of the commission leaves the payable that was read
  split at h
  · simp only [bind_eq_ok, ensure_eq_ok, exists_const, pure_eq_ok] at h
    obtain ⟨-, -, -, -, -, -, -, -, -, -, -, -, hsame⟩ := h
    exact hsame
  · simp only [bind_eq_ok, ensure_eq_ok, exists_const, pure_eq_ok] at h
    obtain ⟨-, -, -, -, -, -, -, -, -, -, hsame⟩ := h
    exact hsame

/-- The reservation of an issue: an accepted price whose payable the wallet operation holds. -/
structure Reserved (site : Site) (db : Db) (c : IssueCall) (draw : Draws) (db' : Db) : Prop where
  payable : ∃ b ∈ db.bookings, b.id = c.booking ∧ b.clientId = c.client ∧
    ∃ r ∈ db.reprices, r.id = b.priceId ∧ ∃ a wallet o payable,
      Wallet.Ticket.acceptedPayable r.tierPricing r.selling r.currency = .ok payable ∧
      Wallet.reserve site.pf db.subjects db.wallet (Wallet.Ticket.reservation draw.id c.booking
        c.client c.portal draw.operation a payable r.currency) ⟨draw.entry, draw.now⟩ =
          .ok (o, wallet) ∧
      db' = { db with wallet := wallet }

theorem reserve_ok {c : IssueCall} (h : Wallet.Ticket.reserve site.pf db draw.id c.booking c.client
    c.portal draw.operation ⟨draw.entry, draw.now⟩ = .ok db') : Reserved site db c draw db' := by
  simp only [Wallet.Ticket.reserve, bind_eq_ok, fetch_eq_ok, ensure_eq_ok, exists_const,
    pure_eq_ok] at h
  obtain ⟨r, hprice, payable, hpayable, a, -, -, ⟨o, wallet⟩, hreserve, hdb⟩ := h
  simp only [Wallet.Ticket.acceptedPrice, Option.bind_eq_bind, Option.bind_eq_some_iff] at hprice
  obtain ⟨b, hb, hr⟩ := hprice
  have hb' := List.find?_some hb
  have hr' := List.find?_some hr
  simp only [decide_eq_true_eq] at hb' hr'
  exact ⟨b, List.mem_of_find?_eq_some hb, hb'.1, hb'.2, r, List.mem_of_find?_eq_some hr, hr'.1,
    a.id, wallet, o, payable, hpayable, hreserve, hdb.symm⟩

/-- Everything the transaction of a new issue checked and did. -/
structure Issued (site : Site) (db : Db) (c : IssueCall) (draw : Draws) (t : TicketIssue)
    (db' : Db) : Prop where
  row : ∃ preflight, t = c.row preflight draw
  booking : ∃ b ∈ db.bookings, b.id = c.booking ∧ b.state = .held ∧ b.executionMode = .hold
  done : ∃ db₁ db₂ events, IssueInserted db t db₁ ∧ Reserved site db₁ c draw db₂ ∧
    (lookup TicketIssue.id draw.id db₂.issues).all (Wallet.Ticket.integrity db₂) ∧
    db' = db₂.logged events

theorem commitIssue_ok {c : IssueCall} {attempt : Attempt TicketIssue Job}
    (h : commitIssue site db c draw = .ok (attempt, db')) :
    (∃ old, attempt = .replay old ∧ db' = db) ∨
      (attempt = .proceed (c.job draw.id) ∧ ∃ t, Issued site db c draw t db') := by
  simp only [commitIssue, bind_eq_ok, fetch_eq_ok, ensure_eq_ok, exists_const] at h
  obtain ⟨client, -, -, h⟩ := h
  cases hold : db.existingIssue c.client c.key c.booking with
  | some old =>
    rw [hold] at h
    simp only [bind_eq_ok, pure_eq_ok, Prod.mk.injEq] at h
    obtain ⟨old', -, hattempt, hdb⟩ := h
    exact .inl ⟨old', hattempt.symm, hdb.symm⟩
  | none =>
    rw [hold] at h
    simp only [bind_eq_ok, fetch_eq_ok, ensure_eq_ok, exists_const, mapError_eq_ok, checkIntegrity,
      pure_eq_ok, Prod.mk.injEq] at h
    obtain ⟨b, hb, -, ⟨hheld, hmode⟩, s, -, -, preflight, -, db₁, hinsert, db₂, hreserve, hchecked,
      hattempt, hdb⟩ := h
    exact .inr ⟨hattempt.symm, _, ⟨preflight, rfl⟩, ⟨b, lookup_mem hb, lookup_key hb, hheld, hmode⟩,
      db₁, db₂, _, insertIssue_ok hinsert, reserve_ok hreserve, hchecked, hdb.symm⟩

/-- What the worker of an issue makes of a pending issue. -/
def issueOutcome (site : Site) (j : Job) (reply : SupplierReply) (now : Int) (t : TicketIssue) :
    TicketIssue :=
  let response := reply.body?.bind fun v =>
    site.issuedResponse v j.payload j.passengers j.quote j.booking j.row
  if t.state = .pending then
    { t with
      state := if response.isSome then .issued else .outcomeUnknown
      originalResponse := reply.body?
      publicResponse := response
      updatedAt := now }
  else t

theorem saveIssue_ok {now : Int} (h : saveIssue site db j reply now = .ok db') :
    ∃ events, db' = Db.logged { db with
      issues := modify TicketIssue.id j.row (issueOutcome site j reply now) db.issues } events := by
  simp only [saveIssue] at h
  split at h
  · simp only [bind_eq_ok, pure_eq_ok] at h
    obtain ⟨-, -, hdb⟩ := h
    exact ⟨_, hdb.symm⟩
  · exact ⟨_, (pure_eq_ok.mp h).symm⟩

theorem saveVerification_logged (db : Db) (c : VerifyCall) (now : Int) :
    ∃ events, saveVerification db c now =
      (insertVerification db ⟨c.issue, c.response, c.client, now⟩).logged events := by
  simp only [saveVerification]
  split
  · refine ⟨[], ?_⟩
    simp [Db.logged]
  · exact ⟨_, rfl⟩

theorem saveReconciliation_ok {c : ReconcileCall} {pnr report : SupplierReply}
    (h : saveReconciliation site db c pnr report draw = .ok db') :
    ∃ rows verification events,
      db' = Db.logged (match verification with
        | some response => insertVerification { db with reconciliations := rows }
            ⟨c.issue, response, c.client, draw.now⟩
        | none => { db with reconciliations := rows }) events := by
  simp only [saveReconciliation, bind_eq_ok, fetch_eq_ok, ensure_eq_ok, exists_const,
    pure_eq_ok] at h
  obtain ⟨t, -, -, hdb⟩ := h
  exact ⟨_, _, _, hdb.symm⟩

theorem saveReport_ok {client booking : Uuid} {body : Value} {response : Option Value}
    {requested : Int} (h : saveReport db client booking body response requested draw = .ok db') :
    ∃ reports events, db' = Db.logged { db with reports := reports } events := by
  simp only [saveReport, bind_eq_ok, ensure_eq_ok, exists_const, pure_eq_ok] at h
  exact ⟨_, _, h.2.2.symm⟩

/-! ## Cancellations -/

/-- Everything the transaction of a new cancellation checked and did. -/
structure CancelReserved (db : Db) (c : CancelCall) (draw : Draws) (x : Cancellation)
    (db' : Db) : Prop where
  row : ∃ preflight, x = c.row preflight draw
  booking : ∃ b ∈ db.bookings, b.id = c.booking ∧ b.state = .held ∧ b.executionMode = .hold
  issue : ∀ t ∈ db.issues, t.bookingId ≠ c.booking
  id : ∀ c' ∈ db.cancellations, c'.id ≠ draw.id
  other : ∀ c' ∈ db.cancellations, c'.bookingId ≠ c.booking
  done : ∃ events, db' = Db.logged { db with cancellations := db.cancellations ++ [x] } events

theorem commitCancel_ok {c : CancelCall} {attempt : Attempt Cancellation Job}
    (h : commitCancel site db c draw = .ok (attempt, db')) :
    (∃ old, attempt = .replay old ∧ db' = db) ∨
      (attempt = .proceed (c.job draw.id) ∧ ∃ x, CancelReserved db c draw x db') := by
  simp only [commitCancel, bind_eq_ok, fetch_eq_ok] at h
  obtain ⟨b, hb, h⟩ := h
  cases hold : db.existingCancellation c.client c.key c.booking with
  | some old =>
    rw [hold] at h
    simp only [bind_eq_ok, pure_eq_ok, Prod.mk.injEq] at h
    obtain ⟨old', -, hattempt, hdb⟩ := h
    exact .inl ⟨old', hattempt.symm, hdb.symm⟩
  | none =>
    rw [hold] at h
    simp only [bind_eq_ok, fetch_eq_ok, ensure_eq_ok, exists_const, mapError_eq_ok,
      insertCancellation, pure_eq_ok, Prod.mk.injEq] at h
    obtain ⟨preflight, -, ⟨hheld, hmode, -⟩, hissue, s, -, -, db₁, ⟨-, -, hid, hother, -, -, rfl⟩,
      hattempt, hdb⟩ := h
    exact .inr ⟨hattempt.symm, _, ⟨preflight, rfl⟩, ⟨b, lookup_mem hb, lookup_key hb, hheld, hmode⟩,
      hissue, hid, hother, _, hdb.symm⟩

/-! ## Settlements -/

/-- A finalization of an issue whose hold was released puts the contradiction on record, one of a
resolved issue captures the hold, any other one sets the hold aside. -/
theorem finalize_ok {pf : Platform} {issue : Uuid} {draw : Draw}
    (h : Wallet.Ticket.finalize pf db issue draw = .ok db') :
    ∃ t, lookup TicketIssue.id issue db.issues = some t ∧
      ((t.walletRequired = false ∧ db' = db) ∨
        (t.walletRequired = true ∧ ∃ o, Wallet.Ticket.issueOperation db.wallet issue = some o ∧
          ((o.state = .released ∧
              db' = if Wallet.Ticket.resolved db t then
                  { db with wallet := Wallet.Ticket.recordContradiction db.wallet issue o.id }
                else db) ∨
            (o.state ≠ .released ∧ Wallet.Ticket.resolved db t = true ∧ ∃ o' wallet,
              Wallet.settle pf db.subjects db.wallet o.id true "native-ticket-finalizer" "system"
                draw = .ok (o', wallet) ∧ db' = { db with wallet := wallet }) ∨
            (o.state ≠ .released ∧ Wallet.Ticket.resolved db t = false ∧
              db' = { db with wallet := Wallet.markReconciliation db.wallet o.id })))) := by
  simp only [Wallet.Ticket.finalize, bind_eq_ok, fetch_eq_ok] at h
  obtain ⟨t, ht, h⟩ := h
  refine ⟨t, ht, ?_⟩
  by_cases hrequired : t.walletRequired = true
  · rw [if_neg (by simp [hrequired])] at h
    simp only [bind_eq_ok, fetch_eq_ok] at h
    obtain ⟨o, ho, h⟩ := h
    refine .inr ⟨hrequired, o, ho, ?_⟩
    by_cases hreleased : o.state = .released
    · rw [if_pos hreleased] at h
      refine .inl ⟨hreleased, ?_⟩
      split at h
      · rename_i hresolved
        rw [if_pos hresolved]
        exact (pure_eq_ok.mp h).symm
      · rename_i hresolved
        rw [if_neg hresolved]
        exact (pure_eq_ok.mp h).symm
    · rw [if_neg hreleased] at h
      cases hresolved : Wallet.Ticket.resolved db t with
      | true =>
        rw [if_pos hresolved] at h
        simp only [bind_eq_ok, pure_eq_ok] at h
        obtain ⟨⟨o', wallet⟩, hsettle, hdb⟩ := h
        exact .inr (.inl ⟨hreleased, rfl, o', wallet, hsettle, hdb.symm⟩)
      | false =>
        rw [if_neg (by simp [hresolved])] at h
        simp only [bind_eq_ok, pure_eq_ok] at h
        obtain ⟨-, -, hdb⟩ := h
        exact .inr (.inr ⟨hreleased, rfl, hdb.symm⟩)
  · rw [if_pos hrequired, pure_eq_ok] at h
    exact .inl ⟨by simpa using hrequired, h.symm⟩

/-! ## Reviews -/

/-- Everything a new proposal checked and wrote. -/
structure Proposed (site : Site) (db : Db) (a : Wallet.Nonissuance.Actor) (p : Proposal)
    (db' : Db) : Prop where
  new : lookup Proposal.id p.id db.proposals = none
  requestedBy : p.requestedBy = a.externalUserId
  view : ∃ t view, lookup TicketIssue.id p.issueId db.issues = some t ∧
    Wallet.Nonissuance.inspect site db t = .ok view ∧ view.blocked = none ∧
    view.snapshotHash = p.snapshotHash ∧ ∃ o, view.operation = some o ∧ p.operationId = o.id
  done : ∃ events, db' = Db.logged { db with proposals := db.proposals ++ [p] } events

theorem propose_ok {a : Wallet.Nonissuance.Actor} {id issue : Uuid} {snapshotHash : String}
    {evidence : Confirmation} {now : Int}
    (h : Wallet.Nonissuance.propose site db a id issue snapshotHash evidence now = .ok db') :
    db' = db ∨ ∃ p, Proposed site db a p db' := by
  simp only [Wallet.Nonissuance.propose, bind_eq_ok, fetch_eq_ok] at h
  obtain ⟨t, ht, h⟩ := h
  cases hold : lookup Proposal.id id db.proposals with
  | some old =>
    rw [hold] at h
    simp only [bind_eq_ok, ensure_eq_ok, exists_const, pure_eq_ok] at h
    exact .inl h.2.symm
  | none =>
    rw [hold] at h
    simp only [Wallet.Nonissuance.releasable, bind_eq_ok, fetch_eq_ok, ensure_eq_ok, exists_const,
      pure_eq_ok] at h
    obtain ⟨view, hview, ⟨hblocked, hhash⟩, -, -, o, ho, -, hdb⟩ := h
    exact .inr ⟨_, hold, rfl, ⟨t, view, ht, hview, hblocked, hhash, o, ho, rfl⟩, _, hdb.symm⟩

/-- Everything a new decision checked and wrote; `settled` is the database before the decision was
inserted. -/
structure Decided (site : Site) (db : Db) (a : Wallet.Nonissuance.Actor) (p : Proposal)
    (t : TicketIssue) (d : Decision) (draw : Draw) (settled db' : Db) : Prop where
  proposal : lookup Proposal.id d.proposalId db.proposals = some p
  issue : lookup TicketIssue.id p.issueId db.issues = some t
  independent : p.requestedBy ≠ a.externalUserId
  reviewedBy : d.reviewedBy = a.externalUserId
  approval : d.approved = true → ∃ view o wallet, Wallet.Nonissuance.inspect site db t = .ok view ∧
    view.blocked = none ∧ view.snapshotHash = p.snapshotHash ∧
    Wallet.settle site.pf db.subjects db.wallet p.operationId false a.externalUserId a.role draw =
      .ok (o, wallet) ∧ settled = { db with wallet := wallet }
  rejection : d.approved = false → settled = db
  integrity : Wallet.Nonissuance.integrity site.pf
    { settled with decisions := settled.decisions ++ [d] } d = true
  done : ∃ events, db' = Db.logged { settled with decisions := settled.decisions ++ [d] } events

theorem decide_ok {a : Wallet.Nonissuance.Actor} {proposal : Uuid}
    {decision evidenceSha256 remarks : String} {draw : Draw}
    (h : Wallet.Nonissuance.decide site db a proposal decision evidenceSha256 remarks draw =
      .ok db') :
    db' = db ∨ ∃ p t d settled, d.proposalId = proposal ∧ d.approved = (decision = "approved") ∧
      Decided site db a p t d draw settled db' := by
  simp only [Wallet.Nonissuance.decide, bind_eq_ok, fetch_eq_ok, ensure_eq_ok, exists_const] at h
  obtain ⟨p, hp, t, ht, -, hindependent, h⟩ := h
  cases hold : lookup Decision.proposalId proposal db.decisions with
  | some old =>
    rw [hold] at h
    simp only [bind_eq_ok, ensure_eq_ok, exists_const, pure_eq_ok] at h
    exact .inl h.2.symm
  | none =>
    rw [hold] at h
    dsimp only at h
    split at h
    · rename_i happroved
      simp only [Wallet.Nonissuance.approve, Wallet.Nonissuance.releasable,
        Wallet.Nonissuance.insertDecision, bind_eq_ok, mapError_eq_ok, ensure_eq_ok, exists_const,
        pure_eq_ok] at h
      obtain ⟨settled, ⟨view, hview, ⟨hblocked, hhash⟩, -, -, -, ⟨o, wallet⟩, hsettle, hsettled⟩,
        decided, ⟨-, -, -, rfl⟩, hintegrity, hdb⟩ := h
      exact .inr ⟨p, t, _, settled, rfl, by simp [happroved], hp, ht, hindependent, rfl,
        fun _ => ⟨view, o, wallet, hview, hblocked, hhash, hsettle, hsettled.symm⟩,
        fun hrejected => by simp [happroved] at hrejected, hintegrity, _, hdb.symm⟩
    · rename_i hrejected
      simp only [Wallet.Nonissuance.insertDecision, bind_eq_ok, mapError_eq_ok, ensure_eq_ok,
        exists_const, pure_eq_ok] at h
      obtain ⟨settled, rfl, decided, ⟨-, -, -, rfl⟩, hintegrity, hdb⟩ := h
      exact .inr ⟨p, t, _, _, rfl, by simp [hrejected], hp, ht, hindependent, rfl,
        fun happroved => by simp [hrejected] at happroved, fun _ => rfl, hintegrity, _, hdb.symm⟩

/-! ## The transaction of a step -/

/-- What a step does to the database: one transaction, or nothing. -/
inductive Transaction (site : Site) (db : Db) : Event → Db → Prop
  | nothing (e : Event) : Transaction site db e db
  | book {m : Machine} {header : Option String} {req : BookRequest} {creator : Option Creator}
      {draw : Draws} {attempt : Attempt FlightBooking Job} {db' : Db} :
      bookOwned site db m header req creator draw = .ok (attempt, db') →
      Transaction site db (.book m header req creator draw) db'
  | resolve {administrator booking : Uuid} {input : ResolutionInput} {now : Int} {db' : Db} :
      resolve site db administrator booking input now = .ok db' →
      Transaction site db (.resolve administrator booking input now) db'
  | issue {c : IssueCall} {draw : Draws} {attempt : Attempt TicketIssue Job} {db' : Db} :
      commitIssue site db c draw = .ok (attempt, db') → Transaction site db (.issue c draw) db'
  | cancel {c : CancelCall} {draw : Draws} {attempt : Attempt Cancellation Job} {db' : Db} :
      commitCancel site db c draw = .ok (attempt, db') → Transaction site db (.cancel c draw) db'
  | pnr (c : PnrCall) (body : Value) (now : Int) :
      Transaction site db (.pnr c body now) (savePnr site db c body now)
  | verify (c : VerifyCall) (now : Int) :
      Transaction site db (.verify c now) (saveVerification db c now)
  | reconcile {c : ReconcileCall} {pnr report : SupplierReply} {draw : Draws} {db' : Db} :
      saveReconciliation site db c pnr report draw = .ok db' →
      Transaction site db (.reconcile c pnr report draw) db'
  | answer {j : Job} {reply : SupplierReply} {draw : Draws} {db' : Db} :
      saveAnswer site db j reply draw = .ok db' → Transaction site db (.answer j reply draw) db'
  | finalize {issue : Uuid} {draw : Draw} {db' : Db} :
      Wallet.Ticket.finalize site.pf db issue draw = .ok db' →
      Transaction site db (.finalize issue draw) db'
  | review {a : Wallet.Nonissuance.Actor} {c : Wallet.Nonissuance.Command} {draw : Draw}
      {db' : Db} : Wallet.Nonissuance.handle site db a c draw = .ok db' →
      Transaction site db (.review a c draw) db'
  | outside {o : Outside} {db' : Db} : o.run site db = .ok db' →
      Transaction site db (.outside o) db'

theorem World.take_ok {w w' : World} {c : Call} (h : w.take c = .ok w') :
    c ∈ w.calls ∧ w' = { w with calls := w.calls.erase c } := by
  simp only [World.take, bind_eq_ok, ensure_eq_ok, exists_const, pure_eq_ok] at h
  exact ⟨h.1, h.2.symm⟩

theorem step_transaction {w w' : World} {e : Event} (h : w.step site e = .ok w') :
    Transaction site w.db e w'.db := by
  cases e with
  | book m header req creator draw =>
    simp only [World.step, bind_eq_ok, pure_eq_ok] at h
    obtain ⟨⟨attempt, db⟩, hbook, rfl⟩ := h
    cases attempt <;> exact .book hbook
  | resolve administrator booking input now =>
    simp only [World.step, bind_eq_ok, pure_eq_ok] at h
    obtain ⟨db, hresolve, rfl⟩ := h
    exact .resolve hresolve
  | issue c draw =>
    simp only [World.step, bind_eq_ok, pure_eq_ok] at h
    obtain ⟨w₁, htake, ⟨attempt, db⟩, hcommit, rfl⟩ := h
    obtain ⟨-, rfl⟩ := World.take_ok htake
    cases attempt <;> exact .issue hcommit
  | cancel c draw =>
    simp only [World.step, bind_eq_ok, pure_eq_ok] at h
    obtain ⟨w₁, htake, ⟨attempt, db⟩, hcommit, rfl⟩ := h
    obtain ⟨-, rfl⟩ := World.take_ok htake
    cases attempt <;> exact .cancel hcommit
  | pnr c body now =>
    simp only [World.step, bind_eq_ok, pure_eq_ok] at h
    obtain ⟨w₁, htake, rfl⟩ := h
    obtain ⟨-, rfl⟩ := World.take_ok htake
    exact .pnr c body now
  | verify c now =>
    simp only [World.step, bind_eq_ok, pure_eq_ok] at h
    obtain ⟨w₁, htake, rfl⟩ := h
    obtain ⟨-, rfl⟩ := World.take_ok htake
    exact .verify c now
  | reconcile c pnr report draw =>
    simp only [World.step, bind_eq_ok, pure_eq_ok] at h
    obtain ⟨w₁, htake, db, hsave, rfl⟩ := h
    obtain ⟨-, rfl⟩ := World.take_ok htake
    exact .reconcile hsave
  | answer j reply draw =>
    simp only [World.step, bind_eq_ok, ensure_eq_ok, exists_const, pure_eq_ok] at h
    obtain ⟨-, db, hsave, rfl⟩ := h
    exact .answer hsave
  | finalize issue draw =>
    simp only [World.step, bind_eq_ok, ensure_eq_ok, exists_const, pure_eq_ok] at h
    obtain ⟨-, db, hfinalize, rfl⟩ := h
    exact .finalize hfinalize
  | review a c draw =>
    simp only [World.step, bind_eq_ok, pure_eq_ok] at h
    obtain ⟨db, hhandle, rfl⟩ := h
    exact .review hhandle
  | outside o =>
    simp only [World.step, bind_eq_ok, pure_eq_ok] at h
    obtain ⟨db, hrun, rfl⟩ := h
    exact .outside hrun
  | readIssue m header req portal | readCancel m header req
  | readPnr client booking actorKind actorId now | readVerify m booking
  | readReconcile client booking actorKind actorId now =>
    simp only [World.step, bind_eq_ok, pure_eq_ok] at h
    obtain ⟨read, -, rfl⟩ := h
    first
      | exact .nothing _
      | cases read <;> exact .nothing _
  | dispatch j | loseFinalize issue =>
    simp only [World.step, bind_eq_ok, ensure_eq_ok, exists_const, pure_eq_ok] at h
    obtain ⟨-, rfl⟩ := h
    exact .nothing _
  | answerFails j reply draw served =>
    simp only [World.step, bind_eq_ok, ensure_eq_ok, exists_const, pure_eq_ok] at h
    obtain ⟨-, -, rfl⟩ := h
    exact .nothing _
  | loseJob j | loseCall c =>
    cases h
    exact .nothing _

end ShaponTravels.Booking
