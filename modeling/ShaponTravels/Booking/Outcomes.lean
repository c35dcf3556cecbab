import ShaponTravels.Booking.Settlement

/-!
# Outcomes — what becomes of the row of a booking

After it was inserted a booking is rewritten in three ways only: by its worker, by an administrator
and by PNR lookups.  A booking whose worker has not answered has no response, so the first answer
is never written over another one.
-/

namespace ShaponTravels.Booking

open Library

variable {site : Site} {db db' : Db} {w w' : World} {e : Event} {b b' : FlightBooking} {j : Job}

/-! ## Columns that an update leaves alone -/

section Save

variable (b : FlightBooking) (now : Int)

@[simp] theorem save_id : (b.save now).id = b.id := rfl
@[simp] theorem save_state : (b.save now).state = b.state := rfl
@[simp] theorem save_originalResponse : (b.save now).originalResponse = b.originalResponse := rfl
@[simp] theorem save_publicResponse : (b.save now).publicResponse = b.publicResponse := rfl
@[simp] theorem save_errorCode : (b.save now).errorCode = b.errorCode := rfl
@[simp] theorem save_reconciledAt : (b.save now).reconciledAt = b.reconciledAt := rfl
@[simp] theorem save_ticketingTimeLimit :
    (b.save now).ticketingTimeLimit = b.ticketingTimeLimit := rfl

end Save

@[simp] theorem pnrObserved_id (c : PnrCall) (body : Value) (now : Int) (b : FlightBooking) :
    (pnrObserved site c body now b).id = b.id := by
  unfold pnrObserved
  dsimp only
  split <;> rfl

@[simp] theorem pnrObserved_state (c : PnrCall) (body : Value) (now : Int) (b : FlightBooking) :
    (pnrObserved site c body now b).state = b.state := by
  unfold pnrObserved
  dsimp only
  split <;> rfl

@[simp] theorem pnrObserved_originalResponse (c : PnrCall) (body : Value) (now : Int)
    (b : FlightBooking) :
    (pnrObserved site c body now b).originalResponse = b.originalResponse := by
  unfold pnrObserved
  dsimp only
  split <;> rfl

/-! ## The changes of a booking -/

/-- A job that books. -/
def Job.books (j : Job) : Bool := j.task = .book || j.task = .bookDirect

/-- What the worker of a booking makes of its row. -/
def answered (site : Site) (j : Job) (reply : SupplierReply) (draw : Draws) (b : FlightBooking) :
    FlightBooking :=
  match j.task with
  | .bookDirect =>
    if b.state = .pending then
      (directOutcome reply.body? (directIssue site j reply.body? draw).publicResponse b).save draw.now
    else b.reopen.save draw.now
  | .book | .newTicket | .cancel =>
    if b.state = .pending then (holdOutcome site j reply b).save draw.now
    else (holdLate reply b).reopen.save draw.now

@[simp] theorem answered_id (reply : SupplierReply) (draw : Draws) :
    (answered site j reply draw b).id = b.id := by
  unfold answered
  cases j.task <;> dsimp only <;> split <;> rfl

/-- What a manual resolution makes of a booking. -/
def manuallyResolved (response : Option Value) (now : Int) (b : FlightBooking) : FlightBooking :=
  ({ b with state := .manuallyResolved, publicResponse := response, errorCode := none } :
    FlightBooking).save now

/-- What an event makes of the row of a booking. -/
inductive BookingChange (site : Site) (e : Event) (b b' : FlightBooking) : Prop
  | kept : b' = b → BookingChange site e b b'
  | resolved (administrator : Uuid) (input : ResolutionInput) (response : Option Value) (now : Int) :
      e = .resolve administrator b.id input now → b.state = .outcomeUnknown ∨ b.state = .pending →
      b' = manuallyResolved response now b → BookingChange site e b b'
  | observed (c : PnrCall) (body : Value) (now : Int) : e = .pnr c body now → c.booking = b.id →
      b' = pnrObserved site c body now b → BookingChange site e b b'
  | answered (j : Job) (reply : SupplierReply) (draw : Draws) : e = .answer j reply draw →
      j.books = true → j.booking = b.id → b' = answered site j reply draw b →
      BookingChange site e b b'

theorem BookingChange.id (h : BookingChange site e b b') : b'.id = b.id := by
  cases h with
  | kept hrow => rw [hrow]
  | resolved administrator input response now he hstate hrow => rw [hrow]; rfl
  | observed c body now he hbooking hrow => rw [hrow, pnrObserved_id]
  | answered j reply draw he hbooks hbooking hrow => rw [hrow, answered_id]

/-- A booking as it is inserted. -/
structure Blank (b : FlightBooking) : Prop where
  state : b.state = .pending
  originalResponse : b.originalResponse = none
  reconciledAt : b.reconciledAt = none

/-- Where every booking of a database comes from. -/
structure BookingsChange (site : Site) (db db' : Db) (e : Event) : Prop where
  back : ∀ b' ∈ db'.bookings, (∃ b ∈ db.bookings, BookingChange site e b b') ∨
    (Blank b' ∧ ∀ b ∈ db.bookings, b.id ≠ b'.id)
  forth : ∀ b ∈ db.bookings, ∃ b' ∈ db'.bookings, b'.id = b.id

theorem BookingsChange.of_bookings (h : db'.bookings = db.bookings) :
    BookingsChange site db db' e where
  back b' hb' := by
    rw [h] at hb'
    exact .inl ⟨b', hb', .kept rfl⟩
  forth b hb := ⟨b, by rw [h]; exact hb, rfl⟩

/-- One booking is rewritten. -/
theorem BookingsChange.of_modify {booking : Uuid} {f : FlightBooking → FlightBooking}
    (h : db'.bookings = modify FlightBooking.id booking f db.bookings)
    (hf : ∀ b ∈ db.bookings, b.id = booking → BookingChange site e b (f b)) :
    BookingsChange site db db' e where
  back b' hb' := by
    rw [h] at hb'
    rcases modify_cases hb' with ⟨hmem, -⟩ | ⟨b, hb, hid, rfl⟩
    · exact .inl ⟨b', hmem, .kept rfl⟩
    · exact .inl ⟨b, hb, hf b hb hid⟩
  forth b hb := by
    rw [h]
    by_cases hid : b.id = booking
    · exact ⟨f b, mem_modify_of_mem hb hid, (hf b hb hid).id⟩
    · exact ⟨b, mem_modify_of_ne hb hid, rfl⟩

/-- A recorded outcome rewrites its booking by the state it finds it in. -/
theorem recordOutcome_bookings (hu : KeyUnique FlightBooking.id db.bookings) {booking : Uuid}
    {response : Option Value} {now : Int} {outcome late : FlightBooking → FlightBooking} :
    (recordOutcome db booking response now outcome late).bookings =
      modify FlightBooking.id booking (fun b =>
        if b.state = .pending then (outcome b).save now else (late b).reopen.save now)
        db.bookings := by
  unfold recordOutcome
  have hone : ∀ b ∈ db.bookings, b.id = booking →
      (db.hasPending booking = true ↔ b.state = .pending) := by
    intro b hb hid
    simp only [Db.hasPending, List.any_eq_true, decide_eq_true_eq]
    constructor
    · rintro ⟨b₁, hb₁, hid₁, hpending⟩
      rw [hu.eq_of_key hb hb₁ (hid.trans hid₁.symm)]
      exact hpending
    · exact fun hpending => ⟨b, hb, hid, hpending⟩
  split
  · rename_i hpending
    refine modify_congr (fun b hb hid => ?_)
    rw [if_pos ((hone b hb hid).mp hpending)]
    rw [if_pos ((hone b hb hid).mp hpending)]
  · rename_i hpending
    refine modify_congr (fun b hb hid => ?_)
    rw [if_neg (fun hstate => hpending ((hone b hb hid).mpr hstate))]

theorem saveAnswer_bookings (hu : KeyUnique FlightBooking.id db.bookings) {reply : SupplierReply}
    {draw : Draws} (h : saveAnswer site db j reply draw = .ok db') :
    BookingsChange site db db' (.answer j reply draw) := by
  unfold saveAnswer at h
  cases htask : j.task with
  | book =>
    rw [htask] at h
    obtain ⟨-, events, rfl⟩ := saveHold_ok h
    refine .of_modify (recordOutcome_bookings hu) (fun b hb hid => ?_)
    refine .answered j reply draw rfl (by simp [Job.books, htask]) hid.symm ?_
    simp only [answered, htask]
  | bookDirect =>
    rw [htask] at h
    obtain ⟨saved, events, hsaved, hdone⟩ := saveDirect_ok h
    have hrows : db'.bookings = saved.bookings := by
      rcases hdone with ⟨-, db₁, hinserted, rfl⟩ | ⟨-, rfl⟩
      · show db₁.bookings = saved.bookings
        rw [hinserted.rows]
      · rfl
    rw [hsaved] at hrows
    refine .of_modify (hrows.trans (recordOutcome_bookings hu)) (fun b hb hid => ?_)
    refine .answered j reply draw rfl (by simp [Job.books, htask]) hid.symm ?_
    simp only [answered, htask, id]
  | newTicket =>
    rw [htask] at h
    obtain ⟨events, rfl⟩ := saveIssue_ok h
    exact .of_bookings rfl
  | cancel =>
    rw [htask] at h
    cases h
    exact .of_bookings rfl

/-- Neither bookings nor observations are written. -/
def SameBookings (db db' : Db) : Prop :=
  db'.bookings = db.bookings ∧ db'.observations = db.observations

theorem issue_bookings {c : IssueCall} {draw : Draws} {attempt : Attempt TicketIssue Job}
    (h : commitIssue site db c draw = .ok (attempt, db')) : SameBookings db db' := by
  rcases commitIssue_ok h with ⟨old, -, rfl⟩ | ⟨-, t, hissued⟩
  · exact ⟨rfl, rfl⟩
  · obtain ⟨db₁, db₂, events, hinserted, hreserved, -, rfl⟩ := hissued.done
    obtain ⟨-, -, -, -, r, -, -, a, wallet, o, payable, -, -, rfl⟩ := hreserved.payable
    have hrows := hinserted.rows
    subst hrows
    exact ⟨rfl, rfl⟩

theorem finalize_bookings {issue : Uuid} {draw : Wallet.Draw}
    (h : Wallet.Ticket.finalize site.pf db issue draw = .ok db') : SameBookings db db' := by
  obtain ⟨t, -, ⟨-, rfl⟩ | ⟨-, o, -, ⟨-, hdb⟩ | ⟨-, -, o', wallet, -, hdb⟩ | ⟨-, -, hdb⟩⟩⟩ :=
    finalize_ok h
  · exact ⟨rfl, rfl⟩
  · rw [hdb]
    split
    · exact ⟨rfl, rfl⟩
    · exact ⟨rfl, rfl⟩
  · rw [hdb]
    exact ⟨rfl, rfl⟩
  · rw [hdb]
    exact ⟨rfl, rfl⟩

theorem review_bookings {a : Wallet.Nonissuance.Actor} {c : Wallet.Nonissuance.Command}
    {draw : Wallet.Draw} (h : Wallet.Nonissuance.handle site db a c draw = .ok db') :
    SameBookings db db' := by
  simp only [Wallet.Nonissuance.handle, bind_eq_ok] at h
  obtain ⟨-, -, -, -, h⟩ := h
  cases c with
  | propose id issue snapshotHash evidence =>
    rcases propose_ok h with rfl | ⟨p, hp⟩
    · exact ⟨rfl, rfl⟩
    · obtain ⟨events, rfl⟩ := hp.done
      exact ⟨rfl, rfl⟩
  | decide proposal decision evidenceSha256 remarks =>
    rcases decide_ok h with rfl | ⟨p, t, d, settled, -, -, hd⟩
    · exact ⟨rfl, rfl⟩
    · obtain ⟨events, rfl⟩ := hd.done
      cases happroved : d.approved with
      | false =>
        rw [hd.rejection happroved]
        exact ⟨rfl, rfl⟩
      | true =>
        obtain ⟨view, o, wallet, -, -, -, -, rfl⟩ := hd.approval happroved
        exact ⟨rfl, rfl⟩

theorem outside_bookings {o : Outside} (h : o.run site db = .ok db') :
    SameBookings db db' := by
  cases o with
  | clients | identities | drafts | tierPolicy | connections | searches | offers | accept =>
    cases h
    exact ⟨rfl, rfl⟩
  | reprice | importBooking =>
    simp only [Outside.run, bind_eq_ok, ensure_eq_ok, exists_const, pure_eq_ok] at h
    obtain ⟨-, rfl⟩ := h
    exact ⟨rfl, rfl⟩
  | report client booking body response requested draw =>
    obtain ⟨reports, events, rfl⟩ := saveReport_ok h
    exact ⟨rfl, rfl⟩
  | linkClient client account =>
    simp only [Outside.run, bind_eq_ok, pure_eq_ok] at h
    obtain ⟨wallet, -, rfl⟩ := h
    exact ⟨rfl, rfl⟩
  | wallet call =>
    simp only [Outside.run, bind_eq_ok, pure_eq_ok] at h
    obtain ⟨-, -, wallet, -, rfl⟩ := h
    exact ⟨rfl, rfl⟩

theorem insertVerification_bookings (v : TicketVerification) :
    SameBookings db (insertVerification db v) := by
  unfold insertVerification
  split
  · exact ⟨rfl, rfl⟩
  · exact ⟨rfl, rfl⟩

theorem Transaction.bookings (hu : KeyUnique FlightBooking.id db.bookings)
    (h : Transaction site db e db') : BookingsChange site db db' e := by
  cases h with
  | nothing => exact .of_bookings rfl
  | @book m header req creator draw attempt db' h =>
    obtain ⟨key, -, ⟨previous, -, -, -, rfl⟩ | ⟨-, q, b, db₁, events, hrow, hinserted, -, rfl⟩⟩ :=
      bookOwned_ok h
    · exact .of_bookings rfl
    · constructor
      · intro b' hb'
        replace hb' : b' ∈ db₁.bookings := hb'
        rw [hinserted.rows] at hb'
        rcases List.mem_append.mp hb' with hb' | hb'
        · exact .inl ⟨b', hb', .kept rfl⟩
        · rw [List.mem_singleton.mp hb', hrow]
          exact .inr ⟨⟨rfl, rfl, rfl⟩, hrow ▸ hinserted.id⟩
      · intro b₀ hb₀
        refine ⟨b₀, ?_, rfl⟩
        show b₀ ∈ db₁.bookings
        rw [hinserted.rows]
        exact List.mem_append_left _ hb₀
  | @resolve administrator booking input now db' h =>
    obtain ⟨b, response, resolutions, events, hb, hstate, rfl⟩ := resolve_ok h
    refine .of_modify rfl (fun b' hb' hid => ?_)
    have hsame : b' = b := hu.eq_of_key hb' (lookup_mem hb) (hid.trans (lookup_key hb).symm)
    subst hsame
    exact .resolved administrator input response now (by rw [hid]) hstate rfl
  | issue h => exact .of_bookings (issue_bookings h).1
  | cancel h =>
    rcases commitCancel_ok h with ⟨old, -, rfl⟩ | ⟨-, x, hreserved⟩
    · exact .of_bookings rfl
    · obtain ⟨events, rfl⟩ := hreserved.done
      exact .of_bookings rfl
  | pnr c body now =>
    obtain ⟨observations, events, hsaved⟩ := savePnr_logged site db c body now
    rw [hsaved]
    exact .of_modify rfl (fun b' hb' hid => .observed c body now rfl hid.symm rfl)
  | verify c now =>
    obtain ⟨events, hsaved⟩ := saveVerification_logged db c now
    rw [hsaved]
    exact .of_bookings (insertVerification_bookings _).1
  | reconcile h =>
    obtain ⟨rows, verification, events, rfl⟩ := saveReconciliation_ok h
    cases verification with
    | none => exact .of_bookings rfl
    | some response => exact .of_bookings (insertVerification_bookings _).1
  | answer h => exact saveAnswer_bookings hu h
  | finalize h => exact .of_bookings (finalize_bookings h).1
  | review h => exact .of_bookings (review_bookings h).1
  | outside h => exact .of_bookings (outside_bookings h).1

/-! ## Observations -/

/-- The observation an event adds. -/
def Event.observation (db : Db) : Event → List PnrObservation
  | .pnr c body now =>
    [⟨db.observations.length + 1, c.booking, body, pnrReadable body c.payload, c.started, now⟩]
  | _ => []

theorem answer_observations {reply : SupplierReply} {draw : Draws}
    (h : saveAnswer site db j reply draw = .ok db') : db'.observations = db.observations := by
  have hrecorded : ∀ (now : Int) (outcome late : FlightBooking → FlightBooking),
      (recordOutcome db j.booking reply.body? now outcome late).observations = db.observations := by
    intro now outcome late
    unfold recordOutcome
    split <;> rfl
  unfold saveAnswer at h
  cases htask : j.task with
  | book =>
    rw [htask] at h
    obtain ⟨-, events, rfl⟩ := saveHold_ok h
    exact hrecorded _ _ _
  | bookDirect =>
    rw [htask] at h
    obtain ⟨saved, events, hsaved, ⟨-, db₁, hinserted, rfl⟩ | ⟨-, rfl⟩⟩ := saveDirect_ok h
    · show db₁.observations = db.observations
      rw [hinserted.rows, hsaved]
      exact hrecorded _ _ _
    · rw [hsaved]
      exact hrecorded _ _ _
  | newTicket =>
    rw [htask] at h
    obtain ⟨events, rfl⟩ := saveIssue_ok h
    rfl
  | cancel =>
    rw [htask] at h
    cases h
    rfl

theorem Transaction.observations (h : Transaction site db e db') (hpnr : e.observation db = []) :
    db'.observations = db.observations := by
  cases h with
  | nothing => rfl
  | book h =>
    obtain ⟨key, -, ⟨previous, -, -, -, rfl⟩ | ⟨-, q, b, db₁, events, -, hinserted, -, rfl⟩⟩ :=
      bookOwned_ok h
    · rfl
    · show db₁.observations = db.observations
      rw [hinserted.rows]
  | resolve h =>
    obtain ⟨b, response, resolutions, events, -, -, rfl⟩ := resolve_ok h
    rfl
  | issue h => exact (issue_bookings h).2
  | cancel h =>
    rcases commitCancel_ok h with ⟨old, -, rfl⟩ | ⟨-, x, hreserved⟩
    · rfl
    · obtain ⟨events, rfl⟩ := hreserved.done
      rfl
  | pnr c body now => cases hpnr
  | verify c now =>
    obtain ⟨events, hsaved⟩ := saveVerification_logged db c now
    rw [hsaved]
    exact (insertVerification_bookings _).2
  | reconcile h =>
    obtain ⟨rows, verification, events, rfl⟩ := saveReconciliation_ok h
    cases verification with
    | none => rfl
    | some response => exact (insertVerification_bookings _).2
  | answer h => exact answer_observations h
  | finalize h => exact (finalize_bookings h).2
  | review h => exact (review_bookings h).2
  | outside h => exact (outside_bookings h).2

theorem step_observations (h : w.step site e = .ok w') :
    w'.db.observations = w.db.observations ++ e.observation w.db := by
  cases hpnr : e.observation w.db with
  | nil => rw [(step_transaction h).observations hpnr, List.append_nil]
  | cons o rest =>
    cases e with
    | pnr c body now =>
      simp only [World.step, bind_eq_ok, pure_eq_ok] at h
      obtain ⟨w₁, htake, rfl⟩ := h
      obtain ⟨-, rfl⟩ := World.take_ok htake
      rw [← hpnr]
      show (savePnr site w.db c body now).observations = _
      unfold savePnr
      dsimp only
      split <;> rfl
    | _ => cases hpnr

/-! ## Jobs that book -/

/-- A job that books and is outstanding was outstanding, or is the one of a new booking. -/
theorem Plan.Step.outstanding {p p' : Plan} (h : p.Step p') (hj : j ∈ p'.outbox.outstanding)
    (hbooks : j.books = true) : j ∈ p.outbox.outstanding ∨ ∀ b ∈ p.bookings, b.id ≠ j.booking := by
  cases h with
  | same | price | operation => exact .inl hj
  | book b j' hid hkey hoffer htask hrow hbooking hclient =>
    rcases Outbox.mem_outstanding_post.mp hj with hj | rfl
    · exact .inl hj
    · rw [hbooking]
      exact .inr hid
  | issue t o j' hid hbooking hcancel hheld hrequired hkey hreserves hsubject htask =>
    rcases Outbox.mem_outstanding_post.mp hj with hj | rfl
    · exact .inl hj
    · simp [Job.books, htask] at hbooks
  | cancel c j' hid hbooking hissue hheld htask =>
    rcases Outbox.mem_outstanding_post.mp hj with hj | rfl
    · exact .inl hj
    · simp [Job.books, htask] at hbooks
  | send j' hwaiting => exact .inl ((Outbox.outstanding_send_perm hwaiting).subset hj)
  | answer j' hflight => exact .inl (Outbox.outstanding_answer_sublist.subset hj)
  | receipt j' t hflight => exact .inl (Outbox.outstanding_answer_sublist.subset hj)
  | lose j' => exact .inl (Outbox.outstanding_lose_sublist.subset hj)

theorem World.Sound.booking_unique (hs : w.Sound) :
    KeyUnique FlightBooking.id w.db.bookings := by
  have hplan := hs.plan.bookings
  simp only [KeyUnique, World.plan, Db.plan, List.map_map] at hplan
  exact hplan

theorem step_books (hs : w.Sound) (h : w.step site e = .ok w')
    (hj : j ∈ w'.outbox.outstanding) (hbooks : j.books = true) :
    j ∈ w.outbox.outstanding ∨ ∀ b ∈ w.db.bookings, b.id ≠ j.booking := by
  rcases (hs.refines h).outstanding hj hbooks with hj | hnew
  · exact .inl hj
  · exact .inr fun b hb => hnew b.identity (List.mem_map_of_mem hb)

/-- The job of a booking, and how the booking is executed. -/
theorem World.Sound.books_backed (hs : w.Sound) (hj : j ∈ w.outbox.jobs)
    (hbooks : j.books = true) : j.row = j.booking ∧ ∃ b ∈ w.db.bookings, b.id = j.booking ∧
      j.task = if b.executionMode = .direct then .bookDirect else .book := by
  have hback := hs.plan.backed j hj
  unfold Plan.Backs at hback
  cases htask : j.task with
  | book =>
    rw [htask] at hback
    obtain ⟨b', hb', hrow, hbooking, hmode⟩ := hback
    obtain ⟨b, hb, rfl⟩ := List.mem_map.mp hb'
    replace hmode : b.executionMode = .hold := hmode
    exact ⟨hrow.symm.trans hbooking, b, hb, hbooking, by simp [hmode]⟩
  | bookDirect =>
    rw [htask] at hback
    obtain ⟨b', hb', hrow, hbooking, hmode, -⟩ := hback
    obtain ⟨b, hb, rfl⟩ := List.mem_map.mp hb'
    replace hmode : b.executionMode = .direct := hmode
    exact ⟨hrow.symm.trans hbooking, b, hb, hbooking, by simp [hmode]⟩
  | newTicket | cancel => simp [Job.books, htask] at hbooks

/-- A booking has one job. -/
theorem World.Sound.books_key (hs : w.Sound) {j' : Job} (hj : j ∈ w.outbox.jobs)
    (hj' : j' ∈ w.outbox.jobs) (hbooks : j.books = true) (hbooks' : j'.books = true)
    (h : j'.booking = j.booking) : j'.key = j.key := by
  obtain ⟨hrow, b, hb, hid, htask⟩ := hs.books_backed hj hbooks
  obtain ⟨hrow', b', hb', hid', htask'⟩ := hs.books_backed hj' hbooks'
  have hsame : b' = b := hs.booking_unique.eq_of_key hb' hb (hid'.trans (h.trans hid.symm))
  subst hsame
  simp only [Job.key, Prod.mk.injEq]
  exact ⟨htask'.trans htask.symm, hrow'.trans (h.trans hrow.symm)⟩

/-- After an answer the booking has no outstanding job. -/
theorem answered_last (hs : w.Sound) {reply : SupplierReply} {draw : Draws}
    (h : w.step site (.answer j reply draw) = .ok w') (hbooks : j.books = true) :
    j ∈ w.outbox.outstanding ∧
      ∀ j' ∈ w'.outbox.outstanding, j'.books = true → j'.booking ≠ j.booking := by
  simp only [World.step, bind_eq_ok, ensure_eq_ok, exists_const, pure_eq_ok] at h
  obtain ⟨hflight, db, -, rfl⟩ := h
  have hout : j ∈ w.outbox.outstanding := List.mem_append_right _ hflight
  refine ⟨hout, fun j' hj' hbooks' hbooking => ?_⟩
  have hjobs := hs.plan.once.mem_jobs_of_outstanding hout
  have hjobs' := hs.plan.once.mem_jobs_of_outstanding
    (Outbox.outstanding_answer_sublist.subset hj' : j' ∈ w.outbox.outstanding)
  exact hs.plan.once.answered hflight hj' (hs.books_key hjobs hjobs' hbooks hbooks' hbooking)

/-! ## The invariant -/

/-- A booking without an answer has no response, only bookings with a response are looked up, and
the last lookup of a booking is an observation. -/
structure Unanswered (w : World) : Prop where
  jobs : ∀ j ∈ w.outbox.outstanding, j.books = true →
    ∀ b ∈ w.db.bookings, b.id = j.booking → b.originalResponse = none
  calls : ∀ c, .pnr c ∈ w.calls →
    ∃ b ∈ w.db.bookings, b.id = c.booking ∧ b.originalResponse ≠ none
  reconciled : ∀ b ∈ w.db.bookings, ∀ instant ∈ b.reconciledAt,
    ∃ o ∈ w.db.observations, o.bookingId = b.id ∧ o.requestedAt = instant

theorem unanswered_empty (policy : TierPolicy) : Unanswered (World.empty policy) where
  jobs _ hj := absurd hj List.not_mem_nil
  calls _ hc := absurd hc List.not_mem_nil
  reconciled _ hb := absurd hb List.not_mem_nil

/-- Every booking has a row after the step. -/
theorem step_booking (hs : w.Sound) (h : w.step site e = .ok w') (hb : b ∈ w.db.bookings) :
    ∃ b' ∈ w'.db.bookings, BookingChange site e b b' := by
  have hchange := (step_transaction h).bookings hs.booking_unique
  obtain ⟨b', hb', hid⟩ := hchange.forth b hb
  rcases hchange.back b' hb' with ⟨b₀, hb₀, hrow⟩ | ⟨-, hnew⟩
  · have hsame : b₀ = b := hs.booking_unique.eq_of_key hb₀ hb (hrow.id.symm.trans hid)
    subst hsame
    exact ⟨b', hb', hrow⟩
  · exact absurd hid.symm (hnew b hb)

/-- An answer finds the booking without a response. -/
theorem Unanswered.answer (hs : w.Sound) (hu : Unanswered w) {reply : SupplierReply} {draw : Draws}
    (h : w.step site (.answer j reply draw) = .ok w') (hbooks : j.books = true)
    (hb : b ∈ w.db.bookings) (hid : j.booking = b.id) : b.originalResponse = none :=
  hu.jobs j (answered_last hs h hbooks).1 hbooks b hb hid.symm

/-- A response is never written over. -/
theorem Unanswered.response_kept (hs : w.Sound) (hu : Unanswered w)
    (h : w.step site e = .ok w') (hb : b ∈ w.db.bookings) (hrow : BookingChange site e b b')
    (hresponse : b.originalResponse ≠ none) : b'.originalResponse = b.originalResponse := by
  cases hrow with
  | kept hrow => rw [hrow]
  | resolved administrator input response now he hstate hrow => rw [hrow]; rfl
  | observed c body now he hbooking hrow => rw [hrow, pnrObserved_originalResponse]
  | answered j reply draw he hbooks hbooking hrow =>
    subst he
    exact absurd (hu.answer hs h hbooks hb hbooking) hresponse

@[simp] theorem answered_reconciledAt (reply : SupplierReply) (draw : Draws) :
    (answered site j reply draw b).reconciledAt = b.reconciledAt := by
  unfold answered
  cases j.task <;> dsimp only <;> split <;> rfl

theorem pnrObserved_reconciledAt (c : PnrCall) (body : Value) (now : Int) {instant : Int}
    (h : instant ∈ (pnrObserved site c body now b).reconciledAt) :
    instant = c.started ∨ instant ∈ b.reconciledAt := by
  unfold pnrObserved at h
  dsimp only at h
  split at h
  · simp only [save_reconciledAt, Option.mem_def, Option.some.injEq] at h
    exact .inl h.symm
  · exact .inr h

theorem Unanswered.step (hs : w.Sound) (hu : Unanswered w) (h : w.step site e = .ok w') :
    Unanswered w' := by
  have hchange := (step_transaction h).bookings hs.booking_unique
  constructor
  case jobs =>
    intro j hj hbooks b' hb' hid'
    rcases hchange.back b' hb' with ⟨b, hb, hrow⟩ | ⟨hblank, -⟩
    · have hid : b.id = j.booking := hrow.id.symm.trans hid'
      rcases step_books hs h hj hbooks with hold | hnew
      · have hnone := hu.jobs j hold hbooks b hb hid
        cases hrow with
        | kept hrow => rw [hrow, hnone]
        | resolved administrator input response now he hstate hrow => rw [hrow]; exact hnone
        | observed c body now he hbooking hrow => rw [hrow, pnrObserved_originalResponse, hnone]
        | answered j₀ reply draw he hbooks₀ hbooking hrow =>
          subst he
          exact absurd (hid.symm.trans hbooking.symm) ((answered_last hs h hbooks₀).2 j hj hbooks)
      · exact absurd hid (hnew b hb)
    · exact hblank.originalResponse
  case calls =>
    intro c hc
    have hread : ∃ b ∈ w.db.bookings, b.id = c.booking ∧ b.originalResponse ≠ none := by
      rcases step_read h _ hc with hc | hread
      · exact hu.calls c hc
      · cases hread with
        | pnr hprepare =>
          simp only [preparePnr, bind_eq_ok, fetch_eq_ok, ensure_eq_ok, exists_const,
            pure_eq_ok] at hprepare
          obtain ⟨b, hb, price, -, original, horiginal, payload, -, s, -, -, supplier, -, rfl⟩ :=
            hprepare
          have hid := List.find?_some hb
          simp only [decide_eq_true_eq] at hid
          exact ⟨b, List.mem_of_find?_eq_some hb, hid.1, by simp [horiginal]⟩
    obtain ⟨b, hb, hid, hresponse⟩ := hread
    obtain ⟨b', hb', hrow⟩ := step_booking hs h hb
    refine ⟨b', hb', hrow.id.trans hid, ?_⟩
    rw [hu.response_kept hs h hb hrow hresponse]
    exact hresponse
  case reconciled =>
    intro b' hb' instant hinstant
    rw [step_observations h]
    rcases hchange.back b' hb' with ⟨b, hb, hrow⟩ | ⟨hblank, -⟩
    · rw [hrow.id]
      have hold : instant ∈ b.reconciledAt →
          ∃ o ∈ w.db.observations ++ e.observation w.db, o.bookingId = b.id ∧
            o.requestedAt = instant := by
        intro hinstant
        obtain ⟨o, ho, hrest⟩ := hu.reconciled b hb instant hinstant
        exact ⟨o, List.mem_append_left _ ho, hrest⟩
      cases hrow with
      | kept hrow => exact hold (by rw [← hrow]; exact hinstant)
      | resolved administrator input response now he hstate hrow =>
        exact hold (by rw [hrow] at hinstant; exact hinstant)
      | answered j reply draw he hbooks hbooking hrow =>
        exact hold (by rw [hrow, answered_reconciledAt] at hinstant; exact hinstant)
      | observed c body now he hbooking hrow =>
        rw [hrow] at hinstant
        rcases pnrObserved_reconciledAt c body now hinstant with rfl | hinstant
        · subst he
          exact ⟨_, List.mem_append_right _ List.mem_cons_self, hbooking, rfl⟩
        · exact hold hinstant
    · rw [hblank.reconciledAt] at hinstant
      cases hinstant

theorem reachable_unanswered (h : (machine site).Reachable w) : w.Sound ∧ Unanswered w := by
  refine h.invariant (I := fun w => w.Sound ∧ Unanswered w) ?_ ?_
  · rintro _ ⟨policy, rfl⟩
    exact ⟨World.sound_empty policy, unanswered_empty policy⟩
  · intro w e w' hs hstep
    exact ⟨hs.1.step hstep, hs.2.step hs.1 hstep⟩

end ShaponTravels.Booking
