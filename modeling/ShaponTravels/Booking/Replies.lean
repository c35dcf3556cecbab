import ShaponTravels.Booking.Outcomes
import ShaponTravels.TextLengths

/-!
# Replies — what becomes of a reply of the supplier

A booking is sent once, whatever requests repeat its key.  The reply is stored by the worker and stays stored, and a
manual resolution that was there before the reply gives way to it.
-/

namespace ShaponTravels.Booking

open Library

variable {site : Site} {db db' : Db} {w w' : World} {e : Event} {j : Job} {b b' : FlightBooking}
  {reply : SupplierReply} {draw : Draws}

/-! ## Bookings sent to their supplier -/

/-- The job books for a client under a key. -/
def BooksFor (db : Db) (client : Uuid) (key : String) (j : Job) : Prop :=
  j.books = true ∧ ∃ b ∈ db.bookings, b.id = j.booking ∧ b.clientId = client ∧ b.idempotencyKey = key

instance (db : Db) (client : Uuid) (key : String) : DecidablePred (BooksFor db client key) := fun j =>
  inferInstanceAs (Decidable (j.books = true ∧
    ∃ b ∈ db.bookings, b.id = j.booking ∧ b.clientId = client ∧ b.idempotencyKey = key))

/-- The job books an offer and issues it at once. -/
def IssuesOffer (db : Db) (offer : Uuid) (j : Job) : Prop :=
  j.task = .bookDirect ∧ ∃ b ∈ db.bookings, b.id = j.booking ∧ b.offerId = offer

instance (db : Db) (offer : Uuid) : DecidablePred (IssuesOffer db offer) := fun j =>
  inferInstanceAs (Decidable (j.task = .bookDirect ∧ ∃ b ∈ db.bookings, b.id = j.booking ∧ b.offerId = offer))

theorem World.Sound.booking_key_unique (hs : w.Sound) :
    KeyUnique (fun b : FlightBooking => (b.clientId, b.idempotencyKey)) w.db.bookings := by
  have hplan := hs.plan.bookingKeys
  simp only [KeyUnique, World.plan, Db.plan, List.map_map] at hplan
  exact hplan

theorem World.Sound.booked_once (hs : w.Sound) (client : Uuid) (key : String) :
    (w.outbox.sent.filter fun j => BooksFor w.db client key j).length ≤ 1 := by
  refine hs.plan.once.sent_le_one ?_
  rintro j hj j' hj' ⟨hbooks, b, hb, hid, hclient, hkey⟩ ⟨hbooks', b', hb', hid', hclient', hkey'⟩
  have hsame : b = b' := by
    refine hs.booking_key_unique.eq_of_key hb hb' (Prod.ext ?_ ?_)
    · exact hclient.trans hclient'.symm
    · exact hkey.trans hkey'.symm
  refine hs.books_key (List.mem_append_right _ hj') (List.mem_append_right _ hj) hbooks' hbooks ?_
  rw [← hid, ← hid', hsame]

theorem World.Sound.issued_offer_once (hs : w.Sound) (offer : Uuid) :
    (w.outbox.sent.filter fun j => IssuesOffer w.db offer j).length ≤ 1 := by
  refine hs.plan.once.sent_le_one ?_
  rintro j hj j' hj' ⟨htask, b, hb, hid, hoffer⟩ ⟨htask', b', hb', hid', hoffer'⟩
  have hbooks : j.books = true := by simp [Job.books, htask]
  have hbooks' : j'.books = true := by simp [Job.books, htask']
  have hdirect : ∀ j₁ ∈ w.outbox.sent, j₁.task = .bookDirect → ∀ b₁ ∈ w.db.bookings, b₁.id = j₁.booking →
      b₁.executionMode = .direct := by
    intro j₁ hj₁ htask₁ b₁ hb₁ hid₁
    -- the task of the job says how its booking is executed
    obtain ⟨-, b₂, hb₂, hid₂, hmode⟩ :=
      hs.books_backed (List.mem_append_right _ hj₁) (show j₁.books = true by simp [Job.books, htask₁])
    obtain rfl := hs.booking_unique.eq_of_key hb₁ hb₂ (hid₁.trans hid₂.symm)
    rw [htask₁] at hmode
    split at hmode
    · assumption
    · cases hmode
  have hsame : b.identity = b'.identity :=
    hs.plan.directOffers _ (List.mem_map_of_mem hb) _ (List.mem_map_of_mem hb')
      (hdirect j hj htask b hb hid) (hdirect j' hj' htask' b' hb' hid') (hoffer.trans hoffer'.symm)
  refine hs.books_key (List.mem_append_right _ hj') (List.mem_append_right _ hj) hbooks' hbooks ?_
  rw [← hid, ← hid']
  show b.identity.id = b'.identity.id
  rw [hsame]

/-! ## Bookings stay -/

theorem BookingChange.identity (h : BookingChange site e b b') : b'.identity = b.identity := by
  cases h with
  | kept hrow => rw [hrow]
  | resolved administrator input response now he hstate hrow => rw [hrow]; rfl
  | observed c body now he hbooking hrow =>
    rw [hrow]
    unfold pnrObserved
    dsimp only
    split <;> rfl
  | answered j reply draw he hbooks hbooking hrow =>
    rw [hrow]
    unfold Booking.answered
    cases j.task <;> dsimp only <;> split <;> rfl

/-- A booking stays, and so does a response that it has. -/
theorem run_booking {t : List (Transition World Event)} (hr : (machine site).Run w t w') (hs : w.Sound)
    (hu : Unanswered w) (hb : b ∈ w.db.bookings) : (w'.Sound ∧ Unanswered w') ∧ ∃ b' ∈ w'.db.bookings,
      b'.identity = b.identity ∧ (b.originalResponse ≠ none → b'.originalResponse = b.originalResponse) := by
  induction hr with
  | nil => exact ⟨⟨hs, hu⟩, b, hb, rfl, fun _ => rfl⟩
  | snoc _ hstep ih =>
    obtain ⟨⟨hs₁, hu₁⟩, b₁, hb₁, hidentity, hresponse⟩ := ih
    obtain ⟨b₂, hb₂, hchange⟩ := step_booking hs₁ hstep hb₁
    refine ⟨⟨hs₁.step hstep, hu₁.step hs₁ hstep⟩, b₂, hb₂, hchange.identity.trans hidentity, fun hsome => ?_⟩
    have hsame := hresponse hsome
    rw [← hsame]
    exact hu₁.response_kept hs₁ hstep hb₁ hchange (hsame ▸ hsome)

/-- A late outcome stays. -/
theorem run_late {t : List (Transition World Event)} (hr : (machine site).Run w t w') (hs : w.Sound) :
    w.db.lateOutcomes ⊆ w'.db.lateOutcomes ∧ w'.Sound := by
  induction hr with
  | nil => exact ⟨List.Subset.refl _, hs⟩
  | snoc _ hstep ih =>
    obtain ⟨hsub, hs₁⟩ := ih
    exact ⟨List.Subset.trans hsub ((step_transaction hstep).later hs₁.wallet).lateOutcomes, hs₁.step hstep⟩

/-! ## The reply of a worker -/

/-- A response is the original one of its booking, or a late outcome. -/
def Stored (db : Db) (booking : Uuid) (response : Value) : Prop :=
  (∃ b ∈ db.bookings, b.id = booking ∧ b.originalResponse = some response) ∨
    ∃ o ∈ db.lateOutcomes, o.bookingId = booking ∧ o.response = some response

/-- The worker rewrites its booking, and keeps a reply that comes late. -/
theorem saveAnswer_rows (hu : KeyUnique FlightBooking.id db.bookings) (hbooks : j.books = true)
    (h : saveAnswer site db j reply draw = .ok db') :
    db'.bookings = modify FlightBooking.id j.booking (answered site j reply draw) db.bookings ∧
      (db.hasPending j.booking = false → ⟨j.booking, reply.body?, draw.now⟩ ∈ db'.lateOutcomes) := by
  have hlate : ∀ outcome late, db.hasPending j.booking = false →
      ⟨j.booking, reply.body?, draw.now⟩ ∈
        (recordOutcome db j.booking reply.body? draw.now outcome late).lateOutcomes := by
    intro outcome late hpending
    unfold recordOutcome
    rw [if_neg (by simp [hpending])]
    exact List.mem_append_right _ (List.mem_singleton_self _)
  unfold saveAnswer at h
  cases htask : j.task with
  | book =>
    rw [htask] at h
    obtain ⟨-, events, rfl⟩ := saveHold_ok h
    refine ⟨(recordOutcome_bookings hu).trans (modify_congr fun b _ _ => ?_), hlate _ _⟩
    simp only [answered, htask]
  | bookDirect =>
    rw [htask] at h
    obtain ⟨saved, events, rfl, ⟨hpending, db₁, hinserted, rfl⟩ | ⟨-, rfl⟩⟩ := saveDirect_ok h
    · refine ⟨?_, fun hnone => absurd (hpending.symm.trans hnone) (by simp)⟩
      show db₁.bookings = _
      rw [hinserted.rows]
      refine (recordOutcome_bookings hu).trans (modify_congr fun b _ _ => ?_)
      simp only [answered, htask, id]
    · refine ⟨(recordOutcome_bookings hu).trans (modify_congr fun b _ _ => ?_), hlate _ _⟩
      simp only [answered, htask, id]
  | newTicket | cancel => simp [Job.books, htask] at hbooks

theorem answered_pending (hstate : b.state = .pending) :
    (answered site j reply draw b).originalResponse = reply.body? := by
  unfold answered
  cases j.task <;> simp only [hstate, if_true] <;> rfl

/-- A booking that was no longer pending is open for review again. -/
theorem answered_late (hstate : b.state ≠ .pending) : (answered site j reply draw b).state = .outcomeUnknown ∧
    (answered site j reply draw b).publicResponse = none ∧
    (answered site j reply draw b).errorCode = some "LATE_BOOKING_OUTCOME" := by
  unfold answered
  cases j.task <;> dsimp only <;> rw [if_neg hstate] <;> exact ⟨rfl, rfl, rfl⟩

theorem answered_unresolved : (answered site j reply draw b).state ≠ .manuallyResolved := by
  by_cases hstate : b.state = .pending
  · unfold answered
    cases j.task <;> dsimp only <;> rw [if_pos hstate, save_state] <;>
      simp only [holdOutcome, directOutcome] <;> split <;> simp
  · rw [(answered_late hstate).1]
    simp

/-- What an answer makes of the database. -/
theorem step_answer (hs : w.Sound) (hbooks : j.books = true) (h : w.step site (.answer j reply draw) = .ok w') :
    (∃ b ∈ w.db.bookings, b.id = j.booking ∧ answered site j reply draw b ∈ w'.db.bookings ∧
      (b.state ≠ .pending → ⟨j.booking, reply.body?, draw.now⟩ ∈ w'.db.lateOutcomes)) ∧
    ∀ b' ∈ w'.db.bookings, b'.id = j.booking → b'.state ≠ .manuallyResolved := by
  have hout := (answered_last hs h hbooks).1
  simp only [World.step, bind_eq_ok, ensure_eq_ok, exists_const, pure_eq_ok] at h
  obtain ⟨hflight, db, hsave, rfl⟩ := h
  obtain ⟨hrows, hlate⟩ := saveAnswer_rows hs.booking_unique hbooks hsave
  obtain ⟨-, b, hb, hid, -⟩ := hs.books_backed (hs.plan.once.mem_jobs_of_outstanding hout) hbooks
  refine ⟨⟨b, hb, hid, ?_, fun hstate => hlate ?_⟩, fun b' hb' hid' => ?_⟩
  · show _ ∈ db.bookings
    rw [hrows]
    exact mem_modify_of_mem hb hid
  · -- the worker asks for a pending row, and the only row of the booking is not
    simp only [Db.hasPending, List.any_eq_false, decide_eq_true_eq]
    rintro b₁ hb₁ ⟨hid₁, hpending⟩
    rw [hs.booking_unique.eq_of_key hb hb₁ (hid.trans hid₁.symm)] at hstate
    exact hstate hpending
  · replace hb' : b' ∈ db.bookings := hb'
    rw [hrows] at hb'
    rcases modify_cases hb' with ⟨-, hne⟩ | ⟨b₁, -, -, rfl⟩
    · exact absurd hid' hne
    · exact answered_unresolved

/-- A response that is stored stays stored. -/
theorem run_stored {t : List (Transition World Event)} (hr : (machine site).Run w t w') (hs : w.Sound)
    (hu : Unanswered w) {booking : Uuid} {response : Value} (h : Stored w.db booking response) :
    Stored w'.db booking response := by
  rcases h with ⟨b, hb, hid, hresponse⟩ | ⟨o, ho, hid, hresponse⟩
  · obtain ⟨-, b', hb', hidentity, hkept⟩ := run_booking hr hs hu hb
    refine .inl ⟨b', hb', (congrArg FlightBooking.id hidentity).trans hid, ?_⟩
    rw [hkept (by simp [hresponse]), hresponse]
  · exact .inr ⟨o, (run_late hr hs).1 ho, hid, hresponse⟩

theorem step_stored (hs : w.Sound) (hbooks : j.books = true) {response : Value}
    (h : w.step site (.answer j (.body response) draw) = .ok w') : Stored w'.db j.booking response := by
  obtain ⟨⟨b, hb, hid, hrow, hlate⟩, -⟩ := step_answer hs hbooks h
  by_cases hstate : b.state = .pending
  · exact .inl ⟨_, hrow, (answered_id ..).trans hid, answered_pending hstate⟩
  · exact .inr ⟨_, hlate hstate, rfl, rfl⟩

/-! ## Manual resolutions -/

/-- A booking becomes manually resolved by a resolution only. -/
theorem run_resolved {t : List (Transition World Event)} (hr : (machine site).Run w t w') (hs : w.Sound)
    {booking : Uuid} (hopen : ∀ b ∈ w.db.bookings, b.id = booking → b.state ≠ .manuallyResolved) :
    w'.Sound ∧ ∀ b' ∈ w'.db.bookings, b'.id = booking → b'.state = .manuallyResolved →
      ∃ r ∈ t, ∃ administrator input now, r.label = .resolve administrator booking input now := by
  induction hr with
  | nil => exact ⟨hs, fun b' hb' hid hstate => absurd hstate (hopen b' hb' hid)⟩
  | @snoc w₁ w₂ t e hr₁ hstep ih =>
    obtain ⟨hs₁, hresolved⟩ := ih
    refine ⟨hs₁.step hstep, fun b' hb' hid hstate => ?_⟩
    have hearlier : ∀ b ∈ w₁.db.bookings, b.id = booking → b.state = .manuallyResolved →
        ∃ r ∈ t ++ [⟨w₁, e, w₂⟩], ∃ administrator input now,
          r.label = .resolve administrator booking input now := by
      intro b hb hid' hstate'
      obtain ⟨r, hmem, hrest⟩ := hresolved b hb hid' hstate'
      exact ⟨r, List.mem_append_left _ hmem, hrest⟩
    rcases ((step_transaction hstep).bookings hs₁.booking_unique).back b' hb' with ⟨b, hb, hchange⟩ | ⟨hblank, -⟩
    · have hid' : b.id = booking := hchange.id.symm.trans hid
      -- only a resolution writes this state: a reply never does, and a lookup leaves the state alone
      cases hchange with
      | kept hrow => exact hearlier b hb hid' (hrow ▸ hstate)
      | resolved administrator input response now he hopen' hrow =>
        exact ⟨_, List.mem_append_right _ (List.mem_singleton_self _), administrator, input, now, hid' ▸ he⟩
      | observed c body now he hbooking hrow =>
        rw [hrow, pnrObserved_state] at hstate
        exact hearlier b hb hid' hstate
      | answered j reply draw he hbooks hbooking hrow =>
        rw [hrow] at hstate
        exact absurd hstate answered_unresolved
    · rw [hblank.state] at hstate
      cases hstate

/-! ## Keys that are used again -/

/-- A request that was accepted leaves a booking under its key and its hash. -/
theorem step_book {m : Machine} {header : Option String} {req : BookRequest} {creator : Option Creator}
    (h : w.step site (.book m header req creator draw) = .ok w') : ∃ key, idempotencyKey header = .ok key ∧
      ∃ b ∈ w'.db.bookings, b.clientId = m.clientId ∧ b.idempotencyKey = key ∧
        b.requestHash = site.pf.digest (req.canonical creator).text := by
  simp only [World.step, bind_eq_ok, pure_eq_ok] at h
  obtain ⟨⟨attempt, db⟩, hbook, rfl⟩ := h
  obtain ⟨key, hkey, ⟨previous, hold, hhash, rfl, rfl⟩ | ⟨-, q, b, db₁, events, rfl, hinserted, rfl, rfl⟩⟩ :=
    bookOwned_ok hbook
  · have hmatch := List.find?_some hold
    simp only [decide_eq_true_eq, Prod.mk.injEq] at hmatch
    exact ⟨key, hkey, previous, List.mem_of_find?_eq_some hold, hmatch.1, hmatch.2, hhash⟩
  · refine ⟨key, hkey, newBooking m req creator q key (site.pf.digest (req.canonical creator).text) draw, ?_,
      rfl, rfl, rfl⟩
    show _ ∈ db₁.bookings
    rw [hinserted.rows]
    exact List.mem_append_right _ (List.mem_singleton_self _)

/-- A request that is refused before the bookings are read. -/
def RefusedAnyway (site : Site) (db : Db) (m : Machine) (header : Option String) (req : BookRequest)
    (creator : Option Creator) (draw : Draws) (refusal : ApiError) : Prop :=
  ∀ bookings, bookOwned site { db with bookings := bookings } m header req creator draw = .error refusal

/-- The checks of `book_owned` before it reads any booking. -/
def checkCaller (db : Db) (m : Machine) (header : Option String) (req : BookRequest) (creator : Option Creator) :
    Except ApiError String := do
  m.require "booking"
  ensure (¬ (creator.isSome ∧ req.directIssueIntent)) (error "HOLD_ONLY")
  if req.directIssueIntent then m.require "ticketing" else pure ()
  let key ← idempotencyKey header
  let client ← fetch (lookup ApiClient.id m.clientId db.clients) noRow
  ensure (client.mayBook creator.isSome req.directIssueIntent) (forbidden "CLIENT_BOOKING_DISABLED")
  return key

/-- What `book_owned` does under a key. -/
def bookUnder (site : Site) (db : Db) (m : Machine) (req : BookRequest) (creator : Option Creator) (draw : Draws)
    (key : String) : Except ApiError (Attempt FlightBooking Job × Db) :=
  match db.bookingByKey m.clientId key with
  | some previous => do
    ensure (previous.requestHash = site.pf.digest (req.canonical creator).text) (conflict "IDEMPOTENCY_KEY_REUSED")
    return (.replay previous, db)
  | none => bookFresh site db m req creator key (site.pf.digest (req.canonical creator).text) draw

theorem bookOwned_eq (db : Db) (m : Machine) (header : Option String) (req : BookRequest) (creator : Option Creator)
    (draw : Draws) : bookOwned site db m header req creator draw =
      checkCaller db m header req creator >>= bookUnder site db m req creator draw := by
  unfold bookOwned checkCaller
  by_cases hdirect : req.directIssueIntent
  · simp only [hdirect, if_true, bind_assoc, pure_bind]
    rfl
  · simp only [hdirect, Bool.false_eq_true, if_false, bind_assoc, pure_bind]
    rfl

/-- A key under which another body was booked is refused, and nothing is sent. -/
theorem bookOwned_reused (hs : w.Sound) {m : Machine} {header : Option String} {req : BookRequest}
    {creator : Option Creator} {key : String} (hkey : idempotencyKey header = .ok key) (hb : b ∈ w.db.bookings)
    (hclient : b.clientId = m.clientId) (hsame : b.idempotencyKey = key)
    (hhash : b.requestHash ≠ site.pf.digest (req.canonical creator).text) :
    ∃ refusal, bookOwned site w.db m header req creator draw = .error refusal ∧
      (refusal = conflict "IDEMPOTENCY_KEY_REUSED" ∨ RefusedAnyway site w.db m header req creator draw refusal) := by
  cases hcaller : checkCaller w.db m header req creator with
  | error refusal =>
    refine ⟨refusal, ?_, .inr fun bookings => ?_⟩
    · rw [bookOwned_eq, hcaller]
      rfl
    · rw [bookOwned_eq]
      show checkCaller w.db m header req creator >>= _ = _
      rw [hcaller]
      rfl
  | ok key' =>
    have hkey' : idempotencyKey header = .ok key' := by
      simp only [checkCaller, bind_eq_ok, ensure_eq_ok, exists_const] at hcaller
      obtain ⟨-, -, -, hcaller⟩ := hcaller
      split at hcaller
      · simp only [bind_eq_ok, ensure_eq_ok, exists_const, pure_eq_ok] at hcaller
        obtain ⟨-, -, key₁, hkey₁, -, -, -, rfl⟩ := hcaller
        exact hkey₁
      · simp only [bind_eq_ok, ensure_eq_ok, exists_const, pure_eq_ok] at hcaller
        obtain ⟨key₁, hkey₁, -, -, -, rfl⟩ := hcaller
        exact hkey₁
    -- the caller may book, so the row under the key decides
    obtain rfl : key' = key := Except.ok.inj (hkey'.symm.trans hkey)
    have hold : w.db.bookingByKey m.clientId key' = some b := by
      have hfound := hs.booking_key_unique.lookup hb
      rw [hclient, hsame] at hfound
      exact hfound
    refine ⟨conflict "IDEMPOTENCY_KEY_REUSED", ?_, .inl rfl⟩
    rw [bookOwned_eq, hcaller]
    show bookUnder site w.db m req creator draw key' = _
    unfold bookUnder
    rw [hold]
    simp only [bind_eq_error, ensure_eq_error]
    exact .inl ⟨hhash, trivial⟩

/-! ## The receipt of a direct issue -/

theorem recordOutcome_issues {booking : Uuid} {response : Option Value} {now : Int}
    {outcome late : FlightBooking → FlightBooking} :
    (recordOutcome db booking response now outcome late).issues = db.issues ∧
      (recordOutcome db booking response now outcome late).cancellations = db.cancellations := by
  unfold recordOutcome
  split <;> exact ⟨rfl, rfl⟩

/-- The receipt of a direct issue passes every constraint on issues. -/
theorem receipt_inserted (hs : w.Sound) (hflight : j ∈ w.outbox.inFlight) (htask : j.task = .bookDirect)
    (hfresh : ∀ t ∈ w.db.issues, t.id ≠ draw.id) {saved : Db}
    (hsaved : saved = recordOutcome w.db j.booking reply.body? draw.now
      (directOutcome reply.body? (directIssue site j reply.body? draw).publicResponse) id) :
    ∃ db₁, insertIssue saved (directIssue site j reply.body? draw) = .ok db₁ := by
  have hout : j ∈ w.outbox.outstanding := List.mem_append_right _ hflight
  have hback := hs.plan.backed j (hs.plan.once.mem_jobs_of_outstanding hout)
  unfold Plan.Backs at hback
  rw [htask] at hback
  obtain ⟨_, hrow, -, hid, hmode, hclient⟩ := hback
  obtain ⟨b, hb, rfl⟩ := List.mem_map.mp hrow
  obtain ⟨hissues, hcancellations⟩ : saved.issues = w.db.issues ∧ saved.cancellations = w.db.cancellations := by
    rw [hsaved]
    exact recordOutcome_issues
  have hbooking : ∀ t ∈ w.db.issues, t.bookingId ≠ j.booking := fun t ht =>
    hs.plan.unreceipted j hout htask t.identity (List.mem_map_of_mem ht)
  have hlength : ("direct:" ++ j.booking.text).length = 43 := by
    rw [String.length_append, ← String.length_toList (s := j.booking.text), Uuid.length_text]
    rfl
  simp only [insertIssue, bind_eq_ok, ensure_eq_ok, exists_const, pure_eq_ok, hissues, hcancellations]
  refine ⟨_, ?_, ?_, hfresh, hbooking, ?_, ?_, rfl⟩
  · show 1 ≤ ("direct:" ++ j.booking.text).length ∧ ("direct:" ++ j.booking.text).length ≤ 128
    rw [hlength]
    decide
  · -- only held bookings are cancelled
    intro c hc heq
    obtain ⟨b', hb', hid', hhold⟩ := hs.plan.cancellationBooking c.identity (List.mem_map_of_mem hc)
    have hsame := hs.plan.bookings.eq_of_key hb' hrow (hid'.trans (heq.trans hid.symm))
    rw [hsame] at hhold
    cases hhold.symm.trans hmode
  · rintro t ht ⟨-, hkey⟩
    obtain ⟨b', -, -, hissue⟩ := hs.plan.issueBooking t.identity (List.mem_map_of_mem ht)
    replace hkey : t.identity.idempotencyKey = Plan.receiptKey j.booking := hkey
    split at hissue
    · refine hissue.2 ?_
      rw [hkey, Plan.receiptKey, startsWith, String.toList_append, List.isPrefixOf_iff_prefix]
      exact List.prefix_append _ _
    · -- the key of a receipt names its booking
      have htext := congrArg String.toList (hissue.2.symm.trans hkey)
      rw [Plan.receiptKey, Plan.receiptKey, String.toList_append, String.toList_append] at htext
      exact hbooking t ht (Uuid.text_inj (String.toList_inj.mp (List.append_cancel_left htext)))
  · obtain ⟨b', hb', hidentity⟩ : ∃ b' ∈ saved.bookings, b'.id = b.id ∧ b'.clientId = b.clientId := by
      rw [hsaved, recordOutcome_bookings hs.booking_unique]
      refine ⟨_, mem_modify_of_mem hb hid, ?_⟩
      split <;> exact ⟨rfl, rfl⟩
    simp only [List.any_eq_true, decide_eq_true_eq]
    exact ⟨b', hb', hidentity.1.trans hid, hidentity.2.trans hclient⟩

/-! ## Replies that a worker receives -/

/-- A reply that reached the worker of a booking. -/
structure Received where
  job : Job
  reply : SupplierReply
  draw : Draws
  /-- the database gives the worker a connection, and the lock of the identities in time -/
  served : Bool

def Event.received : Event → Option Received
  | .answer j reply draw => if j.books then some ⟨j, reply, draw, true⟩ else none
  | .answerFails j reply draw served => if j.books then some ⟨j, reply, draw, served⟩ else none
  | _ => none

/-- What the database asks of a reply before it stores it. -/
structure Storable (site : Site) (db : Db) (x : Received) : Prop where
  served : x.served = true
  /-- neither the creator of the booking nor a subject of its client is being deleted -/
  writable : db.bookingWritable x.job.booking = true
  /-- `jsonb` holds the response -/
  jsonb : x.reply.body?.all site.jsonb = true
  /-- the receipt of a direct issue comes under a new id -/
  fresh : x.job.task = .bookDirect → db.hasPending x.job.booking → ∀ t ∈ db.issues, t.id ≠ x.draw.id

/-- Every reply that a worker received could be stored when it came. -/
def Storing (site : Site) (t : List (Transition World Event)) : Prop :=
  ∀ r ∈ t, ∀ x, r.label.received = some x → Storable site r.before.db x

/-- The transaction of the worker goes through for the replies that are storable. -/
theorem saveAnswer_storable (hs : w.Sound) (hflight : j ∈ w.outbox.inFlight) (hbooks : j.books = true) :
    (∃ db, saveAnswer site w.db j reply draw = .ok db) ↔ Storable site w.db ⟨j, reply, draw, true⟩ := by
  obtain ⟨-, b, hb, hid, -⟩ :=
    hs.books_backed (hs.plan.once.mem_jobs_of_outstanding (List.mem_append_right _ hflight)) hbooks
  constructor
  · rintro ⟨db, hsave⟩
    unfold saveAnswer at hsave
    cases htask : j.task with
    | book =>
      rw [htask] at hsave
      obtain ⟨⟨⟩, hcheck, -⟩ := bind_eq_ok.mp hsave
      obtain ⟨-, hjsonb, hwritable⟩ := checkReply_ok.mp hcheck
      exact ⟨rfl, hwritable, hjsonb, fun hdirect => by rw [htask] at hdirect; cases hdirect⟩
    | bookDirect =>
      rw [htask] at hsave
      obtain ⟨⟨⟩, hcheck, -⟩ := bind_eq_ok.mp hsave
      obtain ⟨-, hjsonb, hwritable⟩ := checkReply_ok.mp hcheck
      refine ⟨rfl, hwritable, hjsonb, fun _ hpending => ?_⟩
      -- the receipt was inserted, so its id was free
      obtain ⟨saved, events, rfl, ⟨-, db₁, hinserted, -⟩ | ⟨hnone, -⟩⟩ := saveDirect_ok hsave
      · have hfree := hinserted.id
        rwa [recordOutcome_issues.1] at hfree
      · rw [hnone] at hpending
        cases hpending
    | newTicket | cancel => simp [Job.books, htask] at hbooks
  · intro hstorable
    have hcheck : checkReply site w.db j.booking reply.body? = .ok () :=
      checkReply_ok.mpr ⟨⟨b, hb, hid⟩, hstorable.jsonb, hstorable.writable⟩
    unfold saveAnswer
    cases htask : j.task with
    | book =>
      simp only [saveHold, bind_eq_ok, hcheck]
      split <;> exact ⟨_, (), trivial, rfl⟩
    | bookDirect =>
      by_cases hpending : w.db.hasPending j.booking
      · obtain ⟨db₁, hinsert⟩ : ∃ db₁, insertIssue (recordOutcome w.db j.booking reply.body? draw.now
            (directOutcome reply.body? (directIssue site j reply.body? draw).publicResponse) id)
            (directIssue site j reply.body? draw) = .ok db₁ :=
          receipt_inserted hs hflight htask (hstorable.fresh htask hpending) rfl
        simp only [saveDirect, bind_eq_ok, hcheck, if_pos hpending, mapError_eq_ok]
        exact ⟨_, (), trivial, db₁, hinsert, rfl⟩
      · simp only [saveDirect, bind_eq_ok, hcheck, if_neg hpending]
        exact ⟨_, (), trivial, _, rfl, rfl⟩
    | newTicket | cancel => simp [Job.books, htask] at hbooks

theorem answer_storable (hs : w.Sound) (hflight : j ∈ w.outbox.inFlight) (hbooks : j.books = true) :
    (∃ w', w.step site (.answer j reply draw) = .ok w') ↔ Storable site w.db ⟨j, reply, draw, true⟩ := by
  rw [← saveAnswer_storable hs hflight hbooks]
  simp only [World.step, bind_eq_ok, ensure_eq_ok, exists_const, pure_eq_ok]
  constructor
  · rintro ⟨w', -, db, hsave, -⟩
    exact ⟨db, hsave⟩
  · rintro ⟨db, hsave⟩
    exact ⟨_, hflight, db, hsave, rfl⟩

/-- A reply that could be stored was answered with a transaction. -/
theorem step_received (hs : w.Sound) (h : w.step site e = .ok w') {x : Received} (hx : e.received = some x)
    (hstorable : Storable site w.db x) : x.job.books = true ∧ e = .answer x.job x.reply x.draw := by
  cases e with
  | answer j reply draw =>
    by_cases hbooks : j.books
    · rw [Event.received, if_pos hbooks] at hx
      obtain rfl := Option.some.inj hx
      exact ⟨hbooks, rfl⟩
    · rw [Event.received, if_neg hbooks] at hx
      cases hx
  | answerFails j reply draw served =>
    by_cases hbooks : j.books
    · rw [Event.received, if_pos hbooks] at hx
      obtain rfl := Option.some.inj hx
      -- the transaction that failed would have gone through
      obtain rfl : served = true := hstorable.served
      simp only [World.step, bind_eq_ok, ensure_eq_ok, exists_const] at h
      obtain ⟨hflight, hfailed, -⟩ := h
      obtain ⟨db, hsave⟩ := (saveAnswer_storable hs hflight hbooks).mpr hstorable
      rw [hsave] at hfailed
      cases hfailed trivial
    · rw [Event.received, if_neg hbooks] at hx
      cases hx
  | _ => cases hx

/-- In a run where no transaction of a worker fails, every reply could be stored. -/
theorem storing_of_answered {t : List (Transition World Event)} (h₀ : (machine site).init w)
    (hr : (machine site).Run w t w')
    (hanswered : ∀ r ∈ t, ∀ x, r.label.received = some x → r.label = .answer x.job x.reply x.draw ∧
      x.served = true) : Storing site t := by
  intro r hmem x hx
  obtain ⟨hlabel, hserved⟩ := hanswered r hmem x hx
  obtain ⟨⟨t', hbefore⟩, hstep⟩ := hr.mem hmem
  have hs : r.before.Sound := reachable_sound ⟨w, t', h₀, hbefore⟩
  have hbooks : x.job.books = true := by
    rw [hlabel, Event.received] at hx
    by_contra hnot
    rw [if_neg hnot] at hx
    cases hx
  rw [hlabel] at hstep
  obtain ⟨hflight, -⟩ : x.job ∈ r.before.outbox.inFlight ∧ _ := by
    simpa only [machine, World.step, bind_eq_ok, ensure_eq_ok, exists_const, pure_eq_ok] using hstep
  have hstorable := (answer_storable hs hflight hbooks).mp ⟨_, hstep⟩
  exact ⟨hserved, hstorable.writable, hstorable.jsonb, hstorable.fresh⟩

/-! ## The result -/

/-- What a run has done to bookings and to the replies of their suppliers. -/
structure BookingSafe (site : Site) (t : List (Transition World Event)) (w : World) : Prop where
  /-- Every job that books was sent for a client and a key, and for each of these at most one was. -/
  booked : (∀ j ∈ dispatched t, j.books = true → ∃ client key, BooksFor w.db client key j) ∧
    ∀ client key, ((dispatched t).filter fun j => BooksFor w.db client key j).length ≤ 1
  /-- Every direct issue was sent for an offer, and for each offer at most one was. -/
  issued : (∀ j ∈ dispatched t, j.task = .bookDirect → ∃ offer, IssuesOffer w.db offer j) ∧
    ∀ offer, ((dispatched t).filter fun j => IssuesOffer w.db offer j).length ≤ 1
  /-- The key of an accepted request with a body of another digest is a conflict, and no step. -/
  reused : ∀ r ∈ t, ∀ m header req creator draw, r.label = .book m header req creator draw →
    ∀ m' header' req' creator' draw', m'.clientId = m.clientId → idempotencyKey header' = idempotencyKey header →
      site.pf.digest (req.canonical creator).text ≠ site.pf.digest (req'.canonical creator').text →
        ∃ refusal, w.step site (.book m' header' req' creator' draw') = .error refusal ∧
          (refusal = conflict "IDEMPOTENCY_KEY_REUSED" ∨
            RefusedAnyway site w.db m' header' req' creator' draw' refusal)
  /-- The transaction of a worker commits exactly where the database takes the reply. -/
  accepted : ∀ j ∈ w.outbox.inFlight, j.books = true → ∀ reply draw,
    (∃ w', w.step site (.answer j reply draw) = .ok w') ↔ Storable site w.db ⟨j, reply, draw, true⟩

/-- What a run has done with the replies that its workers received. -/
structure RepliesKept (t : List (Transition World Event)) (w : World) : Prop where
  stored : ∀ r ∈ t, ∀ x response, r.label.received = some x → x.reply = .body response →
    Stored w.db x.job.booking response
  /-- A reply opens a booking that was resolved by hand, for all to see. -/
  reopened : ∀ r ∈ t, ∀ x, r.label.received = some x →
    ∀ b ∈ r.before.db.bookings, b.id = x.job.booking → b.state = .manuallyResolved →
      ∃ b' ∈ r.after.db.bookings, b'.id = b.id ∧ b'.state = .outcomeUnknown ∧ b'.publicResponse = none ∧
        b'.errorCode = some "LATE_BOOKING_OUTCOME"
  /-- A manual resolution that is in force after the reply was made after it. -/
  resolved : ∀ t₁ r t₂, t = t₁ ++ r :: t₂ → ∀ x, r.label.received = some x →
    ∀ b ∈ w.db.bookings, b.id = x.job.booking → b.state = .manuallyResolved →
      ∃ r' ∈ t₂, ∃ administrator input now, r'.label = .resolve administrator x.job.booking input now

/-- Over any run of requests, replays, workers and administrators, one call is sent for a key and one direct issue
for an offer, and a key stands for one body.  Where the database could take every reply when it came, what the
supplier replied is stored, and it outlasts no manual resolution that was made before it. -/
theorem booking_dispatch_safety {t : List (Transition World Event)} (h₀ : (machine site).init w)
    (hr : (machine site).Run w t w') : BookingSafe site t w' ∧ (Storing site t → RepliesKept t w') := by
  have hs : w'.Sound := reachable_sound ⟨w, t, h₀, hr⟩
  have hjobs : ∀ j ∈ dispatched t, j ∈ w'.outbox.jobs := by
    intro j hj
    rw [← dispatched_sent h₀ hr] at hj
    exact List.mem_append_right _ hj
  constructor
  · constructor
    case booked =>
      refine ⟨fun j hj hbooks => ?_, fun client key => ?_⟩
      · obtain ⟨-, b, hb, hid, -⟩ := hs.books_backed (hjobs j hj) hbooks
        exact ⟨b.clientId, b.idempotencyKey, hbooks, b, hb, hid, rfl, rfl⟩
      · rw [← dispatched_sent h₀ hr]
        exact hs.booked_once client key
    case issued =>
      refine ⟨fun j hj htask => ?_, fun offer => ?_⟩
      · obtain ⟨-, b, hb, hid, -⟩ := hs.books_backed (hjobs j hj) (by simp [Job.books, htask])
        exact ⟨b.offerId, htask, b, hb, hid, rfl⟩
      · rw [← dispatched_sent h₀ hr]
        exact hs.issued_offer_once offer
    case reused =>
      intro r hmem m header req creator draw hlabel m' header' req' creator' draw' hclient hheader hbody
      obtain ⟨t₁, t₂, rfl, hbefore, hstep, hafter⟩ := hr.split hmem
      obtain ⟨hs₁, hu₁⟩ := reachable_unanswered ⟨w, t₁, h₀, hbefore⟩
      rw [hlabel] at hstep
      obtain ⟨key, hkey, b, hb, hbclient, hbkey, hhash⟩ := step_book hstep
      -- the booking is there until the end of the run, with its key and its hash
      obtain ⟨-, b', hb', hidentity, -⟩ := run_booking hafter (hs₁.step hstep) (hu₁.step hs₁ hstep) hb
      have hclient' : b'.clientId = b.clientId :=
        show b'.identity.clientId = b.identity.clientId by rw [hidentity]
      have hkey' : b'.idempotencyKey = b.idempotencyKey :=
        show b'.identity.idempotencyKey = b.identity.idempotencyKey by rw [hidentity]
      have hhash' : b'.requestHash = b.requestHash :=
        show b'.identity.requestHash = b.identity.requestHash by rw [hidentity]
      have hother : b'.requestHash ≠ site.pf.digest (req'.canonical creator').text := by
        rw [hhash', hhash]
        exact hbody
      obtain ⟨refusal, hrefused, hwhy⟩ : ∃ refusal,
          bookOwned site w'.db m' header' req' creator' draw' = .error refusal ∧
            (refusal = conflict "IDEMPOTENCY_KEY_REUSED" ∨
              RefusedAnyway site w'.db m' header' req' creator' draw' refusal) :=
        bookOwned_reused hs (hheader.trans hkey) hb' (hclient'.trans (hbclient.trans hclient.symm))
          (hkey'.trans hbkey) hother
      refine ⟨refusal, ?_, hwhy⟩
      simp only [World.step, bind_eq_error]
      exact .inl hrefused
    case accepted => exact fun j hflight hbooks reply draw => answer_storable hs hflight hbooks
  · intro hstoring
    -- every reply is an answer whose transaction committed, and the run goes on from there
    have hanswer : ∀ t₁ r t₂, t = t₁ ++ r :: t₂ → ∀ x, r.label.received = some x → r.before.Sound ∧
        Unanswered r.before ∧ x.job.books = true ∧
        r.before.step site (.answer x.job x.reply x.draw) = .ok r.after ∧ (machine site).Run r.after t₂ w' := by
      rintro t₁ r t₂ rfl x hx
      obtain ⟨s, hbefore, hrest⟩ := hr.cut
      obtain rfl := hrest.first
      obtain ⟨s', hone, hafter⟩ := Machine.Run.cut (t := [r]) hrest
      obtain ⟨-, hstep, rfl⟩ := Machine.Run.last (t := []) hone
      obtain ⟨hs₁, hu₁⟩ := reachable_unanswered ⟨w, t₁, h₀, hbefore⟩
      have hstorable : Storable site r.before.db x :=
        hstoring r (List.mem_append_right _ (List.mem_cons_self ..)) x hx
      obtain ⟨hbooks, hlabel⟩ := step_received hs₁ hstep hx hstorable
      exact ⟨hs₁, hu₁, hbooks, hlabel ▸ hstep, hafter⟩
    constructor
    case stored =>
      intro r hmem x response hx hreply
      obtain ⟨t₁, t₂, ht⟩ := List.append_of_mem hmem
      obtain ⟨hs₁, hu₁, hbooks, hstep, hafter⟩ := hanswer t₁ r t₂ ht x hx
      rw [hreply] at hstep
      exact run_stored hafter (hs₁.step hstep) (hu₁.step hs₁ hstep) (step_stored hs₁ hbooks hstep)
    case reopened =>
      intro r hmem x hx b hb hid hstate
      obtain ⟨t₁, t₂, ht⟩ := List.append_of_mem hmem
      obtain ⟨hs₁, -, hbooks, hstep, -⟩ := hanswer t₁ r t₂ ht x hx
      obtain ⟨⟨b₁, hb₁, hid₁, hrow, -⟩, -⟩ := step_answer hs₁ hbooks hstep
      obtain rfl := hs₁.booking_unique.eq_of_key hb hb₁ (hid.trans hid₁.symm)
      exact ⟨_, hrow, answered_id .., answered_late (by rw [hstate]; decide)⟩
    case resolved =>
      intro t₁ r t₂ ht x hx b hb hid hstate
      obtain ⟨hs₁, -, hbooks, hstep, hafter⟩ := hanswer t₁ r t₂ ht x hx
      exact (run_resolved hafter (hs₁.step hstep) (step_answer hs₁ hbooks hstep).2).2 b hb hid hstate

/-! ## Replies after a resolution and after a deletion -/

/-- The clock of an administrator who has seen the booking as it was made. -/
def sampleLateSite : Site :=
  { sampleSite with
    pf := { sampleSite.pf with digest := fun s => s.length }
    rfc3339 := fun s => if s = "1970-01-01T00:00:00.000001Z" then some 1 else none }

def sampleResolution : ResolutionInput where
  outcome := .notCreated
  reason := "no reply for hours"
  evidence := "phone call with the desk"
  supplierCaseRef := "case 1"
  expectedUpdatedAt := "1970-01-01T00:00:00.000001Z"
  confirmedWithSupplier := true

/-- A booking is sent to its supplier. -/
def sampleSent : List (World → List Event) :=
  [fun _ => samplePrelude,
    fun _ => [.book sampleMachine (some "k1") sampleRequest none ⟨20, 0, 0, 1, 1⟩],
    fun w => w.outbox.waiting.map .dispatch]

def sampleLate : List (World → List Event) :=
  [fun _ => [.resolve 2 20 sampleResolution (seconds 600)],
    fun w => w.outbox.inFlight.map fun j => .answer j (.body sampleReply) ⟨0, 0, 0, 2, 2⟩]

theorem sampleLate_answered {stage : World → List Event} (hstage : stage ∈ sampleSent ++ sampleLate)
    (h : e ∈ stage w) {x : Received} (hx : e.received = some x) :
    e = .answer x.job x.reply x.draw ∧ x.served = true := by
  simp only [sampleSent, sampleLate, List.cons_append, List.nil_append, List.mem_cons, List.not_mem_nil,
    or_false] at hstage
  rcases hstage with rfl | rfl | rfl | rfl | rfl
  · simp only [samplePrelude, List.mem_cons, List.not_mem_nil, or_false] at h
    rcases h with rfl | rfl | rfl | rfl | rfl | rfl | rfl | rfl | rfl <;> cases hx
  · rw [List.mem_singleton.mp h] at hx
    cases hx
  · obtain ⟨j, -, rfl⟩ := List.mem_map.mp h
    cases hx
  · rw [List.mem_singleton.mp h] at hx
    cases hx
  · obtain ⟨j, -, rfl⟩ := List.mem_map.mp h
    by_cases hbooks : j.books
    · rw [Event.received, if_pos hbooks] at hx
      obtain rfl := Option.some.inj hx
      exact ⟨rfl, rfl⟩
    · rw [Event.received, if_neg hbooks] at hx
      cases hx

set_option maxRecDepth 10000 in
/-- The reply came after an administrator had resolved the booking. -/
theorem booking_dispatch_safety_late : ∃ w t w', (machine sampleLateSite).init w ∧
    (machine sampleLateSite).Run w t w' ∧ w'.outbox.sent.map Job.task = [.book] ∧
    w'.db.bookings.map FlightBooking.state = [.outcomeUnknown] ∧
    w'.db.lateOutcomes.map LateOutcome.response = [some sampleReply] ∧ BookingSafe sampleLateSite t w' ∧
    RepliesKept t w' := by
  have hend : ((World.empty ⟨0, 0, 0⟩).drive sampleLateSite (sampleSent ++ sampleLate)).map (fun w =>
      (w.outbox.sent.map Job.task, w.db.bookings.map FlightBooking.state,
        w.db.lateOutcomes.map LateOutcome.response)) = .ok ([.book], [.outcomeUnknown], [some sampleReply]) := by
    decide +kernel
  obtain ⟨w', hdrive, heq⟩ := map_eq_ok.mp hend
  obtain ⟨hsent, hrest⟩ := Prod.mk.inj heq
  obtain ⟨hstates, hlate⟩ := Prod.mk.inj hrest
  have h₀ : (machine sampleLateSite).init (World.empty ⟨0, 0, 0⟩) := ⟨_, rfl⟩
  obtain ⟨t, hr, hstages⟩ := run_of_drive (.nil _) hdrive
  have hstoring : Storing sampleLateSite t := by
    refine storing_of_answered h₀ hr fun r hmem x hx => ?_
    obtain ⟨stage, hstage, w₁, hlabel⟩ := hstages r hmem
    exact sampleLate_answered hstage hlabel hx
  obtain ⟨hsafe, hkept⟩ := booking_dispatch_safety h₀ hr
  exact ⟨_, t, w', h₀, hr, hsent, hstates, hlate, hsafe, hkept hstoring⟩

/-- The owner of the client's agency is deleted while the supplier is called. -/
def sampleDeleted : List (World → List Event) :=
  [fun _ => [.outside (.identities ⟨["user_1"], [], [("A1", "user_1")]⟩)]]

set_option maxRecDepth 10000 in
/-- The supplier held the booking, its reply reached the worker, and nothing of it is stored. -/
theorem booking_dispatch_safety_lost : ∃ w t w', (machine sampleSite).init w ∧ (machine sampleSite).Run w t w' ∧
    w'.db.identities.terminal = ["user_1"] ∧
    ∃ r ∈ t, ∃ x, r.label.received = some x ∧ x.served = true ∧ x.reply = .body sampleReply ∧
      ¬ Stored w'.db x.job.booking sampleReply := by
  have hend : ((World.empty ⟨0, 0, 0⟩).drive sampleSite (sampleSent ++ sampleDeleted)).map (fun w =>
      (w.db.identities.terminal, w.outbox.inFlight.map fun j => (j.books, (saveAnswer sampleSite w.db j
          (.body sampleReply) ⟨0, 0, 0, 2, 2⟩).toOption.isSome),
        w.db.bookings.map FlightBooking.originalResponse, w.db.lateOutcomes.length)) =
      .ok (["user_1"], [(true, false)], [none], 0) := by
    decide +kernel
  obtain ⟨w, hdrive, heq⟩ := map_eq_ok.mp hend
  simp only [Prod.mk.injEq] at heq
  obtain ⟨hterminal, hflight, hresponses, hlate⟩ := heq
  obtain ⟨j, hjobs, hj⟩ := List.map_eq_singleton_iff.mp hflight
  obtain ⟨hbooks, hrefused⟩ := Prod.mk.inj hj
  obtain ⟨t, hr, -⟩ := run_of_drive (.nil _) hdrive
  have hstep : (machine sampleSite).step w (.answerFails j (.body sampleReply) ⟨0, 0, 0, 2, 2⟩ true)
      { w with outbox := w.outbox.lose j } := by
    simp only [machine, World.step, bind_eq_ok, ensure_eq_ok, exists_const, pure_eq_ok]
    refine ⟨by rw [hjobs]; exact List.mem_singleton_self _, fun _ => ?_, trivial⟩
    simpa using hrefused
  refine ⟨_, _, _, ⟨_, rfl⟩, hr.snoc hstep, hterminal, _, List.mem_append_right _ (List.mem_singleton_self _),
    ⟨j, .body sampleReply, ⟨0, 0, 0, 2, 2⟩, true⟩, ?_, rfl, rfl, ?_⟩
  · rw [Event.received, if_pos hbooks]
  · rintro (⟨b, hb, -, hresponse⟩ | ⟨o, ho, -⟩)
    · have hnone : b.originalResponse ∈ [none] := hresponses ▸ List.mem_map_of_mem hb
      rw [List.mem_singleton.mp hnone] at hresponse
      cases hresponse
    · rw [List.length_eq_zero_iff.mp hlate] at ho
      cases ho

end ShaponTravels.Booking
