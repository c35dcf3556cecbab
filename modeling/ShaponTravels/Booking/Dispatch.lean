import ShaponTravels.Booking.Progress
import ShaponTravels.Booking.Tickets
import ShaponTravels.Booking.Verifiers
import ShaponTravels.Pricing.Texts

/-!
# Dispatch — issue and cancel calls of one booking

What a run sent to suppliers, and why a booking is issued or cancelled at most once, never both and
never unpaid.
-/

namespace ShaponTravels.Booking

open Library
open Wallet (WalletOperation)

variable {site : Site} {db : Db} {w w' : World} {e : Event} {j j' : Job}

/-! ## What a run sends -/

/-- The job an event sends to its supplier. -/
def Event.sends : Event → List Job
  | .dispatch j => [j]
  | _ => []

/-- The jobs a run dispatched, oldest first. -/
def dispatched (t : List (Transition World Event)) : List Job := t.flatMap fun r => r.label.sends

theorem step_sent (h : w.step site e = .ok w') :
    w'.outbox.sent = w.outbox.sent ++ e.sends := by
  cases e with
  | dispatch j =>
    simp only [World.step, bind_eq_ok, ensure_eq_ok, exists_const, pure_eq_ok] at h
    obtain ⟨-, rfl⟩ := h
    rfl
  | book m header req creator draw =>
    simp only [World.step, bind_eq_ok, pure_eq_ok] at h
    obtain ⟨⟨attempt, db⟩, -, rfl⟩ := h
    cases attempt <;> exact (List.append_nil _).symm
  | issue c draw | cancel c draw =>
    simp only [World.step, bind_eq_ok, pure_eq_ok] at h
    obtain ⟨w₁, htake, ⟨attempt, db⟩, -, rfl⟩ := h
    obtain ⟨-, rfl⟩ := World.take_ok htake
    cases attempt <;> exact (List.append_nil _).symm
  | readIssue m header req portal | readCancel m header req
  | readVerify m booking | readReconcile client booking actorKind actorId now =>
    simp only [World.step, bind_eq_ok, pure_eq_ok] at h
    obtain ⟨read, -, rfl⟩ := h
    cases read <;> exact (List.append_nil _).symm
  | readPnr client booking actorKind actorId now | resolve administrator booking input now
  | review a c draw | outside o =>
    simp only [World.step, bind_eq_ok, pure_eq_ok] at h
    obtain ⟨-, -, rfl⟩ := h
    exact (List.append_nil _).symm
  | pnr c body now | verify c now =>
    simp only [World.step, bind_eq_ok, pure_eq_ok] at h
    obtain ⟨w₁, htake, rfl⟩ := h
    obtain ⟨-, rfl⟩ := World.take_ok htake
    exact (List.append_nil _).symm
  | reconcile c pnr report draw =>
    simp only [World.step, bind_eq_ok, pure_eq_ok] at h
    obtain ⟨w₁, htake, db, -, rfl⟩ := h
    obtain ⟨-, rfl⟩ := World.take_ok htake
    exact (List.append_nil _).symm
  | answer j reply draw | finalize issue draw =>
    simp only [World.step, bind_eq_ok, ensure_eq_ok, exists_const, pure_eq_ok] at h
    obtain ⟨-, db, -, rfl⟩ := h
    exact (List.append_nil _).symm
  | loseFinalize issue =>
    simp only [World.step, bind_eq_ok, ensure_eq_ok, exists_const, pure_eq_ok] at h
    obtain ⟨-, rfl⟩ := h
    exact (List.append_nil _).symm
  | answerFails j reply draw served =>
    simp only [World.step, bind_eq_ok, ensure_eq_ok, exists_const, pure_eq_ok] at h
    obtain ⟨-, -, rfl⟩ := h
    exact (List.append_nil _).symm
  | loseJob j | loseCall c =>
    cases h
    exact (List.append_nil _).symm

theorem run_sent {t : List (Transition World Event)} (hr : (machine site).Run w t w') :
    w'.outbox.sent = w.outbox.sent ++ dispatched t := by
  induction hr with
  | nil => exact (List.append_nil _).symm
  | snoc _ hs ih =>
    rw [step_sent hs, ih, List.append_assoc]
    simp [dispatched]

theorem dispatched_sent {t : List (Transition World Event)} (h₀ : (machine site).init w)
    (hr : (machine site).Run w t w') : w'.outbox.sent = dispatched t := by
  obtain ⟨policy, rfl⟩ := h₀
  rw [run_sent hr]
  rfl

/-! ## What backs a job -/

theorem World.Sound.backs (hs : w.Sound) (hj : j ∈ w.outbox.sent) : w.plan.Backs j :=
  hs.plan.backed j (List.mem_append_right _ hj)

theorem World.Sound.backs_issue (hs : w.Sound) (hj : j ∈ w.outbox.sent) (htask : j.task = .newTicket) :
    ∃ t ∈ w.plan.issues, t.id = j.row ∧ t.bookingId = j.booking ∧ t.walletRequired := by
  have hback := hs.backs hj
  unfold Plan.Backs at hback
  rw [htask] at hback
  exact hback

theorem World.Sound.backs_cancel (hs : w.Sound) (hj : j ∈ w.outbox.sent) (htask : j.task = .cancel) :
    ∃ c ∈ w.plan.cancellations, c.id = j.row ∧ c.bookingId = j.booking := by
  have hback := hs.backs hj
  unfold Plan.Backs at hback
  rw [htask] at hback
  exact hback

theorem World.Sound.issued_once (hs : w.Sound) (booking : Uuid) :
    (w.outbox.sent.filter (fun j => j.task = .newTicket ∧ j.booking = booking)).length ≤ 1 := by
  refine hs.plan.once.sent_le_one ?_
  rintro j hj j' hj' ⟨htask, hbooking⟩ ⟨htask', hbooking'⟩
  obtain ⟨t, ht, hrow, hb, -⟩ := hs.backs_issue hj htask
  obtain ⟨t', ht', hrow', hb', -⟩ := hs.backs_issue hj' htask'
  have hsame : t = t' := hs.plan.issueBookings.eq_of_key ht ht'
    (by rw [hb, hb', hbooking, hbooking'])
  rw [Job.key, Job.key, htask, htask', ← hrow, ← hrow', hsame]

theorem World.Sound.cancelled_once (hs : w.Sound) (booking : Uuid) :
    (w.outbox.sent.filter (fun j => j.task = .cancel ∧ j.booking = booking)).length ≤ 1 := by
  refine hs.plan.once.sent_le_one ?_
  rintro j hj j' hj' ⟨htask, hbooking⟩ ⟨htask', hbooking'⟩
  obtain ⟨c, hc, hrow, hb⟩ := hs.backs_cancel hj htask
  obtain ⟨c', hc', hrow', hb'⟩ := hs.backs_cancel hj' htask'
  have hsame : c = c' := hs.plan.cancellationBookings.eq_of_key hc hc'
    (by rw [hb, hb', hbooking, hbooking'])
  rw [Job.key, Job.key, htask, htask', ← hrow, ← hrow', hsame]

theorem World.Sound.never_both (hs : w.Sound) (hj : j ∈ w.outbox.sent) (htask : j.task = .newTicket)
    (hj' : j' ∈ w.outbox.sent) (htask' : j'.task = .cancel) : j.booking ≠ j'.booking := by
  obtain ⟨t, ht, -, hb, -⟩ := hs.backs_issue hj htask
  obtain ⟨c, hc, -, hb'⟩ := hs.backs_cancel hj' htask'
  rw [← hb, ← hb']
  exact hs.plan.exclusive t ht c hc

/-! ## What pays for an issue -/

/-- The wallet reservation of the issue a job sends: an operation for exactly the payable which the
price of the booking records, with the ledger entry that took it. -/
def Paid (db : Db) (j : Job) : Prop :=
  ∃ o ∈ db.wallet.operations, o.subjectKind = .ticketIssue ∧ o.subjectId = j.row ∧
    o.bookingId = some j.booking ∧
    (∃ b ∈ db.bookings, b.id = j.booking ∧ ∃ r ∈ db.reprices, r.id = b.priceId ∧ r.Records o) ∧
    ∃ entry ∈ db.wallet.entries, entry.operationId = some o.id ∧
      entry.transactionType = .bookingHold ∧ entry.amount = o.amount

theorem World.Sound.paid (hs : w.Sound) (hj : j ∈ w.outbox.jobs) (htask : j.task = .newTicket) :
    Paid w.db j := by
  have hback := hs.plan.backed j hj
  unfold Plan.Backs at hback
  rw [htask] at hback
  obtain ⟨t, ht, hrow, hbooking, hrequired⟩ := hback
  obtain ⟨o', ho', hreserves⟩ := hs.plan.reserved t ht hrequired
  obtain ⟨o, ho, rfl⟩ := List.mem_map.mp ho'
  obtain ⟨b', hb', hbid, r', hr', hrid, hrecords⟩ := hreserves.payable
  obtain ⟨b, hb, rfl⟩ := List.mem_map.mp hb'
  obtain ⟨r, hr, rfl⟩ := List.mem_map.mp hr'
  have hholds := (hs.wallet.operations o ho).holds
  obtain ⟨entry, hentry, hop, htype⟩ := Wallet.exists_of_countOf_pos
    (show 0 < Wallet.countOf .bookingHold o.id w.db.wallet.entries by omega)
  have hamount := hs.wallet.amounts entry hentry (by rw [htype]; rfl) o ho hop
  exact ⟨o, ho, hreserves.kind, hreserves.subject.trans hrow, hreserves.booking.trans (by rw [hbooking]),
    ⟨b, hb, hbid.trans hbooking, r, hr, hrid, hrecords⟩, entry, hentry, hop, htype, hamount⟩

/-! ## Driving a sample site -/

/-- Run the events each stage draws from the state it finds, all of them succeeding. -/
def World.drive (site : Site) : List (World → List Event) → World → Except ApiError World
  | [], w => .ok w
  | stage :: stages, w => (stage w).foldlM (World.step site) w >>= drive site stages

theorem run_of_drive {site : Site} {stages : List (World → List Event)} {w₀ w w' : World}
    {t : List (Transition World Event)} (hr : (machine site).Run w₀ t w)
    (h : w.drive site stages = .ok w') : ∃ t', (machine site).Run w₀ (t ++ t') w' ∧
      ∀ r ∈ t', ∃ stage ∈ stages, ∃ w₁, r.label ∈ stage w₁ := by
  induction stages generalizing w t with
  | nil =>
    cases h
    exact ⟨[], by rwa [List.append_nil], List.forall_mem_nil _⟩
  | cons stage stages ih =>
    obtain ⟨w₁, hevents, hrest⟩ := bind_eq_ok.mp h
    obtain ⟨t₁, hr₁, hlabels⟩ := hr.foldlM_labels (fun _ _ _ hstep => hstep) hevents
    obtain ⟨t₂, hr₂, hstages⟩ := ih hr₁ hrest
    refine ⟨t₁ ++ t₂, by rwa [← List.append_assoc], fun r hmem => ?_⟩
    rcases List.mem_append.mp hmem with hfirst | hlater
    · exact ⟨stage, List.mem_cons_self, w, hlabels ▸ List.mem_map_of_mem hfirst⟩
    · obtain ⟨stage', hstage', hlabel⟩ := hstages r hlater
      exact ⟨stage', List.mem_cons_of_mem _ hstage', hlabel⟩

/-- A date and a time as `%m/%d/%Y %H:%M:%S`, with all their digits. -/
def sampleNumericDate (s : String) : Bool :=
  let chars := s.toList
  let number (start size : Nat) : Nat := Nat.ofDigitChars 10 ((chars.drop start).take size) 0
  chars.map (fun c => if isAsciiDigit c then '0' else c) = "00/00/0000 00:00:00".toList &&
    1 ≤ number 0 2 && number 0 2 ≤ 12 && 1 ≤ number 3 2 &&
    number 3 2 ≤ NaiveDate.daysIn (number 6 4) (number 0 2) &&
    number 11 2 < 24 && number 14 2 < 60 && number 17 2 < 60

/-- A process with one supplier. -/
def sampleProcess : Process where
  pf := ⟨fun _ => 0, fun s => s, fun s => s, fun s => s⟩
  environment := "test"
  supplier id := if id = "s" then some ⟨some "BDT", true, true, true, true, false⟩ else none
  rfc3339 _ := none
  localDeadline _ := none
  numericDate := sampleNumericDate
  instantText _ := ""
  timestampText _ := ""
  parseUrl _ := none
  jsonb _ := true

def sampleVerifiers : Verifiers where
  checks := sampleChecks
  decimals := Pricing.sampleDecimals
  instant s :=
    if s = "2026-09-29T07:20:00" then some 0
    else if s = "2026-09-29T08:20:00" then some 3600
    else none
  fresh := sampleFresh

def sampleSite : Site := sampleVerifiers.site sampleProcess

def sampleMachine : Machine where
  clientId := 1
  audience := "api"
  agentId := none
  permissions := ["booking", "ticketing", "cancellation"]
  tier := none
  commissionSharePercent := 0

/-- A domestic flight for one adult at 100 taka, under the references of its supplier. -/
def sampleOffered : Value :=
  let fare := Value.object [("totalPrice", .ofInt 100), ("basePrice", .ofInt 100),
    ("taxes", .ofInt 0), ("ait", .ofInt 0)]
  let segment := Value.object [("from", .str "DAC"), ("to", .str "CXB"), ("flightNumber", .str "437"),
    ("departure", .str "2026-09-29T07:20:00"), ("arrival", .str "2026-09-29T08:20:00")]
  .object [("uniqueTransID", .str "u"), ("itemCodeRef", .str "i"), ("priceCodeRef", .str "p"),
    ("bookable", .bool true), ("currency", .str "BDT"), ("totalPrice", .ofInt 100),
    ("directions", .arr [.arr [.object [("segments", .arr [segment])]]]),
    ("passengerCounts", .object [("adt", .ofInt 1), ("chd", .ofInt 0), ("cnn", .ofInt 0),
      ("inf", .ofInt 0), ("ins", .ofInt 0)]),
    ("passengerFares", .object [("adt", fare)]), ("bookingComponents", .arr [fare])]

def samplePrice : Reprice where
  id := 7
  offerId := 6
  clientId := 1
  version := 1
  original := .object [("item1", sampleOffered)]
  selling := .object [("item1", sampleOffered)]
  referenceMap := .obj []
  audience := "api"
  agentId := none
  currency := "BDT"
  tierPricing := some (.object [("payable", .str "100.00"), ("commission", .str "0.00"),
    ("gross", .str "100.00"), ("currency", .str "BDT")])
  acceptedAt := none
  expiresAt := 100

def sampleTraveller : Passenger := sampleAdult "Karim" "1960-01-01"

def sampleRequest : BookRequest where
  uniqueTransId := Uuid.text 5
  itemCodeRef := Uuid.text 6
  priceCodeRef := 7
  passengerInfoes := [sampleTraveller]
  directIssueIntent := false
  taxRedemptions := []
  commissionOnTaxes := []

def sampleSuccess (info : List (String × Value)) : Value :=
  .object [("item1", .object info), ("item2", .object [("isSuccess", .bool true)])]

def sampleReply : Value :=
  sampleSuccess [("pnr", .str "ABC123"), ("bookingCodeRef", .str "b"), ("uniqueTransID", .str "u"),
    ("priceCodeRef", .str "p"), ("itemCodeRef", .str "i"), ("bookingStatus", .str "Created")]

/-- A PNR lookup that finds the booking ticketed. -/
def sampleTicketed : Value := sampleSuccess [("status", .str "Ticketed"), ("pnr", .str "ABC123")]

/-- The report of one ticket. -/
def sampleReport : Value :=
  .object [("ticketInfo", .object [("pnr", .str "ABC123"), ("uniqueTransID", .str "u"),
      ("status", .str "Issued"), ("statusFor", .str "Ticket"), ("isCompleted", .bool true),
      ("issueDate", .str "2026-09-29T07:20:00"), ("ticketingPrice", .ofInt 100)]),
    ("passengerInfo", .arr [.object [("first", .str "Karim"), ("last", .str "Uddin"),
      ("passengerType", .str "ADT"), ("basePrice", .ofInt 100), ("tax", .ofInt 0),
      ("ait", .ofInt 0), ("totalPrice", .ofInt 100), ("ticketNumbers", .str "1234567890")]]),
    ("segments", .arr [.object [("origin", .str "DAC"), ("destination", .str "CXB"),
      ("flightNumber", .str "437"), ("departure", .str "2026-09-29T07:20:00"),
      ("arrival", .str "2026-09-29T08:20:00")]])]

/-- A client with a funded wallet and an accepted price. -/
def samplePrelude : List Event :=
  [.outside (.clients [⟨1, true, "api", none, ["booking", "ticketing", "cancellation"], none, false,
      "basic"⟩]),
    .outside (.connections [⟨"s", true, true, true, true, 0, 30⟩]),
    .outside (.searches [⟨5, .object [("routes", .arr [.object [("departureDate", .str "2026-09-29")]]),
      ("childrenAges", .arr [])], 100⟩]),
    .outside (.offers [⟨6, 1, 5, "s", 0, .object [("bookable", .bool true)], false, 100⟩]),
    .outside (.reprice samplePrice), .outside (.accept 7 1),
    .outside (.wallet (.provision ⟨"agency", "A1"⟩ "BDT" (.obj []) 11 12)),
    .outside (.linkClient 1 12),
    .outside (.wallet (.posting { id := 13, account := 12, type := "deposit", amount := 20000
                                  operation := none, booking := none, key := "d1", hash := 0
                                  actor := "staff", role := "admin", remarks := ""
                                  metadata := .obj [], now := 0 }))]

def sampleBooking : List (World → List Event) :=
  [fun _ => samplePrelude,
    fun _ => [.book sampleMachine (some "k1") sampleRequest none ⟨20, 0, 0, 1, 1⟩],
    fun w => w.outbox.waiting.map .dispatch,
    fun w => w.outbox.inFlight.map fun j => .answer j (.body sampleReply) ⟨0, 0, 0, 2, 2⟩]

def sampleIssue : List (World → List Event) :=
  [fun _ => [.readIssue sampleMachine (some "k2") ⟨"ABC123", "ABC123", 5, 7, 6, 20⟩ none],
    fun w => w.calls.filterMap fun c => match c with
      | .issue c => some (.issue c ⟨30, 31, 32, 3, 3⟩)
      | _ => none,
    fun w => w.outbox.waiting.map .dispatch]

/-! ## The result -/

/-- Over any run, a booking is sent to its supplier for issue at most once and for cancellation at
most once, never for both; and whenever an issue is sent, the wallet already holds exactly the
payable that the price snapshot of the booking records. -/
theorem issue_cancel_dispatch_safety {t : List (Transition World Event)}
    (h₀ : (machine site).init w) (hr : (machine site).Run w t w') :
    (∀ booking, ((dispatched t).filter
        (fun j => j.task = .newTicket ∧ j.booking = booking)).length ≤ 1 ∧
      ((dispatched t).filter (fun j => j.task = .cancel ∧ j.booking = booking)).length ≤ 1) ∧
    (∀ j ∈ dispatched t, ∀ j' ∈ dispatched t, j.task = .newTicket → j'.task = .cancel →
      j.booking ≠ j'.booking) ∧
    ∀ r ∈ t, ∀ j, r.label = .dispatch j → j.task = .newTicket → Paid r.before.db j := by
  have hs : w'.Sound := reachable_sound ⟨w, t, h₀, hr⟩
  rw [← dispatched_sent h₀ hr]
  refine ⟨fun booking => ⟨hs.issued_once booking, hs.cancelled_once booking⟩, ?_, ?_⟩
  · intro j hj j' hj' htask htask'
    exact hs.never_both hj htask hj' htask'
  · intro r hmem j hlabel htask
    obtain ⟨⟨t', hbefore⟩, hstep⟩ := hr.mem hmem
    have hbeforeSound : r.before.Sound := reachable_sound ⟨w, t', h₀, hbefore⟩
    rw [hlabel] at hstep
    obtain ⟨hwaiting, -⟩ : j ∈ r.before.outbox.waiting ∧ _ := by
      simpa only [machine, World.step, bind_eq_ok, ensure_eq_ok, exists_const, pure_eq_ok]
        using hstep
    exact hbeforeSound.paid (List.mem_append_left _ hwaiting) htask

set_option maxRecDepth 10000 in
/-- A booking that was held, paid for and sent for issue. -/
theorem issue_cancel_dispatch_safety_issued : ∃ w t w', (machine sampleSite).init w ∧
    (machine sampleSite).Run w t w' ∧ (dispatched t).map Job.task = [.book, .newTicket] ∧
    ∀ r ∈ t, ∀ j, r.label = .dispatch j → j.task = .newTicket → Paid r.before.db j := by
  have hsent : ((World.empty ⟨0, 0, 0⟩).drive sampleSite (sampleBooking ++ sampleIssue)).map
      (fun w => w.outbox.sent.map Job.task) = .ok [.book, .newTicket] := by
    decide +kernel
  obtain ⟨w', hdrive, htasks⟩ := map_eq_ok.mp hsent
  have h₀ : (machine sampleSite).init (World.empty ⟨0, 0, 0⟩) := ⟨_, rfl⟩
  obtain ⟨t, hr, -⟩ := run_of_drive (.nil _) hdrive
  rw [dispatched_sent h₀ hr] at htasks
  exact ⟨_, t, w', h₀, hr, htasks, (issue_cancel_dispatch_safety h₀ hr).2.2⟩

end ShaponTravels.Booking
