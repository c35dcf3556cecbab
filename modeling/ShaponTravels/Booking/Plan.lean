import ShaponTravels.Booking.World

/-!
# Plan — what is reserved and what is sent, without any outcome

The abstract model of the desk.  A row counts as it was inserted: states, responses and clocks of
later updates are left out.  What remains changes in ten ways only, and the safety of dispatches is
an invariant of these ten.
-/

namespace ShaponTravels.Booking

open Library
open Wallet (WalletOperation)

/-! ## Rows as they were inserted -/

def FlightBooking.identity (b : FlightBooking) : FlightBooking :=
  { b with
    state := .pending
    originalResponse := none
    publicResponse := none
    pnr := none
    supplierBookingRef := none
    ticketingTimeLimit := none
    errorCode := none
    lastReconciliation := none
    lastReconciliationVerified := false
    reconciledAt := none
    publicRef := none
    updatedAt := b.createdAt }

def TicketIssue.identity (t : TicketIssue) : TicketIssue :=
  { t with
    state := .pending
    originalResponse := none
    publicResponse := none
    updatedAt := t.createdAt }

def Cancellation.identity (c : Cancellation) : Cancellation :=
  { c with
    state := .pending
    originalResponse := none
    publicResponse := none }

def Reprice.identity (r : Reprice) : Reprice := { r with acceptedAt := none }

structure Plan where
  prices : List Reprice
  bookings : List FlightBooking
  issues : List TicketIssue
  cancellations : List Cancellation
  operations : List WalletOperation
  outbox : Outbox Job

def Db.plan (db : Db) (outbox : Outbox Job) : Plan where
  prices := db.reprices.map Reprice.identity
  bookings := db.bookings.map FlightBooking.identity
  issues := db.issues.map TicketIssue.identity
  cancellations := db.cancellations.map Cancellation.identity
  operations := db.wallet.operations.map WalletOperation.identity
  outbox := outbox

def World.plan (w : World) : Plan := w.db.plan w.outbox

/-! ## What a reservation is for -/

/-- The snapshot of a price records the amount of an operation as its payable. -/
def Reprice.Records (r : Reprice) (o : WalletOperation) : Prop :=
  r.currency = o.currency.text ∧ ∃ snapshot text, r.tierPricing = some snapshot ∧
    snapshot.field "payable" = .str text ∧ Wallet.majorToMinor text = .ok o.amount

namespace Plan

/-- `o` is the reservation of the issue `t`: of its booking, and of exactly the payable the price of
the booking records. -/
structure Reserves (p : Plan) (t : TicketIssue) (o : WalletOperation) : Prop where
  kind : o.subjectKind = .ticketIssue
  subject : o.subjectId = t.id
  booking : o.bookingId = some t.bookingId
  payable : ∃ b ∈ p.bookings, b.id = t.bookingId ∧
    ∃ r ∈ p.prices, r.id = b.priceId ∧ r.Records o

/-- The row a job was committed with. -/
def Backs (p : Plan) (j : Job) : Prop :=
  match j.task with
  | .book => ∃ b ∈ p.bookings, b.id = j.row ∧ b.id = j.booking ∧ b.executionMode = .hold
  | .bookDirect => ∃ b ∈ p.bookings, b.id = j.row ∧ b.id = j.booking ∧
      b.executionMode = .direct ∧ b.clientId = j.client
  | .newTicket => ∃ t ∈ p.issues, t.id = j.row ∧ t.bookingId = j.booking ∧ t.walletRequired
  | .cancel => ∃ c ∈ p.cancellations, c.id = j.row ∧ c.bookingId = j.booking

/-- The issue of a booking that is issued at once has the key no request may use. -/
def receiptKey (booking : Uuid) : String := "direct:" ++ booking.text

/-! ## The ten changes -/

inductive Step : Plan → Plan → Prop where
  | same (p : Plan) : Step p p
  | price (p : Plan) (r : Reprice) : (∀ r' ∈ p.prices, r'.id ≠ r.id) →
      Step p { p with prices := p.prices ++ [r] }
  | operation (p : Plan) (o : WalletOperation) : o.subjectKind ≠ .ticketIssue →
      (∀ o' ∈ p.operations, ¬ (o'.subjectKind = o.subjectKind ∧ o'.subjectId = o.subjectId)) →
      Step p { p with operations := p.operations ++ [o] }
  | book (p : Plan) (b : FlightBooking) (j : Job) : (∀ b' ∈ p.bookings, b'.id ≠ b.id) →
      (∀ b' ∈ p.bookings, ¬ (b'.clientId = b.clientId ∧ b'.idempotencyKey = b.idempotencyKey)) →
      (b.executionMode = .direct →
        ∀ b' ∈ p.bookings, ¬ (b'.executionMode = .direct ∧ b'.offerId = b.offerId)) →
      j.task = (if b.executionMode = .direct then .bookDirect else .book) →
      j.row = b.id → j.booking = b.id → j.client = b.clientId →
      Step p { p with bookings := p.bookings ++ [b], outbox := p.outbox.post j }
  | issue (p : Plan) (t : TicketIssue) (o : WalletOperation) (j : Job) :
      (∀ t' ∈ p.issues, t'.id ≠ t.id) → (∀ t' ∈ p.issues, t'.bookingId ≠ t.bookingId) →
      (∀ c ∈ p.cancellations, c.bookingId ≠ t.bookingId) →
      (∃ b ∈ p.bookings, b.id = t.bookingId ∧ b.executionMode = .hold) →
      t.walletRequired → ¬ startsWith t.idempotencyKey "direct:" → p.Reserves t o →
      (∀ o' ∈ p.operations, ¬ (o'.subjectKind = o.subjectKind ∧ o'.subjectId = o.subjectId)) →
      j.task = .newTicket → j.row = t.id → j.booking = t.bookingId →
      Step p { p with
        issues := p.issues ++ [t]
        operations := p.operations ++ [o]
        outbox := p.outbox.post j }
  | cancel (p : Plan) (c : Cancellation) (j : Job) : (∀ c' ∈ p.cancellations, c'.id ≠ c.id) →
      (∀ c' ∈ p.cancellations, c'.bookingId ≠ c.bookingId) →
      (∀ t ∈ p.issues, t.bookingId ≠ c.bookingId) →
      (∃ b ∈ p.bookings, b.id = c.bookingId ∧ b.executionMode = .hold) →
      j.task = .cancel → j.row = c.id → j.booking = c.bookingId →
      Step p { p with cancellations := p.cancellations ++ [c], outbox := p.outbox.post j }
  | send (p : Plan) (j : Job) : j ∈ p.outbox.waiting → Step p { p with outbox := p.outbox.send j }
  | answer (p : Plan) (j : Job) : j ∈ p.outbox.inFlight →
      Step p { p with outbox := p.outbox.answer j }
  | receipt (p : Plan) (j : Job) (t : TicketIssue) : j ∈ p.outbox.inFlight →
      j.task = .bookDirect → (∀ t' ∈ p.issues, t'.id ≠ t.id) →
      (∀ t' ∈ p.issues, t'.bookingId ≠ t.bookingId) →
      (∀ c ∈ p.cancellations, c.bookingId ≠ t.bookingId) → t.bookingId = j.booking →
      t.walletRequired = false → t.idempotencyKey = receiptKey t.bookingId →
      Step p { p with issues := p.issues ++ [t], outbox := p.outbox.answer j }
  | lose (p : Plan) (j : Job) : Step p { p with outbox := p.outbox.lose j }

/-! ## The invariant -/

structure Sound (p : Plan) : Prop where
  prices : KeyUnique Reprice.id p.prices
  bookings : KeyUnique FlightBooking.id p.bookings
  bookingKeys : KeyUnique (fun b : FlightBooking => (b.clientId, b.idempotencyKey)) p.bookings
  directOffers : ∀ b ∈ p.bookings, ∀ b' ∈ p.bookings, b.executionMode = .direct →
    b'.executionMode = .direct → b.offerId = b'.offerId → b = b'
  issues : KeyUnique TicketIssue.id p.issues
  issueBookings : KeyUnique TicketIssue.bookingId p.issues
  issueBooking : ∀ t ∈ p.issues, ∃ b ∈ p.bookings, b.id = t.bookingId ∧
    if t.walletRequired then b.executionMode = .hold ∧ ¬ startsWith t.idempotencyKey "direct:"
    else b.executionMode = .direct ∧ t.idempotencyKey = receiptKey t.bookingId
  cancellations : KeyUnique Cancellation.id p.cancellations
  cancellationBookings : KeyUnique Cancellation.bookingId p.cancellations
  cancellationBooking : ∀ c ∈ p.cancellations, ∃ b ∈ p.bookings, b.id = c.bookingId ∧
    b.executionMode = .hold
  exclusive : ∀ t ∈ p.issues, ∀ c ∈ p.cancellations, t.bookingId ≠ c.bookingId
  subjects : KeyUnique (fun o : WalletOperation => (o.subjectKind, o.subjectId)) p.operations
  reserved : ∀ t ∈ p.issues, t.walletRequired → ∃ o ∈ p.operations, p.Reserves t o
  ticketSubject : ∀ o ∈ p.operations, o.subjectKind = .ticketIssue →
    ∃ t ∈ p.issues, t.id = o.subjectId ∧ t.walletRequired
  once : p.outbox.Once Job.key
  backed : ∀ j ∈ p.outbox.jobs, p.Backs j
  unreceipted : ∀ j ∈ p.outbox.outstanding, j.task = .bookDirect →
    ∀ t ∈ p.issues, t.bookingId ≠ j.booking

variable {p p' : Plan} {j : Job} {t : TicketIssue} {o : WalletOperation}

/-- A plan that has all rows of another backs its jobs and keeps its reservations. -/
structure Grows (p p' : Plan) : Prop where
  prices : p.prices ⊆ p'.prices
  bookings : p.bookings ⊆ p'.bookings
  issues : p.issues ⊆ p'.issues
  cancellations : p.cancellations ⊆ p'.cancellations

theorem Backs.grows (h : p.Backs j) (hg : Grows p p') : p'.Backs j := by
  unfold Backs at h ⊢
  cases htask : j.task with
  | book | bookDirect =>
    rw [htask] at h
    obtain ⟨b, hb, hrest⟩ := h
    exact ⟨b, hg.bookings hb, hrest⟩
  | newTicket =>
    rw [htask] at h
    obtain ⟨t, ht, hrest⟩ := h
    exact ⟨t, hg.issues ht, hrest⟩
  | cancel =>
    rw [htask] at h
    obtain ⟨c, hc, hrest⟩ := h
    exact ⟨c, hg.cancellations hc, hrest⟩

theorem Reserves.grows (h : p.Reserves t o) (hg : Grows p p') : p'.Reserves t o := by
  obtain ⟨b, hb, hid, r, hr, hrest⟩ := h.payable
  exact ⟨h.kind, h.subject, h.booking, b, hg.bookings hb, hid, r, hg.prices hr, hrest⟩

/-- A job of a new row has a key no other job has. -/
theorem Sound.new_key (hs : Sound p)
    (hbook : j.task = .book ∨ j.task = .bookDirect → ∀ b ∈ p.bookings, b.id ≠ j.row)
    (hissue : j.task = .newTicket → ∀ t ∈ p.issues, t.id ≠ j.row)
    (hcancel : j.task = .cancel → ∀ c ∈ p.cancellations, c.id ≠ j.row) :
    ∀ j' ∈ p.outbox.jobs, j'.key ≠ j.key := by
  intro j' hj' hkey
  simp only [Job.key, Prod.mk.injEq] at hkey
  have hback := hs.backed j' hj'
  unfold Backs at hback
  rw [hkey.1] at hback
  cases htask : j.task with
  | book | bookDirect =>
    rw [htask] at hback
    obtain ⟨b, hb, hid, -⟩ := hback
    exact hbook (by simp [htask]) b hb (hid.trans hkey.2)
  | newTicket =>
    rw [htask] at hback
    obtain ⟨t, ht, hid, -⟩ := hback
    exact hissue htask t ht (hid.trans hkey.2)
  | cancel =>
    rw [htask] at hback
    obtain ⟨c, hc, hid, -⟩ := hback
    exact hcancel htask c hc (hid.trans hkey.2)

/-! ## Every change keeps the invariant -/

theorem Sound.price (hs : Sound p) {r : Reprice} (hnew : ∀ r' ∈ p.prices, r'.id ≠ r.id) :
    Sound { p with prices := p.prices ++ [r] } := by
  have hg : Grows p { p with prices := p.prices ++ [r] } :=
    ⟨List.subset_append_left _ _, .refl _, .refl _, .refl _⟩
  exact { hs with
    prices := keyUnique_concat.mpr ⟨hs.prices, hnew⟩
    reserved := fun t ht hrequired => by
      obtain ⟨o, ho, hreserves⟩ := hs.reserved t ht hrequired
      exact ⟨o, ho, hreserves.grows hg⟩
    backed := fun j hj => (hs.backed j hj).grows hg }

theorem Sound.operation (hs : Sound p) (hkind : o.subjectKind ≠ .ticketIssue)
    (hnew : ∀ o' ∈ p.operations, ¬ (o'.subjectKind = o.subjectKind ∧ o'.subjectId = o.subjectId)) :
    Sound { p with operations := p.operations ++ [o] } := by
  have hg : Grows p { p with operations := p.operations ++ [o] } :=
    ⟨.refl _, .refl _, .refl _, .refl _⟩
  exact { hs with
    subjects := keyUnique_concat.mpr ⟨hs.subjects, by simpa using hnew⟩
    reserved := fun t ht hrequired => by
      obtain ⟨o', ho', hreserves⟩ := hs.reserved t ht hrequired
      exact ⟨o', List.mem_append_left _ ho', hreserves.grows hg⟩
    ticketSubject := fun o' ho' hticket => by
      rcases List.mem_append.mp ho' with ho' | ho'
      · exact hs.ticketSubject o' ho' hticket
      · rw [List.mem_singleton.mp ho'] at hticket
        exact absurd hticket hkind
    backed := fun j hj => (hs.backed j hj).grows hg }

theorem Sound.book (hs : Sound p) {b : FlightBooking} (hid : ∀ b' ∈ p.bookings, b'.id ≠ b.id)
    (hkey : ∀ b' ∈ p.bookings,
      ¬ (b'.clientId = b.clientId ∧ b'.idempotencyKey = b.idempotencyKey))
    (hoffer : b.executionMode = .direct →
      ∀ b' ∈ p.bookings, ¬ (b'.executionMode = .direct ∧ b'.offerId = b.offerId))
    (htask : j.task = if b.executionMode = .direct then .bookDirect else .book)
    (hrow : j.row = b.id) (hbooking : j.booking = b.id) (hclient : j.client = b.clientId) :
    Sound { p with bookings := p.bookings ++ [b], outbox := p.outbox.post j } := by
  have hg : Grows p { p with bookings := p.bookings ++ [b], outbox := p.outbox.post j } :=
    ⟨.refl _, List.subset_append_left _ _, .refl _, .refl _⟩
  have hmem : b ∈ p.bookings ++ [b] := by simp
  have hnotTicket : j.task ≠ .newTicket ∧ j.task ≠ .cancel := by
    rw [htask]
    split <;> decide
  have hbacks : Backs { p with bookings := p.bookings ++ [b], outbox := p.outbox.post j } j := by
    unfold Backs
    rw [htask]
    cases hmode : b.executionMode with
    | hold => exact ⟨b, hmem, hrow.symm, hbooking.symm, hmode⟩
    | direct => exact ⟨b, hmem, hrow.symm, hbooking.symm, hmode, hclient.symm⟩
  exact { hs with
    bookings := keyUnique_concat.mpr ⟨hs.bookings, hid⟩
    bookingKeys := keyUnique_concat.mpr ⟨hs.bookingKeys, by simpa using hkey⟩
    directOffers := fun b₁ hb₁ b₂ hb₂ hmode₁ hmode₂ hsame => by
      rw [List.mem_append, List.mem_singleton] at hb₁ hb₂
      rcases hb₁ with hb₁ | rfl
      · rcases hb₂ with hb₂ | rfl
        · exact hs.directOffers b₁ hb₁ b₂ hb₂ hmode₁ hmode₂ hsame
        · exact absurd ⟨hmode₁, hsame⟩ (hoffer hmode₂ b₁ hb₁)
      · rcases hb₂ with hb₂ | rfl
        · exact absurd ⟨hmode₂, hsame.symm⟩ (hoffer hmode₁ b₂ hb₂)
        · rfl
    issueBooking := fun t ht => by
      obtain ⟨b', hb', hrest⟩ := hs.issueBooking t ht
      exact ⟨b', List.mem_append_left _ hb', hrest⟩
    cancellationBooking := fun c hc => by
      obtain ⟨b', hb', hrest⟩ := hs.cancellationBooking c hc
      exact ⟨b', List.mem_append_left _ hb', hrest⟩
    reserved := fun t ht hrequired => by
      obtain ⟨o, ho, hreserves⟩ := hs.reserved t ht hrequired
      exact ⟨o, ho, hreserves.grows hg⟩
    once := hs.once.post (hs.new_key (fun _ b' hb' => hrow ▸ hid b' hb')
      (fun h => absurd h hnotTicket.1) (fun h => absurd h hnotTicket.2))
    backed := fun j' hj' => by
      rcases Outbox.mem_jobs_post.mp hj' with hj' | rfl
      · exact (hs.backed j' hj').grows hg
      · exact hbacks
    unreceipted := fun j' hj' hdirect t ht hsame => by
      rcases Outbox.mem_outstanding_post.mp hj' with hj' | rfl
      · exact hs.unreceipted j' hj' hdirect t ht hsame
      · -- the booking is new, so no issue can be for it
        obtain ⟨b', hb', hid', -⟩ := hs.issueBooking t ht
        exact hid b' hb' (hid'.trans (hsame.trans hbooking)) }

theorem Sound.issue (hs : Sound p) (hid : ∀ t' ∈ p.issues, t'.id ≠ t.id)
    (hbooking : ∀ t' ∈ p.issues, t'.bookingId ≠ t.bookingId)
    (hcancel : ∀ c ∈ p.cancellations, c.bookingId ≠ t.bookingId)
    (hhold : ∃ b ∈ p.bookings, b.id = t.bookingId ∧ b.executionMode = .hold)
    (hrequired : t.walletRequired) (hkey : ¬ startsWith t.idempotencyKey "direct:")
    (hreserves : p.Reserves t o)
    (hsubject : ∀ o' ∈ p.operations,
      ¬ (o'.subjectKind = o.subjectKind ∧ o'.subjectId = o.subjectId))
    (htask : j.task = .newTicket) (hrow : j.row = t.id) (hjob : j.booking = t.bookingId) :
    Sound { p with
      issues := p.issues ++ [t]
      operations := p.operations ++ [o]
      outbox := p.outbox.post j } := by
  have hg : Grows p { p with
      issues := p.issues ++ [t]
      operations := p.operations ++ [o]
      outbox := p.outbox.post j } :=
    ⟨.refl _, .refl _, List.subset_append_left _ _, .refl _⟩
  exact { hs with
    issues := keyUnique_concat.mpr ⟨hs.issues, hid⟩
    issueBookings := keyUnique_concat.mpr ⟨hs.issueBookings, hbooking⟩
    issueBooking := fun t' ht' => by
      rcases List.mem_append.mp ht' with ht' | ht'
      · exact hs.issueBooking t' ht'
      · obtain ⟨b, hb, hb', hmode⟩ := hhold
        rw [List.mem_singleton.mp ht']
        exact ⟨b, hb, hb', by simp [hrequired, hmode, hkey]⟩
    exclusive := fun t' ht' c hc => by
      rcases List.mem_append.mp ht' with ht' | ht'
      · exact hs.exclusive t' ht' c hc
      · rw [List.mem_singleton.mp ht']
        exact (hcancel c hc).symm
    subjects := keyUnique_concat.mpr ⟨hs.subjects, by simpa using hsubject⟩
    reserved := fun t' ht' hrequired' => by
      rcases List.mem_append.mp ht' with ht' | ht'
      · obtain ⟨o', ho', hreserves'⟩ := hs.reserved t' ht' hrequired'
        exact ⟨o', List.mem_append_left _ ho', hreserves'.grows hg⟩
      · rw [List.mem_singleton.mp ht']
        exact ⟨o, by simp, hreserves.grows hg⟩
    ticketSubject := fun o' ho' hticket => by
      rcases List.mem_append.mp ho' with ho' | ho'
      · obtain ⟨t', ht', hrest⟩ := hs.ticketSubject o' ho' hticket
        exact ⟨t', List.mem_append_left _ ht', hrest⟩
      · rw [List.mem_singleton.mp ho']
        exact ⟨t, by simp, hreserves.subject.symm, hrequired⟩
    once := hs.once.post (hs.new_key (fun h => by simp [htask] at h)
      (fun _ t' ht' => hrow ▸ hid t' ht') (fun h => by simp [htask] at h))
    backed := fun j' hj' => by
      rcases Outbox.mem_jobs_post.mp hj' with hj' | rfl
      · exact (hs.backed j' hj').grows hg
      · unfold Backs
        rw [htask]
        exact ⟨t, by simp, hrow.symm, hjob.symm, hrequired⟩
    unreceipted := fun j' hj' hdirect t' ht' hsame => by
      rcases Outbox.mem_outstanding_post.mp hj' with hj' | rfl
      · rcases List.mem_append.mp ht' with ht' | ht'
        · exact hs.unreceipted j' hj' hdirect t' ht' hsame
        · -- the booking of an issue request is held, the one of a direct job is not
          rw [List.mem_singleton.mp ht'] at hsame
          have hback := hs.backed j' (hs.once.mem_jobs_of_outstanding hj')
          unfold Backs at hback
          rw [hdirect] at hback
          obtain ⟨b', hb', -, hid', hmode', -⟩ := hback
          obtain ⟨b, hb, hb'', hmode⟩ := hhold
          rw [hs.bookings.eq_of_key hb hb' (hb''.trans (hsame.trans hid'.symm)), hmode'] at hmode
          cases hmode
      · rw [htask] at hdirect
        cases hdirect }

theorem Sound.cancel (hs : Sound p) {c : Cancellation}
    (hid : ∀ c' ∈ p.cancellations, c'.id ≠ c.id)
    (hbooking : ∀ c' ∈ p.cancellations, c'.bookingId ≠ c.bookingId)
    (hissue : ∀ t ∈ p.issues, t.bookingId ≠ c.bookingId)
    (hhold : ∃ b ∈ p.bookings, b.id = c.bookingId ∧ b.executionMode = .hold)
    (htask : j.task = .cancel) (hrow : j.row = c.id) (hjob : j.booking = c.bookingId) :
    Sound { p with cancellations := p.cancellations ++ [c], outbox := p.outbox.post j } := by
  have hg : Grows p { p with
      cancellations := p.cancellations ++ [c], outbox := p.outbox.post j } :=
    ⟨.refl _, .refl _, .refl _, List.subset_append_left _ _⟩
  exact { hs with
    cancellations := keyUnique_concat.mpr ⟨hs.cancellations, hid⟩
    cancellationBookings := keyUnique_concat.mpr ⟨hs.cancellationBookings, hbooking⟩
    cancellationBooking := fun c' hc' => by
      rcases List.mem_append.mp hc' with hc' | hc'
      · exact hs.cancellationBooking c' hc'
      · rw [List.mem_singleton.mp hc']
        exact hhold
    exclusive := fun t ht c' hc' => by
      rcases List.mem_append.mp hc' with hc' | hc'
      · exact hs.exclusive t ht c' hc'
      · rw [List.mem_singleton.mp hc']
        exact hissue t ht
    reserved := fun t ht hrequired => by
      obtain ⟨o, ho, hreserves⟩ := hs.reserved t ht hrequired
      exact ⟨o, ho, hreserves.grows hg⟩
    once := hs.once.post (hs.new_key (fun h => by simp [htask] at h)
      (fun h => by simp [htask] at h) (fun _ c' hc' => hrow ▸ hid c' hc'))
    backed := fun j' hj' => by
      rcases Outbox.mem_jobs_post.mp hj' with hj' | rfl
      · exact (hs.backed j' hj').grows hg
      · unfold Backs
        rw [htask]
        exact ⟨c, by simp, hrow.symm, hjob.symm⟩
    unreceipted := fun j' hj' hdirect t ht hsame => by
      rcases Outbox.mem_outstanding_post.mp hj' with hj' | rfl
      · exact hs.unreceipted j' hj' hdirect t ht hsame
      · rw [htask] at hdirect
        cases hdirect }

/-- Jobs move inside the outbox or leave it. -/
theorem Sound.outbox (hs : Sound p) {o' : Outbox Job} (honce : o'.Once Job.key)
    (hjobs : ∀ j ∈ o'.jobs, j ∈ p.outbox.jobs)
    (houtstanding : ∀ j ∈ o'.outstanding, j ∈ p.outbox.outstanding) :
    Sound { p with outbox := o' } := by
  have hg : Grows p { p with outbox := o' } := ⟨.refl _, .refl _, .refl _, .refl _⟩
  exact { hs with
    reserved := fun t ht hrequired => by
      obtain ⟨o, ho, hreserves⟩ := hs.reserved t ht hrequired
      exact ⟨o, ho, hreserves.grows hg⟩
    once := honce
    backed := fun j hj => (hs.backed j (hjobs j hj)).grows hg
    unreceipted := fun j hj => hs.unreceipted j (houtstanding j hj) }

theorem Sound.receipt (hs : Sound p) (hj : j ∈ p.outbox.inFlight) (htask : j.task = .bookDirect)
    (hid : ∀ t' ∈ p.issues, t'.id ≠ t.id)
    (hbooking : ∀ t' ∈ p.issues, t'.bookingId ≠ t.bookingId)
    (hcancel : ∀ c ∈ p.cancellations, c.bookingId ≠ t.bookingId) (hjob : t.bookingId = j.booking)
    (hrequired : t.walletRequired = false) (hkey : t.idempotencyKey = receiptKey t.bookingId) :
    Sound { p with issues := p.issues ++ [t], outbox := p.outbox.answer j } := by
  have hg : Grows p { p with issues := p.issues ++ [t], outbox := p.outbox.answer j } :=
    ⟨.refl _, .refl _, List.subset_append_left _ _, .refl _⟩
  have hbacks := hs.backed j
    (hs.once.mem_jobs_of_outstanding (List.mem_append_right _ hj))
  unfold Backs at hbacks
  rw [htask] at hbacks
  obtain ⟨b, hb, hrow, hb', hmode, -⟩ := hbacks
  exact { hs with
    issues := keyUnique_concat.mpr ⟨hs.issues, hid⟩
    issueBookings := keyUnique_concat.mpr ⟨hs.issueBookings, hbooking⟩
    issueBooking := fun t' ht' => by
      rcases List.mem_append.mp ht' with ht' | ht'
      · exact hs.issueBooking t' ht'
      · rw [List.mem_singleton.mp ht']
        exact ⟨b, hb, hb'.trans hjob.symm, by simp [hrequired, hmode, hkey]⟩
    exclusive := fun t' ht' c hc => by
      rcases List.mem_append.mp ht' with ht' | ht'
      · exact hs.exclusive t' ht' c hc
      · rw [List.mem_singleton.mp ht']
        exact (hcancel c hc).symm
    reserved := fun t' ht' hrequired' => by
      rcases List.mem_append.mp ht' with ht' | ht'
      · obtain ⟨o', ho', hreserves'⟩ := hs.reserved t' ht' hrequired'
        exact ⟨o', ho', hreserves'.grows hg⟩
      · rw [List.mem_singleton.mp ht', hrequired] at hrequired'
        cases hrequired'
    ticketSubject := fun o' ho' hticket => by
      obtain ⟨t', ht', hrest⟩ := hs.ticketSubject o' ho' hticket
      exact ⟨t', List.mem_append_left _ ht', hrest⟩
    once := hs.once.answer
    backed := fun j' hj' => (hs.backed j' hj').grows hg
    unreceipted := fun j' hj' hdirect t' ht' hsame => by
      rcases List.mem_append.mp ht' with ht' | ht'
      · exact hs.unreceipted j' (Outbox.outstanding_answer_sublist.subset hj') hdirect t' ht' hsame
      · -- another direct job of this booking would be backed by the same row
        rw [List.mem_singleton.mp ht', hjob] at hsame
        have hj'' := Outbox.outstanding_answer_sublist.subset hj'
        have hback := hs.backed j' (hs.once.mem_jobs_of_outstanding hj'')
        unfold Backs at hback
        rw [hdirect] at hback
        obtain ⟨b', hb'', hrow', hbooking', -⟩ := hback
        apply hs.once.answered hj hj'
        simp only [Job.key, hdirect, htask, Prod.mk.injEq, true_and]
        rw [← hrow, ← hrow', hb', hbooking', hsame] }

theorem Sound.step (hs : Sound p) (h : Step p p') : Sound p' := by
  cases h with
  | same => exact hs
  | price r hnew => exact hs.price hnew
  | operation o hkind hnew => exact hs.operation hkind hnew
  | book b j hid hkey hoffer htask hrow hbooking hclient =>
    exact hs.book hid hkey hoffer htask hrow hbooking hclient
  | issue t o j hid hbooking hcancel hhold hrequired hkey hreserves hsubject htask hrow hjob =>
    exact hs.issue hid hbooking hcancel hhold hrequired hkey hreserves hsubject htask hrow hjob
  | cancel c j hid hbooking hissue hhold htask hrow hjob =>
    exact hs.cancel hid hbooking hissue hhold htask hrow hjob
  | send j hj =>
    exact hs.outbox (hs.once.send hj) (fun _ h => (Outbox.jobs_send_perm hj).subset h)
      (fun _ h => (Outbox.outstanding_send_perm hj).subset h)
  | answer j hj =>
    exact hs.outbox hs.once.answer (fun _ h => h)
      (fun _ h => Outbox.outstanding_answer_sublist.subset h)
  | receipt j t hj htask hid hbooking hcancel hjob hrequired hkey =>
    exact hs.receipt hj htask hid hbooking hcancel hjob hrequired hkey
  | lose j =>
    exact hs.outbox hs.once.lose (fun _ h => Outbox.jobs_lose_sublist.subset h)
      (fun _ h => Outbox.outstanding_lose_sublist.subset h)

end Plan

end ShaponTravels.Booking
