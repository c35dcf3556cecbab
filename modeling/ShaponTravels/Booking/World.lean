import ShaponTravels.Booking.Cancellation
import ShaponTravels.Library.Outbox
import ShaponTravels.Wallet.History
import ShaponTravels.Wallet.Nonissuance

/-!
# World — every party on one database

Requests, workers, reviews and administrators as one transition system.  A step is one committed
transaction, one supplier call, one set of reads that a later transaction uses, or the death of a
worker or of a request.  A transaction that fails is rolled back and is no step, unless it was to store the
reply of a supplier.
-/

namespace ShaponTravels.Booking

open Library
open Wallet (Draw WalletDb)

/-! ## The state -/

/-- A request that has done its reads and not yet its transaction. -/
inductive Call where
  | issue (c : IssueCall)
  | cancel (c : CancelCall)
  | pnr (c : PnrCall)
  | verify (c : VerifyCall)
  | reconcile (c : ReconcileCall)
  deriving DecidableEq

structure World where
  db : Db
  calls : List Call
  outbox : Outbox Job
  /-- the issues whose evidence was saved by a call that has yet to finalize them -/
  finalizing : List Uuid
  /-- the issues whose call died before it finalized them -/
  interrupted : List Uuid

def World.empty (policy : TierPolicy) : World where
  db :=
    { identities := ⟨[], [], []⟩, clients := [], drafts := [], tierPolicy := policy, connections := [], searches := []
      offers := [], reprices := [], bookings := [], lateOutcomes := [], resolutions := []
      observations := [], reports := [], issues := [], verifications := [], reconciliations := []
      cancellations := [], proposals := [], decisions := [], imports := []
      wallet := .empty }
  calls := []
  outbox := .empty
  finalizing := []
  interrupted := []

/-! ## What the rest of the application does -/

/-- A wallet call that leaves the holds of tickets alone: reservations of other subjects, and
direct postings that are no hold, confirmation or release. -/
def foreignCall (db : WalletDb) : Wallet.Call → Bool
  | .provision .. => true
  | .posting p => (Wallet.TransactionType.ofText? p.type).all fun t => !t.oncePerReservation
  | .reserve r _ => r.kind ≠ "ticket_issue"
  | .settle id .. | .markReconciliation id =>
    db.operations.all fun o => o.id ≠ id || o.subjectKind ≠ .ticketIssue

/-- The writes of modules outside the booking workflow. -/
inductive Outside where
  | identities (i : Identities)
  | clients (rows : List ApiClient)
  | drafts (rows : List HoldDraft)
  | tierPolicy (policy : TierPolicy)
  | connections (rows : List SupplierConnection)
  | searches (rows : List Search)
  | offers (rows : List Offer)
  /-- `reprice.rs`: a new price version -/
  | reprice (r : Reprice)
  /-- `reprice.rs`: the client accepts a price -/
  | accept (price : Uuid) (now : Int)
  | importBooking (s : Wallet.FinancialSubject)
  | report (client booking : Uuid) (body : Value) (response : Option Value) (requested : Int)
      (draw : Draws)
  | linkClient (client account : Uuid)
  | wallet (call : Wallet.Call)

def Outside.run (site : Site) (db : Db) : Outside → Except ApiError Db
  | .identities i => .ok { db with identities := i }
  | .clients rows => .ok { db with clients := rows }
  | .drafts rows => .ok { db with drafts := rows }
  | .tierPolicy policy => .ok { db with tierPolicy := policy }
  | .connections rows => .ok { db with connections := rows }
  | .searches rows => .ok { db with searches := rows }
  | .offers rows => .ok { db with offers := rows }
  | .reprice r => do
    ensure (∀ r' ∈ db.reprices, r'.id ≠ r.id) (.ofDb (.unique "flight_reprices_pkey"))
    return { db with reprices := db.reprices ++ [r] }
  | .accept price now =>
    .ok { db with
      reprices := modify Reprice.id price
        (fun r => { r with acceptedAt := r.acceptedAt.or (some now) }) db.reprices }
  | .importBooking s => do
    ensure (∀ b ∈ db.bookings, b.id ≠ s.id) (.ofDb (.unique "booking_financial_subjects_pkey"))
    return { db with imports := db.imports ++ [s] }
  | .report client booking body response requested draw =>
    saveReport db client booking body response requested draw
  | .linkClient client account => do
    let wallet ← Wallet.linkClient db.wallet client account
    return { db with wallet := wallet }
  | .wallet call => do
    ensure (foreignCall db.wallet call) (.ofDb (.raised "ticket hold"))
    let wallet ← call.run site.pf db.subjects db.wallet
    return { db with wallet := wallet }

/-! ## Steps -/

inductive Event where
  | book (m : Machine) (header : Option String) (req : BookRequest) (creator : Option Creator)
      (draw : Draws)
  | resolve (administrator booking : Uuid) (input : ResolutionInput) (now : Int)
  | readIssue (m : Machine) (header : Option String) (req : PnrRequest)
      (portal : Option Wallet.Ticket.PortalIssue)
  | issue (c : IssueCall) (draw : Draws)
  | readCancel (m : Machine) (header : Option String) (req : PnrRequest)
  | cancel (c : CancelCall) (draw : Draws)
  | readPnr (client booking : Uuid) (actorKind : String) (actorId : Uuid) (now : Int)
  | pnr (c : PnrCall) (body : Value) (now : Int)
  | readVerify (m : Machine) (booking : Uuid)
  | verify (c : VerifyCall) (now : Int)
  | readReconcile (client booking : Uuid) (actorKind : String) (actorId : Uuid) (now : Int)
  | reconcile (c : ReconcileCall) (pnr report : SupplierReply) (draw : Draws)
  /-- a worker calls the supplier -/
  | dispatch (j : Job)
  /-- the supplier's reply reaches the worker, whose transaction commits -/
  | answer (j : Job) (reply : SupplierReply) (draw : Draws)
  /-- the supplier's reply reaches the worker, whose transaction fails: the database refuses it, or gives it no
  connection or lock in time -/
  | answerFails (j : Job) (reply : SupplierReply) (draw : Draws) (served : Bool)
  | finalize (issue : Uuid) (draw : Draw)
  | review (a : Wallet.Nonissuance.Actor) (c : Wallet.Nonissuance.Command) (draw : Draw)
  | outside (o : Outside)
  /-- the process dies: a worker with its job, a request with what it read, a call that still had
  to finalize -/
  | loseJob (j : Job)
  | loseCall (c : Call)
  | loseFinalize (issue : Uuid)

/-- A request ends with a saved row, or goes on. -/
def World.attempt {ρ : Type} (w : World) (db : Db) : Attempt ρ Job → World
  | .replay _ => { w with db := db }
  | .proceed job => { w with db := db, outbox := w.outbox.post job }

def World.prepared {ρ κ : Type} (w : World) (call : κ → Call) : Attempt ρ κ → World
  | .replay _ => w
  | .proceed c => { w with calls := w.calls ++ [call c] }

def World.reviewed {κ : Type} (w : World) (call : κ → Call) : Review κ → World
  | .nothing => w
  | .finalize issue => { w with finalizing := w.finalizing ++ [issue] }
  | .proceed c => { w with calls := w.calls ++ [call c] }

/-- A request moves on to its transaction. -/
def World.take (w : World) (c : Call) : Except ApiError World := do
  ensure (c ∈ w.calls) noRow
  return { w with calls := w.calls.erase c }

/-- The transaction of a worker. -/
def saveAnswer (site : Site) (db : Db) (j : Job) (reply : SupplierReply) (draw : Draws) :
    Except ApiError Db :=
  match j.task with
  | .book => saveHold site db j reply draw.now
  | .bookDirect => saveDirect site db j reply draw
  | .newTicket => saveIssue site db j reply draw.now
  | .cancel => .ok (saveCancel db j reply)

def World.step (site : Site) (w : World) : Event → Except ApiError World
  | .book m header req creator draw => do
    let (attempt, db) ← bookOwned site w.db m header req creator draw
    return w.attempt db attempt
  | .resolve administrator booking input now => do
    let db ← Booking.resolve site w.db administrator booking input now
    return { w with db := db }
  | .readIssue m header req portal => do
    let attempt ← prepareIssue site w.db m header req portal
    return w.prepared .issue attempt
  | .issue c draw => do
    let w ← w.take (.issue c)
    let (attempt, db) ← commitIssue site w.db c draw
    return w.attempt db attempt
  | .readCancel m header req => do
    let attempt ← prepareCancel site w.db m header req
    return w.prepared .cancel attempt
  | .cancel c draw => do
    let w ← w.take (.cancel c)
    let (attempt, db) ← commitCancel site w.db c draw
    return w.attempt db attempt
  | .readPnr client booking actorKind actorId now => do
    let c ← preparePnr site w.db client booking actorKind actorId now
    return { w with calls := w.calls ++ [.pnr c] }
  | .pnr c body now => do
    let w ← w.take (.pnr c)
    return { w with db := savePnr site w.db c body now }
  | .readVerify m booking => do
    let review ← prepareVerify site w.db m booking
    return w.reviewed .verify review
  | .verify c now => do
    let w ← w.take (.verify c)
    return { w with
      db := saveVerification w.db c now
      finalizing := w.finalizing ++ [c.issue] }
  | .readReconcile client booking actorKind actorId now => do
    let review ← prepareReconcile site w.db client booking actorKind actorId now
    return w.reviewed .reconcile review
  | .reconcile c pnr report draw => do
    let w ← w.take (.reconcile c)
    let db ← saveReconciliation site w.db c pnr report draw
    return { w with db := db, finalizing := w.finalizing ++ [c.issue] }
  | .dispatch j => do
    ensure (j ∈ w.outbox.waiting) noRow
    return { w with outbox := w.outbox.send j }
  | .answer j reply draw => do
    ensure (j ∈ w.outbox.inFlight) noRow
    let db ← saveAnswer site w.db j reply draw
    return { w with
      db := db
      outbox := w.outbox.answer j
      finalizing := if j.task = .newTicket then w.finalizing ++ [j.row] else w.finalizing }
  | .answerFails j reply draw served => do
    ensure (j ∈ w.outbox.inFlight) noRow
    ensure (served → (saveAnswer site w.db j reply draw).toOption = none) noRow
    return { w with outbox := w.outbox.lose j }
  | .finalize issue draw => do
    ensure (issue ∈ w.finalizing) noRow
    let db ← Wallet.Ticket.finalize site.pf w.db issue draw
    return { w with db := db, finalizing := w.finalizing.erase issue }
  | .review a c draw => do
    let db ← Wallet.Nonissuance.handle site w.db a c draw
    return { w with db := db }
  | .outside o => do
    let db ← o.run site w.db
    return { w with db := db }
  | .loseJob j => .ok { w with outbox := w.outbox.lose j }
  | .loseCall c => .ok { w with calls := w.calls.erase c }
  | .loseFinalize issue => do
    ensure (issue ∈ w.finalizing) noRow
    return { w with
      finalizing := w.finalizing.erase issue
      interrupted := w.interrupted ++ [issue] }

/-- The system of one process or many on one database. -/
def machine (site : Site) : Library.Machine World Event where
  init w := ∃ policy, w = .empty policy
  step w e w' := w.step site e = .ok w'

end ShaponTravels.Booking
