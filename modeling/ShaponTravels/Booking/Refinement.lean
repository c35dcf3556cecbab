import ShaponTravels.Booking.Plan
import ShaponTravels.Booking.Transactions

/-!
# Refinement — every step of the world is a change of the plan

Outcomes, evidence and settlements rewrite columns the plan leaves out; the transactions that
reserve something are the changes the plan knows.
-/

namespace ShaponTravels.Booking

open Library
open Wallet (Faithful Advanced WalletDb WalletOperation)

variable {site : Site} {db db' : Db} {w w' : World} {e : Event} {j : Job} {reply : SupplierReply}
  {draw : Draws} {outbox : Outbox Job}

/-! ## What the plan does not see -/

@[simp] theorem plan_logged (events : List Wallet.AuditEvent) :
    (db.logged events).plan outbox = db.plan outbox := rfl

/-- A rewrite of bookings that keeps what the plan has of them. -/
theorem plan_bookings {f : FlightBooking → FlightBooking} {booking : Uuid}
    (hbookings : db'.bookings = modify FlightBooking.id booking f db.bookings)
    (hf : ∀ b, (f b).identity = b.identity)
    (hprices : db'.reprices = db.reprices) (hissues : db'.issues = db.issues)
    (hcancellations : db'.cancellations = db.cancellations)
    (hoperations : db'.wallet.operations = db.wallet.operations) :
    db'.plan outbox = db.plan outbox := by
  simp only [Db.plan, hbookings, hprices, hissues, hcancellations, hoperations, map_modify hf]

theorem plan_wallet {wallet : WalletDb} (h : wallet.identities = db.wallet.identities) :
    ({ db with wallet := wallet } : Db).plan outbox = db.plan outbox := by
  simp only [WalletDb.identities] at h
  simp only [Db.plan, h]

theorem plan_insertVerification (v : TicketVerification) :
    (insertVerification db v).plan outbox = db.plan outbox := by
  unfold insertVerification
  split
  · rfl
  · rfl

theorem plan_recordOutcome {booking : Uuid} {response : Option Value} {now : Int}
    {outcome late : FlightBooking → FlightBooking} (houtcome : ∀ b, (outcome b).identity = b.identity)
    (hlate : ∀ b, (late b).identity = b.identity) :
    (recordOutcome db booking response now outcome late).plan outbox = db.plan outbox := by
  unfold recordOutcome
  split
  · refine plan_bookings rfl (fun b => ?_) rfl rfl rfl rfl
    split
    · exact houtcome b
    · rfl
  · exact plan_bookings rfl (fun b => hlate b) rfl rfl rfl rfl

theorem plan_resolve {administrator booking : Uuid} {input : ResolutionInput} {now : Int}
    (h : resolve site db administrator booking input now = .ok db') :
    db'.plan outbox = db.plan outbox := by
  obtain ⟨b, response, resolutions, events, -, -, rfl⟩ := resolve_ok h
  exact plan_bookings rfl (fun _ => rfl) rfl rfl rfl rfl

theorem plan_saveHold {now : Int} (h : saveHold site db j reply now = .ok db') :
    db'.plan outbox = db.plan outbox := by
  obtain ⟨-, events, rfl⟩ := saveHold_ok h
  exact plan_recordOutcome (fun _ => rfl) (fun _ => rfl)

theorem plan_saveIssue {now : Int} (h : saveIssue site db j reply now = .ok db') :
    db'.plan outbox = db.plan outbox := by
  obtain ⟨events, rfl⟩ := saveIssue_ok h
  have hidentity : ∀ t, (issueOutcome site j reply now t).identity = t.identity := by
    intro t
    unfold issueOutcome
    split
    · rfl
    · rfl
  rw [plan_logged]
  simp only [Db.plan, map_modify hidentity]

theorem plan_saveCancel : (saveCancel db j reply).plan outbox = db.plan outbox := by
  simp only [saveCancel, Db.audit, Db.plan]
  congr 1
  refine map_modify (fun c => ?_) _
  split
  · rfl
  · rfl

theorem plan_savePnr (c : PnrCall) (body : Value) (now : Int) :
    (savePnr site db c body now).plan outbox = db.plan outbox := by
  obtain ⟨observations, events, hsaved⟩ := savePnr_logged site db c body now
  rw [hsaved]
  refine plan_bookings rfl (fun b => ?_) rfl rfl rfl rfl
  unfold pnrObserved
  split
  · rfl
  · rfl

theorem plan_saveVerification (c : VerifyCall) (now : Int) :
    (saveVerification db c now).plan outbox = db.plan outbox := by
  obtain ⟨events, hsaved⟩ := saveVerification_logged db c now
  rw [hsaved, plan_logged, plan_insertVerification]

theorem plan_saveReconciliation {c : ReconcileCall} {pnr report : SupplierReply}
    (h : saveReconciliation site db c pnr report draw = .ok db') :
    db'.plan outbox = db.plan outbox := by
  obtain ⟨rows, verification, events, rfl⟩ := saveReconciliation_ok h
  cases verification with
  | none => rfl
  | some response =>
    rw [plan_logged, plan_insertVerification]
    rfl

theorem plan_finalize {issue : Uuid} {draw : Wallet.Draw} (hf : Faithful db.wallet)
    (h : Wallet.Ticket.finalize site.pf db issue draw = .ok db') :
    db'.plan outbox = db.plan outbox := by
  obtain ⟨t, -, ⟨-, rfl⟩ | ⟨-, o, -, ⟨-, hdb⟩ | ⟨-, -, o', wallet, hsettle, hdb⟩ |
    ⟨-, -, hdb⟩⟩⟩ := finalize_ok h
  · rfl
  · rw [hdb]
    split
    · refine plan_wallet ?_
      unfold Wallet.Ticket.recordContradiction
      split
      · rfl
      · rfl
    · rfl
  · rw [hdb]
    exact plan_wallet (Wallet.settle_identities hf.toSound hsettle)
  · rw [hdb]
    exact plan_wallet (Wallet.markReconciliation_identities _ _)

theorem plan_handle {a : Wallet.Nonissuance.Actor} {c : Wallet.Nonissuance.Command}
    {draw : Wallet.Draw} (hf : Faithful db.wallet)
    (h : Wallet.Nonissuance.handle site db a c draw = .ok db') :
    db'.plan outbox = db.plan outbox := by
  simp only [Wallet.Nonissuance.handle, bind_eq_ok] at h
  obtain ⟨-, -, -, -, h⟩ := h
  cases c with
  | propose id issue snapshotHash evidence =>
    rcases propose_ok h with rfl | ⟨p, hp⟩
    · rfl
    · obtain ⟨events, rfl⟩ := hp.done
      rfl
  | decide proposal decision evidenceSha256 remarks =>
    rcases decide_ok h with rfl | ⟨p, t, d, settled, -, -, hd⟩
    · rfl
    · obtain ⟨events, rfl⟩ := hd.done
      have hsettled : settled.plan outbox = db.plan outbox := by
        cases happroved : d.approved with
        | false => rw [hd.rejection happroved]
        | true =>
          obtain ⟨view, o, wallet, -, -, -, hsettle, rfl⟩ := hd.approval happroved
          exact plan_wallet (Wallet.settle_identities hf.toSound hsettle)
      exact hsettled

/-! ## Calls of the rest of the application -/

/-- A call that leaves ticket holds alone reserves nothing, or one operation of another subject. -/
theorem foreignCall_identities {call : Wallet.Call} {wallet wallet' : WalletDb}
    {subjects : List Wallet.FinancialSubject} (hf : Faithful wallet)
    (hforeign : foreignCall wallet call = true) (h : call.run site.pf subjects wallet = .ok wallet') :
    wallet'.identities = wallet.identities ∨
      ∃ o : WalletOperation, o.subjectKind ≠ .ticketIssue ∧
        (∀ o' ∈ wallet.operations, ¬ (o'.subjectKind = o.subjectKind ∧ o'.subjectId = o.subjectId)) ∧
        wallet'.operations = wallet.operations ++ [o] ∧ o.identity = o := by
  cases call with
  | provision owner currency display ownerId accountId =>
    obtain ⟨⟨account, db₁⟩, hcall, rfl⟩ := map_eq_ok.mp h
    exact .inl (by rw [WalletDb.identities, (Wallet.provision_operations hcall).1]; rfl)
  | posting p =>
    obtain ⟨⟨entry, db₁⟩, hcall, rfl⟩ := map_eq_ok.mp h
    rw [mapError_eq_ok] at hcall
    exact .inl (Wallet.posting_identities hcall)
  | settle id capture actor role draw =>
    obtain ⟨⟨o, db₁⟩, hcall, rfl⟩ := map_eq_ok.mp h
    exact .inl (Wallet.settle_identities hf.toSound hcall)
  | markReconciliation id =>
    cases h
    exact .inl (Wallet.markReconciliation_identities _ _)
  | reserve r draw =>
    obtain ⟨⟨o, db₁⟩, hcall, rfl⟩ := map_eq_ok.mp h
    obtain ⟨kind, c, hkind, -, -, ⟨rfl, -⟩ | ⟨-, hnew, hoperations, -⟩⟩ :=
      Wallet.reserve_operations hf.keyed hcall
    · exact .inl rfl
    · refine .inr ⟨_, ?_, hnew, hoperations, rfl⟩
      show kind ≠ .ticketIssue
      rintro rfl
      have hticket : r.kind = "ticket_issue" := Wallet.SubjectKind.ofText?_eq_some.mp hkind
      simp [foreignCall, hticket] at hforeign

/-- The writes of other modules add a price, an operation of another subject, or nothing. -/
theorem outside_refines {o : Outside} (hf : Faithful db.wallet) (h : o.run site db = .ok db') :
    Plan.Step (db.plan outbox) (db'.plan outbox) := by
  cases o with
  | clients rows | identities rows | drafts rows | tierPolicy policy | connections rows | searches rows
  | offers rows =>
    cases h
    exact .same _
  | reprice r =>
    simp only [Outside.run, bind_eq_ok, ensure_eq_ok, exists_const, pure_eq_ok] at h
    obtain ⟨hnew, rfl⟩ := h
    have hplan : ({ db with reprices := db.reprices ++ [r] } : Db).plan outbox =
        { db.plan outbox with prices := (db.plan outbox).prices ++ [r.identity] } := by
      simp [Db.plan]
    rw [hplan]
    refine .price _ _ ?_
    intro r' hr'
    obtain ⟨r₀, hr₀, rfl⟩ := List.mem_map.mp hr'
    exact hnew r₀ hr₀
  | accept price now =>
    cases h
    have hidentity : ∀ r : Reprice,
        ({ r with acceptedAt := r.acceptedAt.or (some now) } : Reprice).identity = r.identity :=
      fun _ => rfl
    have hplan : ({ db with
        reprices := modify Reprice.id price
          (fun r => { r with acceptedAt := r.acceptedAt.or (some now) }) db.reprices } : Db).plan
            outbox = db.plan outbox := by
      simp only [Db.plan, map_modify hidentity]
    rw [hplan]
    exact .same _
  | importBooking s =>
    simp only [Outside.run, bind_eq_ok, ensure_eq_ok, exists_const, pure_eq_ok] at h
    obtain ⟨-, rfl⟩ := h
    exact .same _
  | report client booking body response requested draw =>
    obtain ⟨reports, events, rfl⟩ := saveReport_ok h
    exact .same _
  | linkClient client account =>
    simp only [Outside.run, bind_eq_ok, pure_eq_ok] at h
    obtain ⟨wallet, hlink, rfl⟩ := h
    obtain ⟨links, rfl⟩ := Wallet.linkClient_ok hlink
    exact .same _
  | wallet call =>
    simp only [Outside.run, bind_eq_ok, ensure_eq_ok, exists_const, pure_eq_ok] at h
    obtain ⟨hforeign, wallet, hcall, rfl⟩ := h
    rcases foreignCall_identities hf hforeign hcall with hsame | ⟨o, hkind, hnew, hadded, hidentity⟩
    · rw [plan_wallet hsame]
      exact .same _
    · have hplan : ({ db with wallet := wallet } : Db).plan outbox =
          { db.plan outbox with operations := (db.plan outbox).operations ++ [o] } := by
        simp [Db.plan, hadded, hidentity]
      rw [hplan]
      refine .operation _ _ hkind ?_
      intro o' ho'
      obtain ⟨o₀, ho₀, rfl⟩ := List.mem_map.mp ho'
      exact hnew o₀ ho₀

/-! ## Reservations -/

theorem book_refines {m : Machine} {req : BookRequest} {creator : Option Creator} {q : Quote}
    {key : String} {hash : Digest} {db₁ : Db} {events : List Wallet.AuditEvent}
    (h : Inserted db (newBooking m req creator q key hash draw) db₁) :
    Plan.Step (db.plan outbox) ((db₁.logged events).plan
      (outbox.post ((newBooking m req creator q key hash draw).job q))) := by
  have hplan : (db₁.logged events).plan
      (outbox.post ((newBooking m req creator q key hash draw).job q)) =
        { db.plan outbox with
          bookings := (db.plan outbox).bookings ++ [newBooking m req creator q key hash draw]
          outbox := (db.plan outbox).outbox.post
            ((newBooking m req creator q key hash draw).job q) } := by
    rw [plan_logged, h.rows]
    simp only [Db.plan, List.map_append]
    rfl
  rw [hplan]
  refine .book _ _ _ ?_ ?_ ?_ rfl rfl rfl rfl
  · intro b' hb'
    obtain ⟨b, hb, rfl⟩ := List.mem_map.mp hb'
    exact h.id b hb
  · intro b' hb'
    obtain ⟨b, hb, rfl⟩ := List.mem_map.mp hb'
    exact h.key b hb
  · intro hdirect b' hb'
    obtain ⟨b, hb, rfl⟩ := List.mem_map.mp hb'
    exact h.offer hdirect b hb

theorem issue_refines {c : IssueCall} {t : TicketIssue} (hs : (db.plan outbox).Sound)
    (hf : Faithful db.wallet) (hkey : ¬ startsWith c.key "direct:")
    (h : Issued site db c draw t db') :
    Plan.Step (db.plan outbox) (db'.plan (outbox.post (c.job draw.id))) := by
  obtain ⟨preflight, rfl⟩ := h.row
  obtain ⟨b, hb, hbid, -, hmode⟩ := h.booking
  obtain ⟨db₁, db₂, events, hinserted, hreserved, -, rfl⟩ := h.done
  obtain ⟨b', hb', hbid', -, r, hr, hrid, a, wallet, o, payable, hpayable, hreserve, rfl⟩ :=
    hreserved.payable
  have hrows := hinserted.rows
  subst hrows
  obtain ⟨kind, cur, hkind, hcur, -, hcases⟩ := Wallet.reserve_operations hf.keyed hreserve
  have hticket : kind = .ticketIssue := (Option.some.inj hkind).symm
  subst hticket
  rcases hcases with ⟨-, hmem, hsame, hsubject⟩ | ⟨-, hnew, hoperations, -⟩
  · -- an operation of the new issue would belong to an issue with its identifier
    obtain ⟨t', ht', hid, -⟩ := hs.ticketSubject o.identity (List.mem_map_of_mem hmem) hsame
    obtain ⟨t₀, ht₀, rfl⟩ := List.mem_map.mp ht'
    exact absurd (hid.trans hsubject) (hinserted.id t₀ ht₀)
  · obtain ⟨snapshot, text, hsnapshot, htext, hminor⟩ := acceptedPayable_ok hpayable
    let row := (Wallet.Ticket.reservation draw.id c.booking c.client c.portal draw.operation a
      payable r.currency).row .ticketIssue cur ((Wallet.Ticket.reservation draw.id c.booking c.client
        c.portal draw.operation a payable r.currency).hash site.pf)
    have hplan : (Db.logged { db with
          issues := db.issues ++ [c.row preflight draw], wallet := wallet } events).plan
        (outbox.post (c.job draw.id)) =
          { db.plan outbox with
            issues := (db.plan outbox).issues ++ [c.row preflight draw]
            operations := (db.plan outbox).operations ++ [row]
            outbox := (db.plan outbox).outbox.post (c.job draw.id) } := by
      rw [plan_logged]
      simp only [Db.plan, hoperations, List.map_append]
      rfl
    show Plan.Step _ ((Db.logged { db with
      issues := db.issues ++ [c.row preflight draw], wallet := wallet } events).plan _)
    rw [hplan]
    refine .issue _ _ _ _ ?_ ?_ ?_ ⟨b.identity, List.mem_map_of_mem hb, hbid, hmode⟩ rfl hkey
      ⟨rfl, rfl, rfl, b'.identity, List.mem_map_of_mem hb', hbid', r.identity,
        List.mem_map_of_mem hr, hrid, hcur, snapshot, text, hsnapshot, htext, hminor⟩ ?_ rfl rfl rfl
    · intro t' ht'
      obtain ⟨t₀, ht₀, rfl⟩ := List.mem_map.mp ht'
      exact hinserted.id t₀ ht₀
    · intro t' ht'
      obtain ⟨t₀, ht₀, rfl⟩ := List.mem_map.mp ht'
      exact hinserted.booking t₀ ht₀
    · intro c' hc'
      obtain ⟨c₀, hc₀, rfl⟩ := List.mem_map.mp hc'
      exact hinserted.cancellation c₀ hc₀
    · intro o' ho'
      obtain ⟨o₀, ho₀, rfl⟩ := List.mem_map.mp ho'
      exact hnew o₀ ho₀

theorem cancel_refines {c : CancelCall} {x : Cancellation} (h : CancelReserved db c draw x db') :
    Plan.Step (db.plan outbox) (db'.plan (outbox.post (c.job draw.id))) := by
  obtain ⟨preflight, rfl⟩ := h.row
  obtain ⟨b, hb, hbid, -, hmode⟩ := h.booking
  obtain ⟨events, rfl⟩ := h.done
  have hplan : (Db.logged { db with
        cancellations := db.cancellations ++ [c.row preflight draw] } events).plan
      (outbox.post (c.job draw.id)) =
        { db.plan outbox with
          cancellations := (db.plan outbox).cancellations ++ [c.row preflight draw]
          outbox := (db.plan outbox).outbox.post (c.job draw.id) } := by
    rw [plan_logged]
    simp only [Db.plan, List.map_append]
    rfl
  rw [hplan]
  refine .cancel _ _ _ ?_ ?_ ?_ ⟨b.identity, List.mem_map_of_mem hb, hbid, hmode⟩ rfl rfl rfl
  · intro c' hc'
    obtain ⟨c₀, hc₀, rfl⟩ := List.mem_map.mp hc'
    exact h.id c₀ hc₀
  · intro c' hc'
    obtain ⟨c₀, hc₀, rfl⟩ := List.mem_map.mp hc'
    exact h.other c₀ hc₀
  · intro t' ht'
    obtain ⟨t₀, ht₀, rfl⟩ := List.mem_map.mp ht'
    exact h.issue t₀ ht₀

/-- The answer of a direct job leaves a receipt when the booking was pending. -/
theorem direct_refines (hj : j ∈ outbox.inFlight) (htask : j.task = .bookDirect)
    (h : saveDirect site db j reply draw = .ok db') :
    Plan.Step (db.plan outbox) (db'.plan (outbox.answer j)) := by
  obtain ⟨saved, events, hsaved, hcases⟩ := saveDirect_ok h
  have hsame : ∀ o, saved.plan o = db.plan o := by
    intro o
    rw [hsaved]
    exact plan_recordOutcome (fun _ => rfl) (fun _ => rfl)
  rcases hcases with ⟨-, db₁, hinserted, rfl⟩ | ⟨-, rfl⟩
  · have hissues : saved.issues.map TicketIssue.identity = db.issues.map TicketIssue.identity :=
      congrArg Plan.issues (hsame outbox)
    have hcancellations : saved.cancellations.map Cancellation.identity =
        db.cancellations.map Cancellation.identity :=
      congrArg Plan.cancellations (hsame outbox)
    have hplan : (db₁.logged events).plan (outbox.answer j) =
        { db.plan outbox with
          issues := (db.plan outbox).issues ++ [(directIssue site j reply.body? draw).identity]
          outbox := (db.plan outbox).outbox.answer j } := by
      rw [plan_logged, hinserted.rows, ← hsame outbox]
      simp only [Db.plan, List.map_append]
      rfl
    rw [hplan]
    refine .receipt _ _ _ hj htask ?_ ?_ ?_ rfl rfl rfl
    · intro t' ht'
      have hmem : t' ∈ saved.issues.map TicketIssue.identity := by rw [hissues]; exact ht'
      obtain ⟨t₀, ht₀, rfl⟩ := List.mem_map.mp hmem
      exact hinserted.id t₀ ht₀
    · intro t' ht'
      have hmem : t' ∈ saved.issues.map TicketIssue.identity := by rw [hissues]; exact ht'
      obtain ⟨t₀, ht₀, rfl⟩ := List.mem_map.mp hmem
      exact hinserted.booking t₀ ht₀
    · intro c' hc'
      have hmem : c' ∈ saved.cancellations.map Cancellation.identity := by
        rw [hcancellations]; exact hc'
      obtain ⟨c₀, hc₀, rfl⟩ := List.mem_map.mp hmem
      exact hinserted.cancellation c₀ hc₀
  · rw [plan_logged, hsame]
    exact .answer _ _ hj

/-! ## Every step -/

/-- What an answer leaves of the plan. -/
theorem answer_refines (hj : j ∈ outbox.inFlight) (h : saveAnswer site db j reply draw = .ok db') :
    Plan.Step (db.plan outbox) (db'.plan (outbox.answer j)) := by
  unfold saveAnswer at h
  split at h
  · rw [plan_saveHold h]
    exact .answer _ _ hj
  · exact direct_refines hj ‹_› h
  · rw [plan_saveIssue h]
    exact .answer _ _ hj
  · cases h
    rw [plan_saveCancel]
    exact .answer _ _ hj

/-- The calls under way respect the keys that are not for requests. -/
def CallsSound (calls : List Call) : Prop :=
  ∀ c, .issue c ∈ calls → ¬ startsWith c.key "direct:"

/-- What holds of the world at every moment. -/
structure World.Sound (w : World) : Prop where
  plan : w.plan.Sound
  wallet : Faithful w.db.wallet
  calls : CallsSound w.calls

/-- One step of the world is one change of the plan. -/
theorem World.Sound.refines (hs : w.Sound) (h : w.step site e = .ok w') :
    Plan.Step w.plan w'.plan := by
  cases e with
  | book m header req creator draw =>
    simp only [World.step, bind_eq_ok, pure_eq_ok] at h
    obtain ⟨⟨attempt, db⟩, hbook, rfl⟩ := h
    obtain ⟨key, -, ⟨previous, -, -, rfl, rfl⟩ | ⟨-, q, b, db₁, events, rfl, hinserted, rfl, rfl⟩⟩ :=
      bookOwned_ok hbook
    · exact .same _
    · exact book_refines hinserted
  | resolve administrator booking input now =>
    simp only [World.step, bind_eq_ok, pure_eq_ok] at h
    obtain ⟨db, hresolve, rfl⟩ := h
    show Plan.Step _ (db.plan w.outbox)
    rw [plan_resolve hresolve]
    exact .same _
  | readIssue m header req portal =>
    simp only [World.step, bind_eq_ok, pure_eq_ok] at h
    obtain ⟨attempt, -, rfl⟩ := h
    cases attempt <;> exact .same _
  | issue c draw =>
    simp only [World.step, bind_eq_ok, pure_eq_ok] at h
    obtain ⟨w₁, htake, ⟨attempt, db⟩, hcommit, rfl⟩ := h
    obtain ⟨hc, rfl⟩ := World.take_ok htake
    rcases commitIssue_ok hcommit with ⟨old, rfl, rfl⟩ | ⟨rfl, t, hissued⟩
    · exact .same _
    -- the issue job refers to the offer that its call has read
    · exact issue_refines hs.plan hs.wallet (hs.calls c hc) hissued
  | readCancel m header req =>
    simp only [World.step, bind_eq_ok, pure_eq_ok] at h
    obtain ⟨attempt, -, rfl⟩ := h
    cases attempt <;> exact .same _
  | cancel c draw =>
    simp only [World.step, bind_eq_ok, pure_eq_ok] at h
    obtain ⟨w₁, htake, ⟨attempt, db⟩, hcommit, rfl⟩ := h
    obtain ⟨-, rfl⟩ := World.take_ok htake
    rcases commitCancel_ok hcommit with ⟨old, rfl, rfl⟩ | ⟨rfl, x, hreserved⟩
    · exact .same _
    · exact cancel_refines hreserved
  | readPnr client booking actorKind actorId now =>
    simp only [World.step, bind_eq_ok, pure_eq_ok] at h
    obtain ⟨c, -, rfl⟩ := h
    exact .same _
  | pnr c body now =>
    simp only [World.step, bind_eq_ok, pure_eq_ok] at h
    obtain ⟨w₁, htake, rfl⟩ := h
    obtain ⟨-, rfl⟩ := World.take_ok htake
    show Plan.Step _ ((savePnr site w.db c body now).plan w.outbox)
    rw [plan_savePnr]
    exact .same _
  | readVerify m booking =>
    simp only [World.step, bind_eq_ok, pure_eq_ok] at h
    obtain ⟨review, -, rfl⟩ := h
    cases review <;> exact .same _
  | verify c now =>
    simp only [World.step, bind_eq_ok, pure_eq_ok] at h
    obtain ⟨w₁, htake, rfl⟩ := h
    obtain ⟨-, rfl⟩ := World.take_ok htake
    show Plan.Step _ ((saveVerification w.db c now).plan w.outbox)
    rw [plan_saveVerification]
    exact .same _
  | readReconcile client booking actorKind actorId now =>
    simp only [World.step, bind_eq_ok, pure_eq_ok] at h
    obtain ⟨review, -, rfl⟩ := h
    cases review <;> exact .same _
  | reconcile c pnr report draw =>
    simp only [World.step, bind_eq_ok, pure_eq_ok] at h
    obtain ⟨w₁, htake, db, hsave, rfl⟩ := h
    obtain ⟨-, rfl⟩ := World.take_ok htake
    show Plan.Step _ (db.plan w.outbox)
    rw [plan_saveReconciliation hsave]
    exact .same _
  | dispatch j =>
    simp only [World.step, bind_eq_ok, ensure_eq_ok, exists_const, pure_eq_ok] at h
    obtain ⟨hj, rfl⟩ := h
    exact .send _ _ hj
  | answer j reply draw =>
    simp only [World.step, bind_eq_ok, ensure_eq_ok, exists_const, pure_eq_ok] at h
    obtain ⟨hj, db, hsave, rfl⟩ := h
    exact answer_refines hj hsave
  | finalize issue draw =>
    simp only [World.step, bind_eq_ok, ensure_eq_ok, exists_const, pure_eq_ok] at h
    obtain ⟨-, db, hfinalize, rfl⟩ := h
    show Plan.Step _ (db.plan w.outbox)
    rw [plan_finalize hs.wallet hfinalize]
    exact .same _
  | review a c draw =>
    simp only [World.step, bind_eq_ok, pure_eq_ok] at h
    obtain ⟨db, hhandle, rfl⟩ := h
    show Plan.Step _ (db.plan w.outbox)
    rw [plan_handle hs.wallet hhandle]
    exact .same _
  | outside o =>
    simp only [World.step, bind_eq_ok, pure_eq_ok] at h
    obtain ⟨db, hrun, rfl⟩ := h
    exact outside_refines hs.wallet hrun
  | answerFails j reply draw served =>
    simp only [World.step, bind_eq_ok, ensure_eq_ok, exists_const, pure_eq_ok] at h
    obtain ⟨-, -, rfl⟩ := h
    exact .lose _ _
  | loseJob j =>
    cases h
    exact .lose _ _
  | loseCall c =>
    cases h
    exact .same _
  | loseFinalize issue =>
    simp only [World.step, bind_eq_ok, ensure_eq_ok, exists_const, pure_eq_ok] at h
    obtain ⟨-, rfl⟩ := h
    exact .same _

end ShaponTravels.Booking
