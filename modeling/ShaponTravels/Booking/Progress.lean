import ShaponTravels.Booking.Refinement

/-!
# Progress — what no step undoes

Rows are never deleted, a finished issue stays as it is, and the wallet moves on.  With the plan
this is the invariant of the world.
-/

namespace ShaponTravels.Booking

open Library
open Wallet (Faithful Advanced)

variable {site : Site} {db db' db'' : Db} {w w' : World} {e : Event} {j : Job}
  {reply : SupplierReply} {draw : Draws}

/-- `db'` is `db` at a later time. -/
structure Db.Later (db db' : Db) : Prop where
  wallet : Advanced db.wallet db'.wallet
  issues : ∀ t ∈ db.issues, ∃ t' ∈ db'.issues, t'.identity = t.identity ∧
    (t.state ≠ .pending → t' = t)
  verifications : db.verifications ⊆ db'.verifications
  proposals : db.proposals ⊆ db'.proposals
  decisions : db.decisions ⊆ db'.decisions
  lateOutcomes : db.lateOutcomes ⊆ db'.lateOutcomes

/-- Columns of other tables change nothing here. -/
theorem Db.Later.of_rows (hw : Advanced db.wallet db'.wallet) (hissues : db.issues ⊆ db'.issues)
    (hverifications : db.verifications ⊆ db'.verifications)
    (hproposals : db.proposals ⊆ db'.proposals) (hdecisions : db.decisions ⊆ db'.decisions)
    (hlate : db.lateOutcomes ⊆ db'.lateOutcomes) : db.Later db' :=
  ⟨hw, fun t ht => ⟨t, hissues ht, rfl, fun _ => rfl⟩, hverifications, hproposals, hdecisions, hlate⟩

theorem Db.Later.refl (hf : Faithful db.wallet) : db.Later db :=
  .of_rows ⟨hf, .refl _, List.prefix_refl _⟩ (.refl _) (.refl _) (.refl _) (.refl _) (.refl _)

theorem later_insertVerification (db : Db) (hf : Faithful db.wallet) (v : TicketVerification)
    (events : List Wallet.AuditEvent) : db.Later ((insertVerification db v).logged events) := by
  unfold insertVerification
  split
  · exact .of_rows (hf.logged events) (.refl _) (.refl _) (.refl _) (.refl _) (.refl _)
  · exact .of_rows (hf.logged events) (.refl _) (List.subset_append_left _ _) (.refl _) (.refl _)
      (.refl _)

theorem later_recordOutcome (hf : Faithful db.wallet) {booking : Uuid} {response : Option Value}
    {now : Int} {outcome late : FlightBooking → FlightBooking} (events : List Wallet.AuditEvent) :
    db.Later ((recordOutcome db booking response now outcome late).logged events) := by
  unfold recordOutcome
  split
  · exact .of_rows (hf.logged events) (.refl _) (.refl _) (.refl _) (.refl _) (.refl _)
  · exact .of_rows (hf.logged events) (.refl _) (.refl _) (.refl _) (.refl _)
      (List.subset_append_left _ _)

theorem later_saveDirect (hf : Faithful db.wallet)
    (h : saveDirect site db j reply draw = .ok db') : db.Later db' := by
  obtain ⟨saved, events, hsaved, ⟨-, db₁, hinserted, rfl⟩ | ⟨-, rfl⟩⟩ := saveDirect_ok h
  · have hlater : db.Later (saved.logged events) := by
      rw [hsaved]
      exact later_recordOutcome hf events
    rw [hinserted.rows]
    refine ⟨hlater.wallet, fun t ht => ?_, hlater.verifications, hlater.proposals,
      hlater.decisions, hlater.lateOutcomes⟩
    obtain ⟨t', ht', hrest⟩ := hlater.issues t ht
    exact ⟨t', List.mem_append_left _ ht', hrest⟩
  · rw [hsaved]
    exact later_recordOutcome hf events

theorem later_saveIssue (hf : Faithful db.wallet) {now : Int}
    (h : saveIssue site db j reply now = .ok db') : db.Later db' := by
  obtain ⟨events, rfl⟩ := saveIssue_ok h
  refine ⟨hf.logged events, fun t ht => ?_, .refl _, .refl _, .refl _, .refl _⟩
  by_cases hid : t.id = j.row
  · refine ⟨_, mem_modify_of_mem ht hid, ?_, fun hstate => if_neg hstate⟩
    unfold issueOutcome
    split
    · rfl
    · rfl
  · exact ⟨t, mem_modify_of_ne ht hid, rfl, fun _ => rfl⟩

theorem later_issue (hf : Faithful db.wallet) {c : IssueCall} {attempt : Attempt TicketIssue Job}
    (h : commitIssue site db c draw = .ok (attempt, db')) : db.Later db' := by
  rcases commitIssue_ok h with ⟨old, -, rfl⟩ | ⟨-, t, hissued⟩
  · exact .refl hf
  · obtain ⟨db₁, db₂, events, hinserted, hreserved, -, rfl⟩ := hissued.done
    obtain ⟨-, -, -, -, r, -, -, a, wallet, o, payable, -, hreserve, rfl⟩ := hreserved.payable
    have hrows := hinserted.rows
    subst hrows
    have hadvanced : Advanced db.wallet wallet := hf.reserve hreserve
    have hlogged := hadvanced.faithful.logged events
    exact .of_rows ⟨hlogged.faithful, hadvanced.history.trans hlogged.history,
      hadvanced.audit.trans hlogged.audit⟩ (List.subset_append_left _ _) (.refl _) (.refl _)
      (.refl _) (.refl _)

theorem later_book (hf : Faithful db.wallet) {m : Machine} {header : Option String}
    {req : BookRequest} {creator : Option Creator} {attempt : Attempt FlightBooking Job}
    (h : bookOwned site db m header req creator draw = .ok (attempt, db')) : db.Later db' := by
  obtain ⟨key, -, ⟨previous, -, -, -, rfl⟩ | ⟨-, q, b, db₁, events, -, hinserted, -, rfl⟩⟩ :=
    bookOwned_ok h
  · exact .refl hf
  · rw [hinserted.rows]
    exact .of_rows (hf.logged events) (.refl _) (.refl _) (.refl _) (.refl _) (.refl _)

theorem later_resolve (hf : Faithful db.wallet) {administrator booking : Uuid}
    {input : ResolutionInput} {now : Int}
    (h : resolve site db administrator booking input now = .ok db') : db.Later db' := by
  obtain ⟨b, response, resolutions, events, -, -, rfl⟩ := resolve_ok h
  exact .of_rows (hf.logged events) (.refl _) (.refl _) (.refl _) (.refl _) (.refl _)

theorem later_cancel (hf : Faithful db.wallet) {c : CancelCall}
    {attempt : Attempt Cancellation Job} (h : commitCancel site db c draw = .ok (attempt, db')) :
    db.Later db' := by
  rcases commitCancel_ok h with ⟨old, -, rfl⟩ | ⟨-, x, hreserved⟩
  · exact .refl hf
  · obtain ⟨events, rfl⟩ := hreserved.done
    exact .of_rows (hf.logged events) (.refl _) (.refl _) (.refl _) (.refl _) (.refl _)

theorem later_reconcile (hf : Faithful db.wallet) {c : ReconcileCall}
    {pnr report : SupplierReply} (h : saveReconciliation site db c pnr report draw = .ok db') :
    db.Later db' := by
  obtain ⟨rows, verification, events, rfl⟩ := saveReconciliation_ok h
  cases verification with
  | none => exact .of_rows (hf.logged events) (.refl _) (.refl _) (.refl _) (.refl _) (.refl _)
  | some response =>
    have hlater := later_insertVerification { db with reconciliations := rows } hf
      ⟨c.issue, response, c.client, draw.now⟩ events
    exact ⟨hlater.wallet, hlater.issues, hlater.verifications, hlater.proposals,
      hlater.decisions, hlater.lateOutcomes⟩

theorem advanced_recordContradiction {wallet : Wallet.WalletDb} (hf : Faithful wallet)
    (issue operation : Uuid) :
    Advanced wallet (Wallet.Ticket.recordContradiction wallet issue operation) := by
  unfold Wallet.Ticket.recordContradiction
  split
  · exact ⟨hf, .refl _, List.prefix_refl _⟩
  · exact hf.logged _

theorem later_finalize (hf : Faithful db.wallet) {issue : Uuid} {draw : Wallet.Draw}
    (h : Wallet.Ticket.finalize site.pf db issue draw = .ok db') : db.Later db' := by
  obtain ⟨t, -, ⟨-, rfl⟩ | ⟨-, o, -, ⟨-, hdb⟩ | ⟨-, -, o', wallet, hsettle, hdb⟩ |
    ⟨-, -, hdb⟩⟩⟩ := finalize_ok h
  · exact .refl hf
  · rw [hdb]
    split
    · exact .of_rows (advanced_recordContradiction hf issue o.id) (.refl _) (.refl _) (.refl _)
        (.refl _) (.refl _)
    · exact .refl hf
  · rw [hdb]
    exact .of_rows (hf.settle hsettle) (.refl _) (.refl _) (.refl _) (.refl _) (.refl _)
  · rw [hdb]
    exact .of_rows (hf.markReconciliation o.id) (.refl _) (.refl _) (.refl _) (.refl _) (.refl _)

theorem later_handle (hf : Faithful db.wallet) {a : Wallet.Nonissuance.Actor}
    {c : Wallet.Nonissuance.Command} {draw : Wallet.Draw}
    (h : Wallet.Nonissuance.handle site db a c draw = .ok db') : db.Later db' := by
  simp only [Wallet.Nonissuance.handle, bind_eq_ok] at h
  obtain ⟨-, -, -, -, h⟩ := h
  cases c with
  | propose id issue snapshotHash evidence =>
    rcases propose_ok h with rfl | ⟨p, hp⟩
    · exact .refl hf
    · obtain ⟨events, rfl⟩ := hp.done
      exact .of_rows (hf.logged events) (.refl _) (.refl _) (List.subset_append_left _ _) (.refl _)
        (.refl _)
  | decide proposal decision evidenceSha256 remarks =>
    rcases decide_ok h with rfl | ⟨p, t, d, settled, -, -, hd⟩
    · exact .refl hf
    · obtain ⟨events, rfl⟩ := hd.done
      cases happroved : d.approved with
      | false =>
        rw [hd.rejection happroved]
        exact .of_rows (hf.logged events) (.refl _) (.refl _) (.refl _)
          (List.subset_append_left _ _) (.refl _)
      | true =>
        obtain ⟨view, o, wallet, -, -, -, hsettle, rfl⟩ := hd.approval happroved
        have hadvanced := hf.settle hsettle
        have hlogged := hadvanced.faithful.logged events
        exact .of_rows ⟨hlogged.faithful, hadvanced.history.trans hlogged.history,
          hadvanced.audit.trans hlogged.audit⟩ (.refl _) (.refl _) (.refl _)
          (List.subset_append_left _ _) (.refl _)

theorem later_outside (hf : Faithful db.wallet) {o : Outside} (h : o.run site db = .ok db') :
    db.Later db' := by
  have hkept : ∀ db' : Db, db'.wallet = db.wallet → db'.issues = db.issues →
      db'.verifications = db.verifications → db'.proposals = db.proposals →
      db'.decisions = db.decisions → db'.lateOutcomes = db.lateOutcomes → db.Later db' := by
    intro db' h₁ h₂ h₃ h₄ h₅ h₆
    exact .of_rows (by rw [h₁]; exact ⟨hf, .refl _, List.prefix_refl _⟩) (by rw [h₂]; exact .refl _)
      (by rw [h₃]; exact .refl _) (by rw [h₄]; exact .refl _) (by rw [h₅]; exact .refl _)
      (by rw [h₆]; exact .refl _)
  cases o with
  | clients rows | identities rows | drafts rows | tierPolicy policy | connections rows | searches rows
  | offers rows | accept price now =>
    cases h
    exact hkept _ rfl rfl rfl rfl rfl rfl
  | reprice r | importBooking s =>
    simp only [Outside.run, bind_eq_ok, ensure_eq_ok, exists_const, pure_eq_ok] at h
    obtain ⟨-, rfl⟩ := h
    exact hkept _ rfl rfl rfl rfl rfl rfl
  | report client booking body response requested draw =>
    obtain ⟨reports, events, rfl⟩ := saveReport_ok h
    exact .of_rows (hf.logged events) (.refl _) (.refl _) (.refl _) (.refl _) (.refl _)
  | linkClient client account =>
    simp only [Outside.run, bind_eq_ok, pure_eq_ok] at h
    obtain ⟨wallet, hlink, rfl⟩ := h
    exact .of_rows (hf.linkClient hlink) (.refl _) (.refl _) (.refl _) (.refl _) (.refl _)
  | wallet call =>
    simp only [Outside.run, bind_eq_ok, ensure_eq_ok, exists_const, pure_eq_ok] at h
    obtain ⟨-, wallet, hcall, rfl⟩ := h
    exact .of_rows (hf.run hcall) (.refl _) (.refl _) (.refl _) (.refl _) (.refl _)

theorem later_answer (hf : Faithful db.wallet) (h : saveAnswer site db j reply draw = .ok db') :
    db.Later db' := by
  unfold saveAnswer at h
  split at h
  · obtain ⟨-, events, rfl⟩ := saveHold_ok h
    exact later_recordOutcome hf events
  · exact later_saveDirect hf h
  · exact later_saveIssue hf h
  · cases h
    exact .of_rows (hf.logged _) (.refl _) (.refl _) (.refl _) (.refl _) (.refl _)

/-- Every transaction leaves the database at a later time. -/
theorem Transaction.later (hf : Faithful db.wallet) (h : Transaction site db e db') :
    db.Later db' := by
  cases h with
  | nothing => exact .refl hf
  | book h => exact later_book hf h
  | resolve h => exact later_resolve hf h
  | issue h => exact later_issue hf h
  | cancel h => exact later_cancel hf h
  | pnr c body now =>
    obtain ⟨observations, events, hsaved⟩ := savePnr_logged site db c body now
    rw [hsaved]
    exact .of_rows (hf.logged events) (.refl _) (.refl _) (.refl _) (.refl _) (.refl _)
  | verify c now =>
    obtain ⟨events, hsaved⟩ := saveVerification_logged db c now
    rw [hsaved]
    exact later_insertVerification db hf _ events
  | reconcile h => exact later_reconcile hf h
  | answer h => exact later_answer hf h
  | finalize h => exact later_finalize hf h
  | review h => exact later_handle hf h
  | outside h => exact later_outside hf h

/-! ## Calls under way -/

theorem prepareIssue_key {m : Machine} {header : Option String} {req : PnrRequest}
    {portal : Option Wallet.Ticket.PortalIssue} {c : IssueCall}
    (h : prepareIssue site db m header req portal = .ok (.proceed c)) :
    ¬ startsWith c.key "direct:" := by
  simp only [prepareIssue, bind_eq_ok, ensure_eq_ok, fetch_eq_ok, exists_const] at h
  obtain ⟨-, -, -, -, key, -, hkey, b, -, q, -, -, -, h⟩ := h
  split at h
  · simp only [bind_eq_ok, pure_eq_ok] at h
    obtain ⟨old, -, h⟩ := h
    cases h
  · simp only [bind_eq_ok, ensure_eq_ok, fetch_eq_ok, exists_const, pure_eq_ok] at h
    obtain ⟨-, original, -, -, payload, -, supplier, -, -, -, s, -, -, h⟩ := h
    cases h
    exact hkey

/-- The call that the reads of an event leave. -/
inductive Read (site : Site) (db : Db) : Event → Call → Prop
  | issue {m : Machine} {header : Option String} {req : PnrRequest}
      {portal : Option Wallet.Ticket.PortalIssue} {c : IssueCall} :
      prepareIssue site db m header req portal = .ok (.proceed c) →
      Read site db (.readIssue m header req portal) (.issue c)
  | cancel {m : Machine} {header : Option String} {req : PnrRequest} {c : CancelCall} :
      prepareCancel site db m header req = .ok (.proceed c) →
      Read site db (.readCancel m header req) (.cancel c)
  | pnr {client booking : Uuid} {actorKind : String} {actorId : Uuid} {now : Int} {c : PnrCall} :
      preparePnr site db client booking actorKind actorId now = .ok c →
      Read site db (.readPnr client booking actorKind actorId now) (.pnr c)
  | verify {m : Machine} {booking : Uuid} {c : VerifyCall} :
      prepareVerify site db m booking = .ok (.proceed c) →
      Read site db (.readVerify m booking) (.verify c)
  | reconcile {client booking : Uuid} {actorKind : String} {actorId : Uuid} {now : Int}
      {c : ReconcileCall} :
      prepareReconcile site db client booking actorKind actorId now = .ok (.proceed c) →
      Read site db (.readReconcile client booking actorKind actorId now) (.reconcile c)

/-- A call that was added is one the event has read. -/
theorem read_of_concat {calls : List Call} {c : Call} (hread : Read site db e c) :
    ∀ c' ∈ calls ++ [c], c' ∈ calls ∨ Read site db e c' := by
  intro c' hc'
  rcases List.mem_append.mp hc' with hc' | hc'
  · exact .inl hc'
  · rw [List.mem_singleton.mp hc']
    exact .inr hread

theorem step_read (h : w.step site e = .ok w') :
    ∀ c ∈ w'.calls, c ∈ w.calls ∨ Read site w.db e c := by
  have hkept : w'.calls ⊆ w.calls → ∀ c ∈ w'.calls, c ∈ w.calls ∨ Read site w.db e c :=
    fun hsub c hc => .inl (hsub hc)
  cases e with
  | readIssue m header req portal =>
    simp only [World.step, bind_eq_ok, pure_eq_ok] at h
    obtain ⟨attempt, hread, rfl⟩ := h
    cases attempt with
    | replay old => exact hkept (.refl _)
    | proceed c => exact read_of_concat (.issue hread)
  | readCancel m header req =>
    simp only [World.step, bind_eq_ok, pure_eq_ok] at h
    obtain ⟨attempt, hread, rfl⟩ := h
    cases attempt with
    | replay old => exact hkept (.refl _)
    | proceed c => exact read_of_concat (.cancel hread)
  | readPnr client booking actorKind actorId now =>
    simp only [World.step, bind_eq_ok, pure_eq_ok] at h
    obtain ⟨c, hread, rfl⟩ := h
    exact read_of_concat (.pnr hread)
  | readVerify m booking =>
    simp only [World.step, bind_eq_ok, pure_eq_ok] at h
    obtain ⟨review, hread, rfl⟩ := h
    cases review with
    | nothing | finalize issue => exact hkept (.refl _)
    | proceed c => exact read_of_concat (.verify hread)
  | readReconcile client booking actorKind actorId now =>
    simp only [World.step, bind_eq_ok, pure_eq_ok] at h
    obtain ⟨review, hread, rfl⟩ := h
    cases review with
    | nothing | finalize issue => exact hkept (.refl _)
    | proceed c => exact read_of_concat (.reconcile hread)
  -- from here on calls end or stay
  | issue c draw | cancel c draw =>
    simp only [World.step, bind_eq_ok, pure_eq_ok] at h
    obtain ⟨w₁, htake, ⟨attempt, db⟩, -, rfl⟩ := h
    obtain ⟨-, rfl⟩ := World.take_ok htake
    cases attempt <;> exact hkept List.erase_subset
  | pnr c body now | verify c now =>
    simp only [World.step, bind_eq_ok, pure_eq_ok] at h
    obtain ⟨w₁, htake, rfl⟩ := h
    obtain ⟨-, rfl⟩ := World.take_ok htake
    exact hkept List.erase_subset
  | reconcile c pnr report draw =>
    simp only [World.step, bind_eq_ok, pure_eq_ok] at h
    obtain ⟨w₁, htake, db, -, rfl⟩ := h
    obtain ⟨-, rfl⟩ := World.take_ok htake
    exact hkept List.erase_subset
  | book m header req creator draw =>
    simp only [World.step, bind_eq_ok, pure_eq_ok] at h
    obtain ⟨⟨attempt, db⟩, -, rfl⟩ := h
    cases attempt <;> exact hkept (.refl _)
  | resolve administrator booking input now | review a c draw | outside o =>
    simp only [World.step, bind_eq_ok, pure_eq_ok] at h
    obtain ⟨db, -, rfl⟩ := h
    exact hkept (.refl _)
  | answer j reply draw | finalize issue draw =>
    simp only [World.step, bind_eq_ok, ensure_eq_ok, exists_const, pure_eq_ok] at h
    obtain ⟨-, db, -, rfl⟩ := h
    exact hkept (.refl _)
  | dispatch j | loseFinalize issue =>
    simp only [World.step, bind_eq_ok, ensure_eq_ok, exists_const, pure_eq_ok] at h
    obtain ⟨-, rfl⟩ := h
    exact hkept (.refl _)
  | answerFails j reply draw served =>
    simp only [World.step, bind_eq_ok, ensure_eq_ok, exists_const, pure_eq_ok] at h
    obtain ⟨-, -, rfl⟩ := h
    exact hkept (.refl _)
  | loseJob j =>
    cases h
    exact hkept (.refl _)
  | loseCall c =>
    cases h
    exact hkept List.erase_subset

theorem step_calls (hs : CallsSound w.calls) (h : w.step site e = .ok w') :
    CallsSound w'.calls := by
  intro i hi
  rcases step_read h _ hi with hi | hread
  · exact hs i hi
  · cases hread with
    | issue hprepare => exact prepareIssue_key hprepare

/-! ## The invariant of the world -/

theorem Plan.sound_empty : Plan.Sound ⟨[], [], [], [], [], .empty⟩ where
  prices := .nil
  bookings := .nil
  bookingKeys := .nil
  directOffers := by simp
  issues := .nil
  issueBookings := .nil
  issueBooking := by simp
  cancellations := .nil
  cancellationBookings := .nil
  cancellationBooking := by simp
  exclusive := by simp
  subjects := .nil
  reserved := by simp
  ticketSubject := by simp
  once := Outbox.once_empty _
  backed := by simp [Outbox.jobs, Outbox.empty]
  unreceipted := by simp [Outbox.outstanding, Outbox.empty]

theorem World.sound_empty (policy : TierPolicy) : (World.empty policy).Sound :=
  ⟨Plan.sound_empty, .empty, fun _ hc => absurd hc List.not_mem_nil⟩

theorem World.Sound.step (hs : w.Sound) (h : w.step site e = .ok w') : w'.Sound :=
  ⟨hs.plan.step (hs.refines h), ((step_transaction h).later hs.wallet).wallet.faithful, step_calls hs.calls h⟩

theorem reachable_sound (h : (machine site).Reachable w) : w.Sound := by
  refine h.invariant ?_ (fun _ _ _ hs hstep => hs.step hstep)
  rintro _ ⟨policy, rfl⟩
  exact World.sound_empty policy

end ShaponTravels.Booking
