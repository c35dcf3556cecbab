import ShaponTravels.Booking.Holds

/-!
# Settlement — captures follow proof, releases follow review

The invariant of ticket holds: a captured hold belongs to an issue with proof of a ticket, and proof
that came after a release is on record as a contradiction as soon as the call that saved it has
finalized the issue.
-/

namespace ShaponTravels.Booking

open Library
open Wallet (Faithful WalletDb WalletOperation)
open Wallet.Ticket (resolved contradicted)
open Wallet.Nonissuance (Actor noTicketEvidence)

variable {site : Site} {db db' : Db} {w w' : World} {e : Event} {o o' : WalletOperation}
  {t t' : TicketIssue}

/-! ## Keys of the tables, read off the plan -/

theorem World.Sound.issue_unique (hs : w.Sound) (ht : t ∈ w.db.issues) (ht' : t' ∈ w.db.issues)
    (h : t.id = t'.id) : t = t' := by
  have hu : KeyUnique TicketIssue.id w.db.issues := by
    have hplan := hs.plan.issues
    simp only [KeyUnique, World.plan, Db.plan, List.map_map] at hplan
    exact hplan
  exact hu.eq_of_key ht ht' h

theorem World.Sound.hold_unique (hs : w.Sound) (ho : o ∈ w.db.wallet.operations)
    (ho' : o' ∈ w.db.wallet.operations) (hkind : o.subjectKind = o'.subjectKind)
    (h : o.subjectId = o'.subjectId) : o = o' := by
  have hu : KeyUnique (fun o : WalletOperation => (o.subjectKind, o.subjectId))
      w.db.wallet.operations := by
    have hplan := hs.plan.subjects
    simp only [KeyUnique, World.plan, Db.plan, List.map_map] at hplan
    exact hplan
  exact hu.eq_of_key ho ho' (Prod.ext hkind h)

/-- The issue a ticket hold is for. -/
theorem World.Sound.hold_issue (hs : w.Sound) (ho : o ∈ w.db.wallet.operations)
    (hkind : o.subjectKind = .ticketIssue) :
    ∃ t ∈ w.db.issues, t.id = o.subjectId ∧ t.walletRequired = true := by
  obtain ⟨t', ht', hid, hrequired⟩ :=
    hs.plan.ticketSubject o.identity (List.mem_map_of_mem ho) hkind
  obtain ⟨t, ht, rfl⟩ := List.mem_map.mp ht'
  exact ⟨t, ht, hid, hrequired⟩

/-! ## How proof arrives -/

theorem resolved_iff : resolved db t = true ↔
    t.state = .issued ∨ ∃ v ∈ db.verifications, v.issueId = t.id := by
  simp [resolved]

/-- Proof is never lost. -/
theorem Db.Later.resolved (hl : db.Later db') (ht : t ∈ db.issues)
    (hunique : ∀ t'' ∈ db'.issues, t''.id = t.id → t'' = t')
    (h : resolved db t = true) : Wallet.Ticket.resolved db' t' = true := by
  obtain ⟨t'', ht'', hidentity, hfinished⟩ := hl.issues t ht
  have hid : t''.id = t.id := by
    show t''.identity.id = t.identity.id
    rw [hidentity]
  have hsame := hunique t'' ht'' hid
  subst hsame
  rw [resolved_iff] at h ⊢
  rcases h with hstate | ⟨v, hv, hissue⟩
  · have hkept := hfinished (by rw [hstate]; decide)
    exact .inl (by rw [hkept]; exact hstate)
  · exact .inr ⟨v, hl.verifications hv, hissue.trans hid.symm⟩

/-- Where a review finds no ticket there is no proof of one. -/
theorem Reviewed.unresolved {a : Actor} {p : Proposal} (h : Reviewed site db db' a o p t) :
    resolved db t = false := by
  have hnone := h.noTicket
  simp only [noTicketEvidence, Bool.and_eq_true, Option.isNone_iff_eq_none,
    Wallet.Nonissuance.verificationOf, lookup_eq_none] at hnone
  obtain ⟨⟨⟨⟨-, hverifications⟩, -⟩, -⟩, -⟩ := hnone
  rw [Bool.eq_false_iff, Ne, resolved_iff]
  rintro (hstate | ⟨v, hv, hissue⟩)
  · rw [h.unknown] at hstate
    cases hstate
  · exact hverifications v hv hissue

/-- No proof comes from new rows of the issues alone. -/
theorem resolved_of_rows (hs : w.Sound) {db' : Db}
    (hissues : ∀ t' ∈ db'.issues, t' ∈ w.db.issues ∨ ∀ t ∈ w.db.issues, t.id ≠ t'.id)
    (hverifications : db'.verifications = w.db.verifications) (ht : t ∈ w.db.issues)
    (ht' : t' ∈ db'.issues) (hid : t'.id = t.id) (h : resolved db' t' = true) :
    resolved w.db t = true := by
  rcases hissues t' ht' with hmem | hnew
  · have hsame := hs.issue_unique hmem ht hid
    subst hsame
    rw [resolved_iff, hverifications] at h
    exact resolved_iff.mpr h
  · exact absurd hid.symm (hnew t ht)

theorem insertVerification_mem {v v' : TicketVerification}
    (h : v' ∈ (insertVerification db v).verifications) : v' ∈ db.verifications ∨ v' = v := by
  unfold insertVerification at h
  split at h
  · exact .inl h
  · simpa using h

theorem insertVerification_issues (v : TicketVerification) :
    (insertVerification db v).issues = db.issues := by
  unfold insertVerification
  split
  · rfl
  · rfl

/-- The answer to an issue is proof of that issue only. -/
theorem saveIssue_resolved (hs : w.Sound) {j : Job} {reply : SupplierReply} {now : Int}
    (h : saveIssue site w.db j reply now = .ok db') (ht : t ∈ w.db.issues) (ht' : t' ∈ db'.issues)
    (hid : t'.id = t.id) (hresolved : resolved db' t' = true) :
    resolved w.db t = true ∨ t.id = j.row := by
  obtain ⟨events, rfl⟩ := saveIssue_ok h
  by_cases hrow : t.id = j.row
  · exact .inr hrow
  · rcases modify_cases ht' with ⟨hmem, -⟩ | ⟨t₀, ht₀, hid₀, rfl⟩
    · have hsame := hs.issue_unique hmem ht hid
      subst hsame
      exact .inl hresolved
    · have hkept : (issueOutcome site j reply now t₀).id = t₀.id := by
        unfold issueOutcome
        split
        · rfl
        · rfl
      exact absurd (hid.symm.trans (hkept.trans hid₀)) hrow

/-- Saved evidence is proof of its own issue only. -/
theorem insertVerification_resolved (hs : w.Sound) (db : Db) {v : TicketVerification}
    (hissues : db.issues = w.db.issues) (hverifications : db.verifications = w.db.verifications)
    (ht : t ∈ w.db.issues) (ht' : t' ∈ (insertVerification db v).issues) (hid : t'.id = t.id)
    (hresolved : resolved (insertVerification db v) t' = true) :
    resolved w.db t = true ∨ t.id = v.issueId := by
  rw [insertVerification_issues, hissues] at ht'
  have hsame := hs.issue_unique ht' ht hid
  subst hsame
  rw [resolved_iff] at hresolved ⊢
  rcases hresolved with hstate | ⟨v', hv', hissue⟩
  · exact .inl (.inl hstate)
  · rcases insertVerification_mem hv' with hv' | rfl
    · exact .inl (.inr ⟨v', by rw [← hverifications]; exact hv', hissue⟩)
    · exact .inr hissue.symm

theorem answer_resolved (hs : w.Sound) {j : Job} {reply : SupplierReply} {draw : Draws}
    (h : saveAnswer site w.db j reply draw = .ok db') (ht : t ∈ w.db.issues) (ht' : t' ∈ db'.issues)
    (hid : t'.id = t.id) (hresolved : resolved db' t' = true) :
    resolved w.db t = true ∨ j.task = .newTicket ∧ t.id = j.row := by
  have hrecord : ∀ (booking : Uuid) (response : Option Value) (now : Int)
      (outcome late : FlightBooking → FlightBooking),
      (recordOutcome w.db booking response now outcome late).issues = w.db.issues ∧
        (recordOutcome w.db booking response now outcome late).verifications =
          w.db.verifications := by
    intro booking response now outcome late
    unfold recordOutcome
    split
    · exact ⟨rfl, rfl⟩
    · exact ⟨rfl, rfl⟩
  unfold saveAnswer at h
  split at h
  · obtain ⟨-, events, rfl⟩ := saveHold_ok h
    refine .inl (resolved_of_rows hs (fun t'' ht'' => .inl ?_) (hrecord _ _ _ _ _).2 ht ht' hid
      hresolved)
    have hmem : t'' ∈ (recordOutcome w.db j.booking reply.body? draw.now (holdOutcome site j reply)
      (holdLate reply)).issues := ht''
    rw [(hrecord _ _ _ _ _).1] at hmem
    exact hmem
  · obtain ⟨saved, events, hsaved, ⟨-, db₁, hinserted, rfl⟩ | ⟨-, rfl⟩⟩ := saveDirect_ok h
    · have hissues : saved.issues = w.db.issues := by rw [hsaved]; exact (hrecord _ _ _ _ _).1
      have hverifications : saved.verifications = w.db.verifications := by
        rw [hsaved]; exact (hrecord _ _ _ _ _).2
      have hrows := hinserted.rows
      subst hrows
      refine .inl (resolved_of_rows hs ?_ ?_ ht ht' hid hresolved)
      · intro t'' ht''
        rcases List.mem_append.mp ht'' with ht'' | ht''
        · exact .inl (by rw [← hissues]; exact ht'')
        · rw [List.mem_singleton.mp ht'', ← hissues]
          exact .inr hinserted.id
      · exact hverifications
    · have hissues : saved.issues = w.db.issues := by rw [hsaved]; exact (hrecord _ _ _ _ _).1
      have hverifications : saved.verifications = w.db.verifications := by
        rw [hsaved]; exact (hrecord _ _ _ _ _).2
      refine .inl (resolved_of_rows hs (fun t'' ht'' => .inl ?_) hverifications ht ht' hid hresolved)
      rw [← hissues]
      exact ht''
  · rename_i htask
    exact (saveIssue_resolved hs h ht ht' hid hresolved).imp_right (fun hrow => ⟨htask, hrow⟩)
  · cases h
    exact .inl (resolved_of_rows hs (fun t'' ht'' => .inl ht'') rfl ht ht' hid hresolved)

/-- The events that neither add proof nor touch an issue that is there. -/
def Event.provesNothing : Event → Bool
  | .verify .. | .reconcile .. | .answer .. => false
  | _ => true

/-- Such an event at most adds issues of its own, which have no response. -/
theorem Transaction.rows (h : Transaction site db e db') (he : e.provesNothing = true) :
    (∀ t' ∈ db'.issues, t' ∈ db.issues ∨
        (∀ t ∈ db.issues, t.id ≠ t'.id) ∧ t'.originalResponse = none) ∧
      db'.verifications = db.verifications := by
  have hsame : ∀ db' : Db, db'.issues = db.issues → db'.verifications = db.verifications →
      (∀ t' ∈ db'.issues, t' ∈ db.issues ∨
          (∀ t ∈ db.issues, t.id ≠ t'.id) ∧ t'.originalResponse = none) ∧
        db'.verifications = db.verifications := by
    intro db' hissues hverifications
    exact ⟨fun t' ht' => .inl (by rw [← hissues]; exact ht'), hverifications⟩
  cases h with
  | verify c now => cases he
  | reconcile h => cases he
  | answer h => cases he
  | nothing => exact hsame _ rfl rfl
  | book h =>
    obtain ⟨key, -, ⟨previous, -, -, -, rfl⟩ | ⟨-, q, b, db₁, events, -, hinserted, -, rfl⟩⟩ :=
      bookOwned_ok h
    · exact hsame _ rfl rfl
    · rw [hinserted.rows]
      exact hsame _ rfl rfl
  | resolve h =>
    obtain ⟨b, response, resolutions, events, -, -, rfl⟩ := resolve_ok h
    exact hsame _ rfl rfl
  | issue h =>
    rcases commitIssue_ok h with ⟨old, -, rfl⟩ | ⟨-, t, hissued⟩
    · exact hsame _ rfl rfl
    -- the one event that adds an issue: it comes under a new id and before any answer
    · obtain ⟨db₁, db₂, events, hinserted, hreserved, -, rfl⟩ := hissued.done
      obtain ⟨-, -, -, -, r, -, -, a, wallet, o, payable, -, -, rfl⟩ := hreserved.payable
      have hrows := hinserted.rows
      subst hrows
      obtain ⟨preflight, hrow⟩ := hissued.row
      refine ⟨fun t' ht' => ?_, rfl⟩
      rcases List.mem_append.mp ht' with ht' | ht'
      · exact .inl ht'
      · rw [List.mem_singleton.mp ht']
        exact .inr ⟨hinserted.id, by rw [hrow]; rfl⟩
  | cancel h =>
    rcases commitCancel_ok h with ⟨old, -, rfl⟩ | ⟨-, x, hreserved⟩
    · exact hsame _ rfl rfl
    · obtain ⟨events, rfl⟩ := hreserved.done
      exact hsame _ rfl rfl
  | pnr c body now =>
    obtain ⟨observations, events, hsaved⟩ := savePnr_logged site db c body now
    rw [hsaved]
    exact hsame _ rfl rfl
  | finalize h =>
    obtain ⟨t, -, ⟨-, rfl⟩ | ⟨-, o, -, ⟨-, hdb⟩ | ⟨-, -, o', wallet, -, rfl⟩ | ⟨-, -, rfl⟩⟩⟩ :=
      finalize_ok h
    · exact hsame _ rfl rfl
    · rw [hdb]
      split
      · exact hsame _ rfl rfl
      · exact hsame _ rfl rfl
    · exact hsame _ rfl rfl
    · exact hsame _ rfl rfl
  | @review a c draw _ h =>
    simp only [Wallet.Nonissuance.handle, bind_eq_ok] at h
    obtain ⟨-, -, -, -, h⟩ := h
    cases c with
    | propose id issue snapshotHash evidence =>
      rcases propose_ok h with rfl | ⟨p, hp⟩
      · exact hsame _ rfl rfl
      · obtain ⟨events, rfl⟩ := hp.done
        exact hsame _ rfl rfl
    | decide proposal decision evidenceSha256 remarks =>
      rcases decide_ok h with rfl | ⟨p, t, d, settled, -, -, hd⟩
      · exact hsame _ rfl rfl
      · obtain ⟨events, rfl⟩ := hd.done
        cases happroved : d.approved with
        | false =>
          rw [hd.rejection happroved]
          exact hsame _ rfl rfl
        | true =>
          obtain ⟨view, o, wallet, -, -, -, -, rfl⟩ := hd.approval happroved
          exact hsame _ rfl rfl
  | @outside o _ h =>
    cases o with
    | clients rows | identities rows | drafts rows | tierPolicy policy | connections rows | searches rows
    | offers rows | accept price now =>
      cases h
      exact hsame _ rfl rfl
    | reprice r | importBooking s =>
      simp only [Outside.run, bind_eq_ok, ensure_eq_ok, exists_const, pure_eq_ok] at h
      obtain ⟨-, rfl⟩ := h
      exact hsame _ rfl rfl
    | report client booking body response requested draw =>
      obtain ⟨reports, events, rfl⟩ := saveReport_ok h
      exact hsame _ rfl rfl
    | linkClient client account =>
      simp only [Outside.run, bind_eq_ok, pure_eq_ok] at h
      obtain ⟨wallet, -, rfl⟩ := h
      exact hsame _ rfl rfl
    | wallet call =>
      simp only [Outside.run, bind_eq_ok, ensure_eq_ok, exists_const, pure_eq_ok] at h
      obtain ⟨-, wallet, -, rfl⟩ := h
      exact hsame _ rfl rfl

/-- Proof that was not there before comes with a finalization that is still to run. -/
theorem step_resolved (hs : w.Sound) (h : w.step site e = .ok w') (ht : t ∈ w.db.issues)
    (ht' : t' ∈ w'.db.issues) (hid : t'.id = t.id) (hresolved : resolved w'.db t' = true) :
    resolved w.db t = true ∨ t.id ∈ w'.finalizing := by
  cases hproves : e.provesNothing with
  | true =>
    obtain ⟨hissues, hverifications⟩ := (step_transaction h).rows hproves
    exact .inl (resolved_of_rows hs (fun t'' ht'' => (hissues t'' ht'').imp_right And.left)
      hverifications ht ht' hid hresolved)
  | false =>
    cases e with
    | verify c now =>
      simp only [World.step, bind_eq_ok, pure_eq_ok] at h
      obtain ⟨w₁, htake, rfl⟩ := h
      obtain ⟨-, rfl⟩ := World.take_ok htake
      obtain ⟨events, hsaved⟩ := saveVerification_logged w.db c now
      rw [show (saveVerification w.db c now) = _ from hsaved] at ht' hresolved
      rcases insertVerification_resolved hs w.db rfl rfl ht ht' hid hresolved with hres | hissue
      · exact .inl hres
      · exact .inr (by rw [hissue]; simp)
    | reconcile c pnr report draw =>
      simp only [World.step, bind_eq_ok, pure_eq_ok] at h
      obtain ⟨w₁, htake, db, hsave, rfl⟩ := h
      obtain ⟨-, rfl⟩ := World.take_ok htake
      obtain ⟨rows, verification, events, rfl⟩ := saveReconciliation_ok hsave
      cases verification with
      | none =>
        exact .inl (resolved_of_rows hs (fun t'' ht'' => .inl ht'') rfl ht ht' hid hresolved)
      | some response =>
        rcases insertVerification_resolved hs { w.db with reconciliations := rows } rfl rfl ht ht'
          hid hresolved with hres | hissue
        · exact .inl hres
        · exact .inr (by rw [hissue]; simp)
    | answer j reply draw =>
      simp only [World.step, bind_eq_ok, ensure_eq_ok, exists_const, pure_eq_ok] at h
      obtain ⟨-, db, hsave, rfl⟩ := h
      rcases answer_resolved hs hsave ht ht' hid hresolved with hres | ⟨htask, hrow⟩
      · exact .inl hres
      · exact .inr (by rw [if_pos htask, hrow]; simp)
    | _ => cases hproves

/-- A finalization that was still to run has run, is still to run or died; one that died stays
dead. -/
theorem step_finalizing (h : w.step site e = .ok w') :
    (∀ issue ∈ w.finalizing, issue ∈ w'.finalizing ∨ issue ∈ w'.interrupted ∨
      ∃ draw, e = .finalize issue draw) ∧ w.interrupted ⊆ w'.interrupted := by
  have hgrows : ∀ w' : World, w.finalizing ⊆ w'.finalizing → w'.interrupted = w.interrupted →
      (∀ issue ∈ w.finalizing, issue ∈ w'.finalizing ∨ issue ∈ w'.interrupted ∨
        ∃ draw, e = .finalize issue draw) ∧ w.interrupted ⊆ w'.interrupted :=
    fun w' hf hi => ⟨fun issue hissue => .inl (hf hissue), by rw [hi]; exact .refl _⟩
  cases e with
  | finalize issue draw =>
    simp only [World.step, bind_eq_ok, ensure_eq_ok, exists_const, pure_eq_ok] at h
    obtain ⟨-, db, -, rfl⟩ := h
    refine ⟨fun i hi => ?_, .refl _⟩
    by_cases hsame : i = issue
    · exact .inr (.inr ⟨draw, by rw [hsame]⟩)
    · exact .inl ((List.mem_erase_of_ne hsame).mpr hi)
  | loseFinalize issue =>
    simp only [World.step, bind_eq_ok, ensure_eq_ok, exists_const, pure_eq_ok] at h
    obtain ⟨-, rfl⟩ := h
    refine ⟨fun i hi => ?_, List.subset_append_left _ _⟩
    by_cases hsame : i = issue
    · exact .inr (.inl (by simp [hsame]))
    · exact .inl ((List.mem_erase_of_ne hsame).mpr hi)
  | answer j reply draw =>
    simp only [World.step, bind_eq_ok, ensure_eq_ok, exists_const, pure_eq_ok] at h
    obtain ⟨-, db, -, rfl⟩ := h
    refine hgrows _ ?_ rfl
    show w.finalizing ⊆ if j.task = .newTicket then w.finalizing ++ [j.row] else w.finalizing
    split
    · exact List.subset_append_left _ _
    · exact .refl _
  -- an evidence check leaves a finalization behind, and so does a reconciliation
  | verify c now =>
    simp only [World.step, bind_eq_ok, pure_eq_ok] at h
    obtain ⟨w₁, htake, rfl⟩ := h
    obtain ⟨-, rfl⟩ := World.take_ok htake
    exact hgrows _ (List.subset_append_left _ _) rfl
  | reconcile c pnr report draw =>
    simp only [World.step, bind_eq_ok, pure_eq_ok] at h
    obtain ⟨w₁, htake, db, -, rfl⟩ := h
    obtain ⟨-, rfl⟩ := World.take_ok htake
    exact hgrows _ (List.subset_append_left _ _) rfl
  | readVerify m booking | readReconcile client booking actorKind actorId now =>
    simp only [World.step, bind_eq_ok, pure_eq_ok] at h
    obtain ⟨review, -, rfl⟩ := h
    cases review with
    | nothing | proceed c => exact hgrows _ (.refl _) rfl
    | finalize issue => exact hgrows _ (List.subset_append_left _ _) rfl
  | book m header req creator draw =>
    simp only [World.step, bind_eq_ok, pure_eq_ok] at h
    obtain ⟨⟨attempt, db⟩, -, rfl⟩ := h
    cases attempt <;> exact hgrows _ (.refl _) rfl
  | issue c draw | cancel c draw =>
    simp only [World.step, bind_eq_ok, pure_eq_ok] at h
    obtain ⟨w₁, htake, ⟨attempt, db⟩, -, rfl⟩ := h
    obtain ⟨-, rfl⟩ := World.take_ok htake
    cases attempt <;> exact hgrows _ (.refl _) rfl
  | pnr c body now =>
    simp only [World.step, bind_eq_ok, pure_eq_ok] at h
    obtain ⟨w₁, htake, rfl⟩ := h
    obtain ⟨-, rfl⟩ := World.take_ok htake
    exact hgrows _ (.refl _) rfl
  | readIssue m header req portal | readCancel m header req =>
    simp only [World.step, bind_eq_ok, pure_eq_ok] at h
    obtain ⟨attempt, -, rfl⟩ := h
    cases attempt <;> exact hgrows _ (.refl _) rfl
  | readPnr client booking actorKind actorId now | resolve administrator booking input now
  | review a c draw | outside o =>
    simp only [World.step, bind_eq_ok, pure_eq_ok] at h
    obtain ⟨-, -, rfl⟩ := h
    exact hgrows _ (.refl _) rfl
  | dispatch j =>
    simp only [World.step, bind_eq_ok, ensure_eq_ok, exists_const, pure_eq_ok] at h
    obtain ⟨-, rfl⟩ := h
    exact hgrows _ (.refl _) rfl
  | answerFails j reply draw served =>
    simp only [World.step, bind_eq_ok, ensure_eq_ok, exists_const, pure_eq_ok] at h
    obtain ⟨-, -, rfl⟩ := h
    exact hgrows _ (.refl _) rfl
  | loseJob j | loseCall c =>
    cases h
    exact hgrows _ (.refl _) rfl

/-! ## Contradictions -/

theorem contradicted_mono {wallet wallet' : WalletDb} (h : wallet.audit <+: wallet'.audit)
    {issue : Uuid} (hc : contradicted wallet issue = true) : contradicted wallet' issue = true := by
  simp only [contradicted, List.any_eq_true] at hc ⊢
  obtain ⟨event, hevent, hmatches⟩ := hc
  exact ⟨event, h.subset hevent, hmatches⟩

theorem recordContradiction_contradicted (wallet : WalletDb) (issue operation : Uuid) :
    contradicted (Wallet.Ticket.recordContradiction wallet issue operation) issue = true := by
  unfold Wallet.Ticket.recordContradiction
  split
  · assumption
  · simp [contradicted, Wallet.Ticket.contradiction]

/-- Finalizing an issue with proof and a released hold puts the contradiction on record. -/
theorem finalize_contradicts (hs : w.Sound) {draw : Wallet.Draw}
    (h : w.step site (.finalize t.id draw) = .ok w') (ht : t ∈ w.db.issues)
    (ho : o ∈ w.db.wallet.operations) (hkind : o.subjectKind = .ticketIssue)
    (hsubject : o.subjectId = t.id) (hstate : o.state = .released)
    (hresolved : resolved w.db t = true) : contradicted w'.db.wallet t.id = true := by
  simp only [World.step, bind_eq_ok, ensure_eq_ok, exists_const, pure_eq_ok] at h
  obtain ⟨-, db, hfinalize, rfl⟩ := h
  obtain ⟨t₁, ht₁, hcases⟩ := finalize_ok hfinalize
  have hsame := hs.issue_unique (lookup_mem ht₁) ht (lookup_key ht₁)
  subst hsame
  obtain ⟨t₂, ht₂, hid₂, hrequired⟩ := hs.hold_issue ho hkind
  have hsame := hs.issue_unique ht₂ ht (hid₂.trans hsubject)
  subst hsame
  rcases hcases with ⟨hnot, -⟩ | ⟨-, o₁, ho₁, hcases⟩
  · rw [hrequired] at hnot
    cases hnot
  · obtain ⟨hmem, hkind₁, hsubject₁⟩ := issueOperation_spec ho₁
    have hsame := hs.hold_unique hmem ho (hkind₁.trans hkind.symm) (hsubject₁.trans hsubject.symm)
    subst hsame
    rcases hcases with ⟨-, hdb⟩ | ⟨hnot, -⟩ | ⟨hnot, -⟩
    · show contradicted db.wallet _ = true
      rw [hdb, if_pos hresolved]
      exact recordContradiction_contradicted _ _ _
    · exact absurd hstate hnot
    · exact absurd hstate hnot

/-! ## The invariant of holds -/

structure HoldsSound (w : World) : Prop where
  captured : ∀ o ∈ w.db.wallet.operations, o.subjectKind = .ticketIssue → o.state = .captured →
    ∀ t ∈ w.db.issues, t.id = o.subjectId → resolved w.db t = true
  released : ∀ o ∈ w.db.wallet.operations, o.subjectKind = .ticketIssue → o.state = .released →
    ∀ t ∈ w.db.issues, t.id = o.subjectId → resolved w.db t = true →
      contradicted w.db.wallet t.id = true ∨ t.id ∈ w.finalizing ∨ t.id ∈ w.interrupted

theorem HoldsSound.step (hs : w.Sound) (hh : HoldsSound w) (h : w.step site e = .ok w') :
    HoldsSound w' := by
  have hs' : w'.Sound := hs.step h
  have htransaction := step_transaction h
  have hlater := htransaction.later hs.wallet
  refine ⟨fun o' ho' hkind hstate t' ht' hid' => ?_, fun o' ho' hkind hstate t' ht' hid' hres' => ?_⟩
  · rcases htransaction.holds hs.wallet o' ho' hkind with ⟨o, ho, hidentity, hchange⟩ | ⟨hnew, -⟩
    · have hcolumns := Wallet.WalletOperation.of_identity hidentity
      have hkind₀ : o.subjectKind = .ticketIssue := by rw [← hkind, hcolumns]
      have hsubject : o'.subjectId = o.subjectId := by rw [hcolumns]
      have hunique : ∀ t : TicketIssue, t.id = o.subjectId → ∀ t'' ∈ w'.db.issues, t''.id = t.id → t'' = t' := by
        intro t hid t'' ht'' hid''
        exact hs'.issue_unique ht'' ht' (by rw [hid'', hid, hid', hsubject])
      cases hchange with
      | kept hkept =>
        obtain ⟨t, ht, hid, -⟩ := hs.hold_issue ho hkind₀
        exact hlater.resolved ht (hunique t hid)
          (hh.captured o ho hkind₀ (hkept.symm.trans hstate) t ht hid)
      | captured draw t he ht hid hresolved hopen hcaptured =>
        exact hlater.resolved ht (hunique t hid) hresolved
      | setAside hopen haside => rw [hstate] at haside; cases haside
      | released a proposal sha256 remarks draw p t he hreviewed hopen hreleased =>
        rw [hstate] at hreleased; cases hreleased
    · rw [hstate] at hnew; cases hnew
  · rcases htransaction.holds hs.wallet o' ho' hkind with ⟨o, ho, hidentity, hchange⟩ | ⟨hnew, -⟩
    · have hcolumns := Wallet.WalletOperation.of_identity hidentity
      have hkind₀ : o.subjectKind = .ticketIssue := by rw [← hkind, hcolumns]
      have hsubject : o'.subjectId = o.subjectId := by rw [hcolumns]
      obtain ⟨t, ht, hid, -⟩ := hs.hold_issue ho hkind₀
      have htt : t'.id = t.id := by rw [hid', hsubject, hid]
      rw [htt]
      rcases step_resolved hs h ht ht' htt hres' with hres | hpending
      · cases hchange with
        | kept hkept =>
          have hreleased := hkept.symm.trans hstate
          rcases hh.released o ho hkind₀ hreleased t ht hid hres with hrecorded | hrunning | hdied
          · exact .inl (contradicted_mono hlater.wallet.audit hrecorded)
          · rcases (step_finalizing h).1 _ hrunning with hrunning | hdied | ⟨draw, rfl⟩
            · exact .inr (.inl hrunning)
            · exact .inr (.inr hdied)
            · exact .inl (finalize_contradicts hs h ht ho hkind₀ hid.symm hreleased hres)
          · exact .inr (.inr ((step_finalizing h).2 hdied))
        | released a proposal sha256 remarks draw p t₀ he hreviewed hopen hreleased =>
          -- the review found no proof
          have hsame := hs.issue_unique ht hreviewed.issue (hid.trans hreviewed.subject.symm)
          subst hsame
          exact absurd hres (by rw [hreviewed.unresolved]; decide)
        | setAside hopen haside => rw [hstate] at haside; cases haside
        | captured draw t he ht hid hresolved hopen hcaptured =>
          rw [hstate] at hcaptured; cases hcaptured
      · exact .inr (.inl hpending)
    · rw [hstate] at hnew; cases hnew

theorem holdsSound_empty (policy : TierPolicy) : HoldsSound (World.empty policy) where
  captured _ ho := absurd ho List.not_mem_nil
  released _ ho := absurd ho List.not_mem_nil

theorem reachable_holds (h : (machine site).Reachable w) : w.Sound ∧ HoldsSound w := by
  refine h.invariant (I := fun w => w.Sound ∧ HoldsSound w) ?_ ?_
  · rintro _ ⟨policy, rfl⟩
    exact ⟨World.sound_empty policy, holdsSound_empty policy⟩
  · intro w e w' hs hstep
    exact ⟨hs.1.step hstep, hs.2.step hs.1 hstep⟩

/-! ## The history of a hold -/

/-- The transition that captured the hold: a finalization of its issue that found proof. -/
def CapturedBy (o : WalletOperation) (r : Transition World Event) : Prop :=
  (∃ draw, r.label = .finalize o.subjectId draw) ∧
    ∃ t ∈ r.before.db.issues, t.id = o.subjectId ∧ resolved r.before.db t = true

/-- The transition that released the hold: an approval that found nothing but the evidence of the
proposal. -/
def ReleasedBy (site : Site) (o : WalletOperation) (r : Transition World Event) : Prop :=
  ∃ a proposal sha256 remarks draw p t,
    r.label = .review a (.decide proposal "approved" sha256 remarks) draw ∧
    Reviewed site r.before.db r.after.db a o p t

theorem CapturedBy.of_identity {r : Transition World Event} (h : CapturedBy o r)
    (hidentity : o.identity = o'.identity) : CapturedBy o' r := by
  have hsubject : o'.subjectId = o.subjectId := by rw [Wallet.WalletOperation.of_identity hidentity]
  unfold CapturedBy
  rw [hsubject]
  exact h

theorem ReleasedBy.of_identity {r : Transition World Event} (h : ReleasedBy site o r)
    (hidentity : o.identity = o'.identity) : ReleasedBy site o' r := by
  have hcolumns := Wallet.WalletOperation.of_identity hidentity
  have hid : o'.id = o.id := by rw [hcolumns]
  have hsubject : o'.subjectId = o.subjectId := by rw [hcolumns]
  obtain ⟨a, proposal, sha256, remarks, draw, p, t, hlabel, hr⟩ := h
  refine ⟨a, proposal, sha256, remarks, draw, p, t, hlabel, ?_⟩
  exact { hr with
    operation := hr.operation.trans hid.symm
    subject := hr.subject.trans hsubject.symm }

/-- Every settled hold was settled by a transition of the run. -/
theorem run_settled {t : List (Transition World Event)} (h₀ : (machine site).init w)
    (hr : (machine site).Run w t w') :
    ∀ o ∈ w'.db.wallet.operations, o.subjectKind = .ticketIssue →
      (o.state = .captured → ∃ r ∈ t, CapturedBy o r) ∧
      (o.state = .released → ∃ r ∈ t, ReleasedBy site o r) := by
  induction hr with
  | nil =>
    obtain ⟨policy, rfl⟩ := h₀
    exact fun o ho => absurd ho List.not_mem_nil
  | @snoc w₁ w₂ t e hr hstep ih =>
    intro o' ho' hkind
    have hs : w₁.Sound := reachable_sound ⟨w, t, h₀, hr⟩
    rcases (step_transaction hstep).holds hs.wallet o' ho' hkind with
      ⟨o, ho, hidentity, hchange⟩ | ⟨hnew, -⟩
    · have hkind₀ : o.subjectKind = .ticketIssue := by
        rw [← hkind, Wallet.WalletOperation.of_identity hidentity]
      obtain ⟨hcaptured, hreleased⟩ := ih o ho hkind₀
      refine ⟨fun hstate => ?_, fun hstate => ?_⟩
      · cases hchange with
        | kept hkept =>
          obtain ⟨r, hmem, hby⟩ := hcaptured (hkept.symm.trans hstate)
          exact ⟨r, List.mem_append_left _ hmem, hby.of_identity hidentity⟩
        | captured draw i he hi hid hresolved hopen hafter =>
          have hby : CapturedBy o ⟨w₁, e, w₂⟩ := ⟨⟨draw, he⟩, i, hi, hid, hresolved⟩
          exact ⟨_, List.mem_append_right _ List.mem_cons_self, hby.of_identity hidentity⟩
        | setAside hopen hafter => rw [hstate] at hafter; cases hafter
        | released a proposal sha256 remarks draw p i he hreviewed hopen hafter =>
          rw [hstate] at hafter; cases hafter
      · cases hchange with
        | kept hkept =>
          obtain ⟨r, hmem, hby⟩ := hreleased (hkept.symm.trans hstate)
          exact ⟨r, List.mem_append_left _ hmem, hby.of_identity hidentity⟩
        | released a proposal sha256 remarks draw p i he hreviewed hopen hafter =>
          have hby : ReleasedBy site o ⟨w₁, e, w₂⟩ :=
            ⟨a, proposal, sha256, remarks, draw, p, i, he, hreviewed⟩
          exact ⟨_, List.mem_append_right _ List.mem_cons_self, hby.of_identity hidentity⟩
        | setAside hopen hafter => rw [hstate] at hafter; cases hafter
        | captured draw i he hi hid hresolved hopen hafter =>
          rw [hstate] at hafter; cases hafter
    · refine ⟨fun hstate => ?_, fun hstate => ?_⟩
      · rw [hstate] at hnew; cases hnew
      · rw [hstate] at hnew; cases hnew

/-- A settled hold keeps its state over any transition. -/
theorem settled_stays (hs : w.Sound) (h : w.step site e = .ok w')
    (ho : o ∈ w.db.wallet.operations) (ho' : o' ∈ w'.db.wallet.operations) (hid : o'.id = o.id)
    (hclosed : o.state.isOpen = false) : o'.state = o.state := by
  have hs' : w'.Sound := hs.step h
  obtain ⟨o'', ho'', hcontinues⟩ :=
    ((step_transaction h).later hs.wallet).wallet.history.operations o ho
  have hsame : o'' = o' :=
    hs'.wallet.keyed.operations.eq_of_key ho'' ho' (hcontinues.id.trans hid.symm)
  rw [← hsame]
  exact hcontinues.closed hclosed

/-! ## The result -/

/-- The safety of ticket holds over the run `t` to `w`. -/
structure HoldsSafe (site : Site) (t : List (Transition World Event)) (w : World) : Prop where
  /-- captured at most once, released at most once and never both -/
  once : ∀ o ∈ w.db.wallet.operations, o.subjectKind = .ticketIssue →
    Wallet.countOf .bookingConfirm o.id w.db.wallet.entries +
      Wallet.countOf .holdRelease o.id w.db.wallet.entries ≤ 1
  /-- an issue has one hold -/
  single : ∀ o ∈ w.db.wallet.operations, ∀ o' ∈ w.db.wallet.operations,
    o.subjectKind = .ticketIssue → o'.subjectKind = .ticketIssue → o.subjectId = o'.subjectId →
      o = o'
  /-- captured only with proof, which stays -/
  captured : ∀ o ∈ w.db.wallet.operations, o.subjectKind = .ticketIssue → o.state = .captured →
    (∃ r ∈ t, CapturedBy o r) ∧ ∃ i ∈ w.db.issues, i.id = o.subjectId ∧
      (i.state = .issued ∨ ∃ v ∈ w.db.verifications, v.issueId = i.id)
  /-- released only by review -/
  released : ∀ o ∈ w.db.wallet.operations, o.subjectKind = .ticketIssue → o.state = .released →
    ∃ r ∈ t, ReleasedBy site o r
  /-- what is settled stays settled -/
  stays : ∀ r ∈ t, ∀ o ∈ r.before.db.wallet.operations, ∀ o' ∈ r.after.db.wallet.operations,
    o'.id = o.id → o.state.isOpen = false → o'.state = o.state
  /-- proof that came after a release is on record once the call that saved it has finalized -/
  late : ∀ o ∈ w.db.wallet.operations, o.subjectKind = .ticketIssue → o.state = .released →
    ∀ i ∈ w.db.issues, i.id = o.subjectId →
      (i.state = .issued ∨ ∃ v ∈ w.db.verifications, v.issueId = i.id) →
      contradicted w.db.wallet i.id = true ∨ i.id ∈ w.finalizing ∨ i.id ∈ w.interrupted
  /-- and any finalization that finds both records it -/
  recorded : ∀ r ∈ t, ∀ issue draw, r.label = .finalize issue draw →
    ∀ o ∈ r.before.db.wallet.operations, o.subjectKind = .ticketIssue → o.subjectId = issue →
      o.state = .released → ∀ i ∈ r.before.db.issues, i.id = issue →
        resolved r.before.db i = true → contradicted r.after.db.wallet issue = true

/-- Over any run of workers, finalizations, evidence checks and reviewers a ticket hold is settled
at most once: captured with proof only, released by an independent review that found none, and late
proof of a released hold goes on record. -/
theorem ticket_hold_settlement_safety {t : List (Transition World Event)}
    (h₀ : (machine site).init w) (hr : (machine site).Run w t w') : HoldsSafe site t w' := by
  obtain ⟨hs, hh⟩ := reachable_holds ⟨w, t, h₀, hr⟩
  have hsettled := run_settled h₀ hr
  constructor
  case once =>
    intro o ho hkind
    have hsound := hs.wallet.operations o ho
    rw [hsound.confirms, hsound.releases]
    cases o.state <;> simp
  case single =>
    intro o ho o' ho' hkind hkind' hsubject
    exact hs.hold_unique ho ho' (hkind.trans hkind'.symm) hsubject
  case captured =>
    intro o ho hkind hstate
    obtain ⟨i, hi, hid, -⟩ := hs.hold_issue ho hkind
    exact ⟨(hsettled o ho hkind).1 hstate, i, hi, hid,
      resolved_iff.mp (hh.captured o ho hkind hstate i hi hid)⟩
  case released =>
    intro o ho hkind hstate
    exact (hsettled o ho hkind).2 hstate
  case stays =>
    intro r hmem o ho o' ho' hid hclosed
    obtain ⟨⟨t', hbefore⟩, hstep⟩ := hr.mem hmem
    exact settled_stays (reachable_sound ⟨w, t', h₀, hbefore⟩) hstep ho ho' hid hclosed
  case late =>
    intro o ho hkind hstate i hi hid hproof
    exact hh.released o ho hkind hstate i hi hid (resolved_iff.mpr hproof)
  case recorded =>
    intro r hmem issue draw hlabel o ho hkind hsubject hstate i hi hid hproof
    obtain ⟨⟨t', hbefore⟩, hstep⟩ := hr.mem hmem
    subst hid
    rw [hlabel] at hstep
    exact finalize_contradicts (reachable_sound ⟨w, t', h₀, hbefore⟩) hstep hi ho hkind hsubject
      hstate hproof

/-! ## A run with late proof -/

def sampleReviewSite : Site :=
  { sampleSite with parseUrl := fun s => if s = "https://h" then some ⟨"https", some "h", "", none⟩ else none }

def sampleReviewer (user : String) : Actor where
  externalUserId := user
  role := "admin"
  owner := none
  display := .obj []

def sampleSha : String := String.ofList (List.replicate 64 '0')

/-- The issue times out, and its hold is released. -/
def sampleReview : List (World → List Event) :=
  [fun w => w.outbox.inFlight.map fun j => .answer j .elapsed ⟨0, 0, 0, 4, 4⟩,
    fun w => w.finalizing.map fun i => .finalize i ⟨40, 5⟩,
    fun _ => [.review (sampleReviewer "user_a")
        (.propose 50 30 sampleSha ⟨"ref", "https://h", sampleSha, 4, true⟩) ⟨41, 6⟩,
      .review (sampleReviewer "user_b") (.decide 50 "approved" sampleSha "no ticket") ⟨42, 7⟩]]

/-- The supplier's reads show a ticket after all. -/
def sampleProof : List (World → List Event) :=
  [fun _ => [.readReconcile 1 20 "staff" 9 8],
    fun w => w.calls.filterMap fun c => match c with
      | .reconcile c => some (.reconcile c (.body sampleTicketed) (.body sampleReport) ⟨60, 61, 62, 9, 9⟩)
      | _ => none,
    fun w => w.finalizing.map fun i => .finalize i ⟨43, 10⟩]

set_option maxRecDepth 10000 in
/-- A hold that was released before the proof of its ticket came in: it stays released, and the
contradiction is on record. -/
theorem ticket_hold_settlement_safety_late : ∃ w t w', (machine sampleReviewSite).init w ∧
    (machine sampleReviewSite).Run w t w' ∧
    w'.db.wallet.operations.map (fun o => decide (o.state = .released)) = [true] ∧
    w'.db.verifications.length = 1 ∧ contradicted w'.db.wallet 30 = true ∧
    HoldsSafe sampleReviewSite t w' := by
  have hend : ((World.empty ⟨0, 0, 0⟩).drive sampleReviewSite
        (sampleBooking ++ sampleIssue ++ sampleReview ++ sampleProof)).map
      (fun w => (w.db.wallet.operations.map (fun o => decide (o.state = .released)),
        w.db.verifications.length, contradicted w.db.wallet 30)) = .ok ([true], 1, true) := by
    decide +kernel
  obtain ⟨w', hdrive, hw'⟩ := map_eq_ok.mp hend
  simp only [Prod.mk.injEq] at hw'
  obtain ⟨hreleased, hproof, hrecord⟩ := hw'
  have h₀ : (machine sampleReviewSite).init (World.empty ⟨0, 0, 0⟩) := ⟨_, rfl⟩
  obtain ⟨t, hr, -⟩ := run_of_drive (.nil _) hdrive
  exact ⟨_, t, w', h₀, hr, hreleased, hproof, hrecord, ticket_hold_settlement_safety h₀ hr⟩

end ShaponTravels.Booking
