import ShaponTravels.Booking.Dispatch

/-!
# Holds — what settles the hold of a ticket

Workers, finalizations, evidence checks and reviewers race over one issue.  A hold changes in three
ways only, and what each of them found in the database it ran in is what the safety of settlements
rests on.
-/

namespace ShaponTravels.Booking

open Library
open Wallet (Faithful WalletDb WalletOperation)
open Wallet.Ticket (resolved contradicted)
open Wallet.Nonissuance (Actor noTicketEvidence)

variable {site : Site} {db db' : Db} {w w' : World} {e : Event} {o o' : WalletOperation}
  {t t' : TicketIssue}

/-! ## Wallets whose ticket holds are the same -/

/-- Every ticket hold was there before, in the same state. -/
def SameHolds (wallet wallet' : WalletDb) : Prop :=
  ∀ o' ∈ wallet'.operations, o'.subjectKind = .ticketIssue →
    ∃ o ∈ wallet.operations, o.identity = o'.identity ∧ o'.state = o.state

theorem SameHolds.of_operations {wallet wallet' : WalletDb}
    (h : wallet'.operations = wallet.operations) : SameHolds wallet wallet' := by
  intro o' ho' _
  rw [h] at ho'
  exact ⟨o', ho', rfl, rfl⟩

/-- Rewriting operations of other subjects, or columns other than the state. -/
theorem SameHolds.of_modify {wallet wallet' : WalletDb} {id : Uuid}
    {f : WalletOperation → WalletOperation}
    (h : wallet'.operations = modify WalletOperation.id id f wallet.operations)
    (hf : ∀ o, (f o).identity = o.identity)
    (hstate : ∀ o ∈ wallet.operations, o.id = id → o.subjectKind = .ticketIssue →
      (f o).state = o.state) : SameHolds wallet wallet' := by
  intro o' ho' hkind
  rw [h] at ho'
  rcases modify_cases ho' with ⟨ho', -⟩ | ⟨o, ho, hid, rfl⟩
  · exact ⟨o', ho', rfl, rfl⟩
  · have hticket : o.subjectKind = .ticketIssue := by
      rw [Wallet.WalletOperation.of_identity (hf o)]
      exact hkind
    exact ⟨o, ho, (hf o).symm, hstate o ho hid hticket⟩

/-- What the rest of the application does to the wallet leaves ticket holds as they are. -/
theorem foreignCall_holds {call : Wallet.Call} {wallet wallet' : WalletDb}
    {subjects : List Wallet.FinancialSubject} (hf : Faithful wallet)
    (hforeign : foreignCall wallet call = true) (h : call.run site.pf subjects wallet = .ok wallet') :
    SameHolds wallet wallet' := by
  cases call with
  | provision owner currency display ownerId accountId =>
    obtain ⟨⟨account, db₁⟩, hcall, rfl⟩ := map_eq_ok.mp h
    exact .of_operations (Wallet.provision_operations hcall).1
  | posting p =>
    obtain ⟨⟨entry, db₁⟩, hcall, rfl⟩ := map_eq_ok.mp h
    rw [mapError_eq_ok] at hcall
    rcases Wallet.posting_operations hcall with hsame | ⟨type, htype, hoperations⟩
    · rw [hsame]
      exact .of_operations rfl
    · have hnotOnce : type.oncePerReservation = false := by
        simpa [foreignCall, htype] using hforeign
      cases hop : p.operation with
      | none =>
        rw [hop] at hoperations
        exact .of_operations hoperations
      | some id =>
        rw [hop] at hoperations
        refine .of_modify hoperations (Wallet.identity_recordOperation _ _) (fun o _ _ _ => ?_)
        cases type with
        | deposit | refund | manualCredit | manualDebit => rfl
        | bookingHold | bookingConfirm | holdRelease => cases hnotOnce
  | settle id capture actor role draw =>
    obtain ⟨⟨o, db₁⟩, hcall, rfl⟩ := map_eq_ok.mp h
    obtain ⟨current, -, -, -, ⟨hsame, -⟩ | ⟨-, hoperations⟩⟩ :=
      Wallet.settle_operations hf.toSound hcall
    · rw [hsame]
      exact .of_operations rfl
    · refine .of_modify hoperations (fun _ => rfl) (fun o ho hid hkind => ?_)
      simp only [foreignCall, List.all_eq_true, Bool.or_eq_true, decide_eq_true_eq] at hforeign
      rcases hforeign o ho with hne | hne
      · exact absurd hid hne
      · exact absurd hkind hne
  | markReconciliation id =>
    cases h
    refine .of_modify rfl (fun o => ?_) (fun o ho hid hkind => ?_)
    · split
      · rfl
      · rfl
    · simp only [foreignCall, List.all_eq_true, Bool.or_eq_true, decide_eq_true_eq] at hforeign
      rcases hforeign o ho with hne | hne
      · exact absurd hid hne
      · exact absurd hkind hne
  | reserve r draw =>
    obtain ⟨⟨o, db₁⟩, hcall, rfl⟩ := map_eq_ok.mp h
    obtain ⟨kind, c, hkind, -, -, ⟨hsame, -⟩ | ⟨-, -, hoperations, -⟩⟩ :=
      Wallet.reserve_operations hf.keyed hcall
    · rw [hsame]
      exact .of_operations rfl
    · intro o' ho' hticket
      rw [hoperations] at ho'
      rcases List.mem_append.mp ho' with ho' | ho'
      · exact ⟨o', ho', rfl, rfl⟩
      · -- the new operation is not of a ticket
        rw [List.mem_singleton.mp ho'] at hticket
        have hkind' : kind = .ticketIssue := hticket
        rw [hkind'] at hkind
        have htext : r.kind = "ticket_issue" := Wallet.SubjectKind.ofText?_eq_some.mp hkind
        simp [foreignCall, htext] at hforeign

/-! ## The changes of a hold -/

/-- The review that lets `a` release the hold `o`: somebody else's proposal, made for a snapshot that
is still the one of the evidence, of an issue with an unknown outcome and no sign of a ticket; and
the approval is on record with the release. -/
structure Reviewed (site : Site) (db db' : Db) (a : Actor) (o : WalletOperation) (p : Proposal)
    (t : TicketIssue) : Prop where
  proposal : p ∈ db.proposals
  operation : p.operationId = o.id
  issue : t ∈ db.issues
  subject : t.id = o.subjectId
  names : p.issueId = t.id
  independent : p.requestedBy ≠ a.externalUserId
  unknown : t.state = .outcomeUnknown
  noTicket : noTicketEvidence site.pf db t = true
  snapshot : ∃ view, Wallet.Nonissuance.inspect site db t = .ok view ∧ view.blocked = none ∧
    view.snapshotHash = p.snapshotHash
  approval : ∃ d ∈ db'.decisions, d.proposalId = p.id ∧ d.approved = true ∧
    d.reviewedBy = a.externalUserId

/-- What an event makes of a hold. -/
inductive HoldChange (site : Site) (db db' : Db) (e : Event) (o o' : WalletOperation) : Prop
  | kept : o'.state = o.state → HoldChange site db db' e o o'
  /-- a finalization without proof -/
  | setAside : o.state.isOpen = true → o'.state = .reconciliation → HoldChange site db db' e o o'
  /-- a finalization with proof -/
  | captured (draw : Wallet.Draw) (t : TicketIssue) : e = .finalize o.subjectId draw →
      t ∈ db.issues → t.id = o.subjectId → resolved db t = true → o.state.isOpen = true →
      o'.state = .captured → HoldChange site db db' e o o'
  /-- an approval -/
  | released (a : Actor) (proposal : Uuid) (sha256 remarks : String) (draw : Wallet.Draw)
      (p : Proposal) (t : TicketIssue) :
      e = .review a (.decide proposal "approved" sha256 remarks) draw →
      Reviewed site db db' a o p t → o.state.isOpen = true → o'.state = .released →
      HoldChange site db db' e o o'

/-- Where every ticket hold of a database comes from. -/
def HoldsChange (site : Site) (db db' : Db) (e : Event) : Prop :=
  ∀ o' ∈ db'.wallet.operations, o'.subjectKind = .ticketIssue →
    (∃ o ∈ db.wallet.operations, o.identity = o'.identity ∧ HoldChange site db db' e o o') ∨
      (o'.state = .reserved ∧ ∀ o ∈ db.wallet.operations, o.id ≠ o'.id)

theorem SameHolds.change (h : SameHolds db.wallet db'.wallet) : HoldsChange site db db' e := by
  intro o' ho' hkind
  obtain ⟨o, ho, hidentity, hstate⟩ := h o' ho' hkind
  exact .inl ⟨o, ho, hidentity, .kept hstate⟩

theorem HoldsChange.of_operations (h : db'.wallet.operations = db.wallet.operations) :
    HoldsChange site db db' e :=
  (SameHolds.of_operations h).change

/-- The operation of an issue, as the finalization finds it. -/
theorem issueOperation_spec {wallet : WalletDb} {issue : Uuid}
    (h : Wallet.Ticket.issueOperation wallet issue = some o) :
    o ∈ wallet.operations ∧ o.subjectKind = .ticketIssue ∧ o.subjectId = issue := by
  have hkey := lookup_key h
  simp only [Prod.mk.injEq] at hkey
  exact ⟨lookup_mem h, hkey⟩

theorem finalize_holds {issue : Uuid} {draw : Wallet.Draw} (hf : Faithful db.wallet)
    (h : Wallet.Ticket.finalize site.pf db issue draw = .ok db') :
    HoldsChange site db db' (.finalize issue draw) := by
  obtain ⟨t, ht, ⟨-, rfl⟩ | ⟨-, o, ho, ⟨-, hdb⟩ | ⟨-, hresolved, o₁, wallet, hsettle, rfl⟩ |
    ⟨-, -, rfl⟩⟩⟩ := finalize_ok h
  · exact .of_operations rfl
  · refine .of_operations ?_
    rw [hdb]
    split
    · unfold Wallet.Ticket.recordContradiction
      split
      · rfl
      · rfl
    · rfl
  · obtain ⟨hmem, hkind, hsubject⟩ := issueOperation_spec ho
    obtain ⟨current, hcurrent, hid, -, ⟨hsame, -⟩ | ⟨hopen, hoperations⟩⟩ :=
      Wallet.settle_operations hf.toSound hsettle
    · exact .of_operations (by rw [hsame])
    · have hcurrent' := hf.keyed.operations.eq_of_key hcurrent hmem hid
      subst hcurrent'
      intro o' ho' _
      have ho'' : o' ∈ wallet.operations := ho'
      rw [hoperations] at ho''
      rcases modify_cases ho'' with ⟨ho'', -⟩ | ⟨o₀, ho₀, hid₀, rfl⟩
      · exact .inl ⟨o', ho'', rfl, .kept rfl⟩
      · have hsame := hf.keyed.operations.eq_of_key ho₀ hmem hid₀
        subst hsame
        exact .inl ⟨o₀, ho₀, rfl, .captured draw t (by rw [hsubject]) (lookup_mem ht)
          ((lookup_key ht).trans hsubject.symm) hresolved hopen rfl⟩
  · intro o' ho' _
    rcases modify_cases ho' with ⟨ho', -⟩ | ⟨o₀, ho₀, -, rfl⟩
    · exact .inl ⟨o', ho', rfl, .kept rfl⟩
    · refine .inl ⟨o₀, ho₀, ?_, ?_⟩
      · split
        · rfl
        · rfl
      · by_cases hstate : o₀.state = .reserved
        · exact .setAside (by rw [hstate]; rfl) (by rw [if_pos hstate])
        · exact .kept (by rw [if_neg hstate])

/-- What the trigger on a decision lets through. -/
theorem integrity_approved (db : Db) {pf : Platform} {d : Decision} {p : Proposal}
    (hp : lookup Proposal.id d.proposalId db.proposals = some p)
    (ht : lookup TicketIssue.id p.issueId db.issues = some t) (happroved : d.approved = true)
    (h : Wallet.Nonissuance.integrity pf db d = true) :
    noTicketEvidence pf db t = true ∧ ∃ o,
      lookup WalletOperation.id p.operationId db.wallet.operations = some o ∧
        o.subjectKind = .ticketIssue ∧ o.subjectId = t.id := by
  simp only [Wallet.Nonissuance.integrity, hp, ht, happroved] at h
  cases ho : lookup WalletOperation.id p.operationId db.wallet.operations with
  | none => simp [ho] at h
  | some o =>
    simp only [ho, Bool.and_eq_true, decide_eq_true_eq, Bool.not_true, Bool.false_or] at h
    obtain ⟨-, ⟨⟨⟨⟨⟨-, hnone⟩, hkind⟩, hsubject⟩, -⟩, -⟩, -⟩ := h
    exact ⟨hnone, o, rfl, hkind, hsubject⟩

theorem review_holds {a : Actor} {c : Wallet.Nonissuance.Command} {draw : Wallet.Draw}
    (hf : Faithful db.wallet) (h : Wallet.Nonissuance.handle site db a c draw = .ok db') :
    HoldsChange site db db' (.review a c draw) := by
  simp only [Wallet.Nonissuance.handle, bind_eq_ok] at h
  obtain ⟨-, -, -, -, h⟩ := h
  cases c with
  | propose id issue snapshotHash evidence =>
    rcases propose_ok h with rfl | ⟨p, hp⟩
    · exact .of_operations rfl
    · obtain ⟨events, rfl⟩ := hp.done
      exact .of_operations rfl
  | decide proposal decision sha256 remarks =>
    rcases decide_ok h with rfl | ⟨p, t, d, settled, hproposal, hdecision, hd⟩
    · exact .of_operations rfl
    · obtain ⟨events, rfl⟩ := hd.done
      cases happroved : d.approved with
      | false =>
        rw [hd.rejection happroved]
        exact .of_operations rfl
      | true =>
        obtain ⟨view, o₁, wallet, hview, hblocked, hhash, hsettle, rfl⟩ := hd.approval happroved
        obtain ⟨hnone, o₂, ho₂, -, hsubject⟩ := integrity_approved
          { db with wallet := wallet, decisions := db.decisions ++ [d] } hd.proposal hd.issue
          happroved hd.integrity
        obtain ⟨current, hcurrent, hid, -, ⟨hsame, -⟩ | ⟨hopen, hoperations⟩⟩ :=
          Wallet.settle_operations hf.toSound hsettle
        · exact .of_operations (by rw [hsame]; rfl)
        · intro o' ho' _
          have ho'' : o' ∈ wallet.operations := ho'
          rw [hoperations] at ho''
          rcases modify_cases ho'' with ⟨ho'', -⟩ | ⟨o₀, ho₀, hid₀, rfl⟩
          · exact .inl ⟨o', ho'', rfl, .kept rfl⟩
          · have hsame := hf.keyed.operations.eq_of_key ho₀ hcurrent (hid₀.trans hid.symm)
            subst hsame
            -- the operation the trigger looked at is the released one
            obtain ⟨o₃, ho₃, hidentity⟩ := Wallet.mem_identities
              (Wallet.settle_identities hf.toSound hsettle) (lookup_mem ho₂)
            have hcolumns := Wallet.WalletOperation.of_identity hidentity
            have hid₃ : o₃.id = o₂.id := by rw [hcolumns]
            have hsubject₃ : o₃.subjectId = o₂.subjectId := by rw [hcolumns]
            have hop : o₃ = o₀ := hf.keyed.operations.eq_of_key ho₃ ho₀
              (hid₃.trans ((lookup_key ho₂).trans hid₀.symm))
            rw [hop] at hsubject₃
            refine .inl ⟨o₀, ho₀, rfl, .released a proposal sha256 remarks draw p t
              (by rw [hdecision.mp happroved]) ?_ hopen rfl⟩
            exact
              { proposal := lookup_mem hd.proposal
                operation := hid₀.symm
                issue := lookup_mem hd.issue
                subject := hsubject.symm.trans hsubject₃.symm
                names := (lookup_key hd.issue).symm
                independent := hd.independent
                unknown := by
                  simp only [noTicketEvidence, Bool.and_eq_true, decide_eq_true_eq] at hnone
                  exact hnone.1.1.1.1
                noTicket := hnone
                snapshot := ⟨view, hview, hblocked, hhash⟩
                approval := ⟨d, List.mem_append_right _ (by simp), (lookup_key hd.proposal).symm,
                  happroved, hd.reviewedBy⟩ }

theorem issue_holds {c : IssueCall} {attempt : Attempt TicketIssue Job} {draw : Draws}
    (hf : Faithful db.wallet) (h : commitIssue site db c draw = .ok (attempt, db')) :
    HoldsChange site db db' e := by
  rcases commitIssue_ok h with ⟨old, -, rfl⟩ | ⟨-, t, hissued⟩
  · exact .of_operations rfl
  · obtain ⟨db₁, db₂, events, hinserted, hreserved, -, rfl⟩ := hissued.done
    obtain ⟨-, -, -, -, r, -, -, a, wallet, o, payable, -, hreserve, rfl⟩ := hreserved.payable
    have hrows := hinserted.rows
    subst hrows
    obtain ⟨kind, cur, -, -, -, ⟨hsame, -⟩ | ⟨hnew, -, hoperations, -⟩⟩ :=
      Wallet.reserve_operations hf.keyed hreserve
    · exact .of_operations (by rw [hsame]; rfl)
    · intro o' ho' _
      have ho'' : o' ∈ wallet.operations := ho'
      rw [hoperations] at ho''
      rcases List.mem_append.mp ho'' with ho'' | ho''
      · exact .inl ⟨o', ho'', rfl, .kept rfl⟩
      · rw [List.mem_singleton.mp ho'']
        exact .inr ⟨rfl, hnew⟩

theorem outside_holds {o : Outside} (hf : Faithful db.wallet) (h : o.run site db = .ok db') :
    SameHolds db.wallet db'.wallet := by
  cases o with
  | clients rows | identities rows | drafts rows | tierPolicy policy | connections rows | searches rows
  | offers rows | accept price now =>
    cases h
    exact .of_operations rfl
  | reprice r | importBooking s =>
    simp only [Outside.run, bind_eq_ok, ensure_eq_ok, exists_const, pure_eq_ok] at h
    obtain ⟨-, rfl⟩ := h
    exact .of_operations rfl
  | report client booking body response requested draw =>
    obtain ⟨reports, events, rfl⟩ := saveReport_ok h
    exact .of_operations rfl
  | linkClient client account =>
    simp only [Outside.run, bind_eq_ok, pure_eq_ok] at h
    obtain ⟨wallet, hlink, rfl⟩ := h
    obtain ⟨links, rfl⟩ := Wallet.linkClient_ok hlink
    exact .of_operations rfl
  | wallet call =>
    simp only [Outside.run, bind_eq_ok, ensure_eq_ok, exists_const, pure_eq_ok] at h
    obtain ⟨hforeign, wallet, hcall, rfl⟩ := h
    exact foreignCall_holds hf hforeign hcall

theorem insertVerification_operations (db : Db) (v : TicketVerification) :
    (insertVerification db v).wallet.operations = db.wallet.operations := by
  unfold insertVerification
  split
  · rfl
  · rfl

theorem recordOutcome_wallet (db : Db) (booking : Uuid) (response : Option Value) (now : Int)
    (outcome late : FlightBooking → FlightBooking) :
    (recordOutcome db booking response now outcome late).wallet = db.wallet := by
  unfold recordOutcome
  split
  · rfl
  · rfl

theorem answer_operations {j : Job} {reply : SupplierReply} {draw : Draws}
    (h : saveAnswer site db j reply draw = .ok db') :
    db'.wallet.operations = db.wallet.operations := by
  unfold saveAnswer at h
  split at h
  · obtain ⟨-, events, rfl⟩ := saveHold_ok h
    show (recordOutcome _ _ _ _ _ _).wallet.operations = _
    rw [recordOutcome_wallet]
  · obtain ⟨saved, events, rfl, ⟨-, db₁, hinserted, rfl⟩ | ⟨-, rfl⟩⟩ := saveDirect_ok h
    · rw [hinserted.rows]
      show (recordOutcome _ _ _ _ _ _).wallet.operations = _
      rw [recordOutcome_wallet]
    · show (recordOutcome _ _ _ _ _ _).wallet.operations = _
      rw [recordOutcome_wallet]
  · obtain ⟨events, rfl⟩ := saveIssue_ok h
    rfl
  · cases h
    rfl

/-- Every transaction changes ticket holds in one of the three ways. -/
theorem Transaction.holds (hf : Faithful db.wallet) (h : Transaction site db e db') :
    HoldsChange site db db' e := by
  cases h with
  | nothing => exact .of_operations rfl
  | book h =>
    obtain ⟨key, -, ⟨previous, -, -, -, rfl⟩ | ⟨-, q, b, db₁, events, -, hinserted, -, rfl⟩⟩ :=
      bookOwned_ok h
    · exact .of_operations rfl
    · exact .of_operations (by rw [hinserted.rows]; rfl)
  | resolve h =>
    obtain ⟨b, response, resolutions, events, -, -, rfl⟩ := resolve_ok h
    exact .of_operations rfl
  | issue h => exact issue_holds hf h
  | cancel h =>
    rcases commitCancel_ok h with ⟨old, -, rfl⟩ | ⟨-, x, hreserved⟩
    · exact .of_operations rfl
    · obtain ⟨events, rfl⟩ := hreserved.done
      exact .of_operations rfl
  | pnr c body now =>
    obtain ⟨observations, events, hsaved⟩ := savePnr_logged site db c body now
    exact .of_operations (by rw [hsaved]; rfl)
  | verify c now =>
    obtain ⟨events, hsaved⟩ := saveVerification_logged db c now
    rw [hsaved]
    exact .of_operations (insertVerification_operations _ _)
  | reconcile h =>
    obtain ⟨rows, verification, events, rfl⟩ := saveReconciliation_ok h
    cases verification with
    | none => exact .of_operations rfl
    | some response => exact .of_operations (insertVerification_operations _ _)
  | answer h => exact .of_operations (answer_operations h)
  | finalize h => exact finalize_holds hf h
  | review h => exact review_holds hf h
  | outside h => exact (outside_holds hf h).change

end ShaponTravels.Booking
