import ShaponTravels.Booking.Settlement

/-!
# TicketEvidence — the response of an issue and the receipt of a reconciliation

A worker and a reconciliation store evidence for the same issue.  The reconciliation compares its
receipt with the response that is stored by then; the worker keeps its own outcome.
-/

namespace ShaponTravels.Booking

open Library
open Wallet.Ticket (resolved)

variable {site : Site} {db db' : Db} {w w' : World} {e : Event} {i i' : TicketIssue}
  {v v' : TicketVerification} {t : List (Transition World Event)}

/-! ## Sets of ticket numbers -/

/-- Two documents carry the same set of ticket numbers. -/
def sameTickets (a b : Value) : Bool :=
  match collectNumbers a, collectNumbers b with
  | some xs, some ys => xs.all (· ∈ ys) && ys.all (· ∈ xs)
  | _, _ => false

/-- A document that matches a receipt carries no numbers or those of the receipt. -/
theorem pnrTicketsMatch_iff {a b : Value} : pnrTicketsMatch a b = true ↔
    (collectNumbers a = some [] ∧ (collectNumbers b).isSome) ∨ sameTickets a b = true := by
  unfold pnrTicketsMatch sameTickets
  cases collectNumbers a with
  | none => simp
  | some xs =>
    cases collectNumbers b with
    | none => simp
    | some ys => simp

/-! ## What a reconciliation stores -/

/-- The outcome of a reconciliation: the issue it found and the row it added. -/
structure Reconciled (site : Site) (db : Db) (c : ReconcileCall) (pnr report : SupplierReply)
    (now : Int) (i : TicketIssue) (row : TicketReconciliation) (db' : Db) : Prop where
  issue : lookup TicketIssue.id c.issue db.issues = some i
  stored : row ∈ db'.reconciliations
  names : row.issueId = c.issue
  accepted : ∀ receipt ∈ row.publicResponse, (c.finding site pnr report).response = some receipt ∧
    conflicting i.originalResponse receipt = false ∧ resolved db i = false
  verified : row.result = .verified → row.publicResponse.isSome
  refused : ∀ receipt, (c.finding site pnr report).response = some receipt →
    conflicting i.originalResponse receipt = true → row.errorCode.isSome
  missing : (c.finding site pnr report).response = none → row.errorCode.isSome
  issues : db'.issues = db.issues
  verifications : db'.verifications = match row.publicResponse with
    | some receipt => (insertVerification db ⟨c.issue, receipt, c.client, now⟩).verifications
    | none => db.verifications

/-- A finding without a response says what is wrong. -/
theorem finding_code {c : ReconcileCall} {pnr report : SupplierReply}
    (h : (c.finding site pnr report).response = none) :
    (c.finding site pnr report).code.isSome := by
  unfold ReconcileCall.finding at h ⊢
  split
  · rfl
  · rename_i body hbody
    rw [hbody] at h
    dsimp only at h
    split
    · rename_i hverified
      rw [if_pos hverified] at h
      split
      · rfl
      · rename_i r hr
        rw [hr] at h
        dsimp only at h ⊢
        rw [h]
        rfl
    · rfl

theorem mem_insertVerification_reconciliations {row : TicketReconciliation} (v : TicketVerification)
    (h : row ∈ db.reconciliations) : row ∈ (insertVerification db v).reconciliations := by
  unfold insertVerification
  split
  · exact h
  · exact h

theorem insertVerification_verifications (db db' : Db) (v : TicketVerification)
    (h : db'.verifications = db.verifications) :
    (insertVerification db' v).verifications = (insertVerification db v).verifications := by
  unfold insertVerification
  rw [h]
  split
  · exact h
  · rfl

theorem saveReconciliation_reconciled {c : ReconcileCall} {pnr report : SupplierReply}
    {draw : Draws} (h : saveReconciliation site db c pnr report draw = .ok db') :
    ∃ i row, Reconciled site db c pnr report draw.now i row db' := by
  simp only [saveReconciliation, bind_eq_ok, fetch_eq_ok, ensure_eq_ok, exists_const,
    pure_eq_ok] at h
  obtain ⟨i, hi, -, rfl⟩ := h
  -- no receipt, one that clashes with the stored success, one that comes after the issue was resolved, or evidence
  cases hfound : (c.finding site pnr report).response with
  | none =>
    have hcode := finding_code hfound
    have hnot : (Option.any (conflicting i.originalResponse) none = true) = False := by simp
    simp only [hnot, if_false, false_or]
    have hsame : (if resolved db i = true then none else (none : Option Value)) = none := by
      split <;> rfl
    rw [hsame]
    refine ⟨i, _, hi, List.mem_append_right _ (List.mem_singleton.mpr rfl), rfl, ?_, ?_, ?_, ?_,
      rfl, rfl⟩
    · intro receipt hreceipt
      cases hreceipt
    · dsimp only
      split
      · intro hresult; cases hresult
      · intro hresult; cases hresult
    · intro receipt hreceipt
      rw [hfound] at hreceipt
      cases hreceipt
    · exact fun _ => hcode
  | some receipt =>
    have hnot : ∀ {other}, (c.finding site pnr report).response = some other → other = receipt := by
      intro other hother
      rw [hfound] at hother
      exact (Option.some.inj hother).symm
    cases hclash : conflicting i.originalResponse receipt with
    | true =>
      have hany : (some receipt).any (conflicting i.originalResponse) = true := hclash
      simp only [hany, if_true, true_or]
      refine ⟨i, _, hi, List.mem_append_right _ (List.mem_singleton.mpr rfl), rfl, ?_, ?_, ?_, ?_,
        rfl, rfl⟩
      · intro other hother
        cases hother
      · dsimp only
        split
        · intro hresult; cases hresult
        · intro hresult; cases hresult
      · exact fun _ _ _ => rfl
      · intro hnone
        rw [hfound] at hnone
        cases hnone
    | false =>
      have hany : ((some receipt).any (conflicting i.originalResponse) = true) = False := by
        simp [hclash]
      simp only [hany, if_false, false_or]
      cases hresolved : resolved db i with
      | true =>
        refine ⟨i, _, hi, List.mem_append_right _ (List.mem_singleton.mpr rfl), rfl, ?_, ?_, ?_, ?_,
          rfl, rfl⟩
        · intro other hother
          cases hother
        · intro hresult
          cases hresult
        · intro other hother hconflict
          rw [hnot hother, hclash] at hconflict
          cases hconflict
        · intro hnone
          rw [hfound] at hnone
          cases hnone
      | false =>
        refine ⟨i, _, hi, mem_insertVerification_reconciliations _ (List.mem_append_right _
          (List.mem_singleton.mpr rfl)), rfl, ?_, ?_, ?_, ?_, insertVerification_issues _, ?_⟩
        · intro other hother
          cases hother
          exact ⟨hfound, hclash, hresolved⟩
        · exact fun _ => rfl
        · intro other hother hconflict
          rw [hnot hother, hclash] at hconflict
          cases hconflict
        · intro hnone
          rw [hfound] at hnone
          cases hnone
        · exact insertVerification_verifications db _ _ rfl

/-! ## The invariant of responses and verifications -/

/-- A pending issue has no response, and an issue has one verification at most. -/
structure EvidenceSound (db : Db) : Prop where
  pending : ∀ i ∈ db.issues, i.state = .pending → i.originalResponse = none
  single : KeyUnique TicketVerification.issueId db.verifications

theorem insertVerification_single (h : KeyUnique TicketVerification.issueId db.verifications) :
    KeyUnique TicketVerification.issueId (insertVerification db v).verifications := by
  unfold insertVerification
  split
  · exact h
  · rename_i hnone
    refine keyUnique_concat.mpr ⟨h, fun v' hv' hissue => hnone ?_⟩
    exact List.any_eq_true.mpr ⟨v', hv', by simpa using hissue⟩

theorem issueOutcome_pending {j : Job} {reply : SupplierReply} {now : Int} :
    (issueOutcome site j reply now i).state ≠ .pending := by
  unfold issueOutcome
  dsimp only
  split
  · dsimp only
    split
    · exact fun h => nomatch h
    · exact fun h => nomatch h
  · assumption

theorem answer_evidence (hs : EvidenceSound db) {j : Job} {reply : SupplierReply} {draw : Draws}
    (h : saveAnswer site db j reply draw = .ok db') : EvidenceSound db' := by
  have hrecord : ∀ (now : Int) (outcome late : FlightBooking → FlightBooking),
      EvidenceSound (recordOutcome db j.booking reply.body? now outcome late) := by
    intro now outcome late
    unfold recordOutcome
    split
    · exact ⟨hs.pending, hs.single⟩
    · exact ⟨hs.pending, hs.single⟩
  unfold saveAnswer at h
  split at h
  · obtain ⟨-, events, rfl⟩ := saveHold_ok h
    have hsaved := hrecord draw.now (holdOutcome site j reply) (holdLate reply)
    exact ⟨hsaved.pending, hsaved.single⟩
  · obtain ⟨saved, events, hsaved, hdone⟩ := saveDirect_ok h
    have hsound : EvidenceSound saved := by
      rw [hsaved]
      exact hrecord _ _ _
    rcases hdone with ⟨-, db₁, hinserted, rfl⟩ | ⟨-, rfl⟩
    · have hrows := hinserted.rows
      subst hrows
      refine ⟨fun i hi hpending => ?_, hsound.single⟩
      rcases List.mem_append.mp hi with hi | hi
      · exact hsound.pending i hi hpending
      · -- the receipt of a direct issue is never pending
        rw [List.mem_singleton.mp hi] at hpending
        simp only [directIssue] at hpending
        split at hpending
        · cases hpending
        · cases hpending
    · exact ⟨hsound.pending, hsound.single⟩
  · obtain ⟨events, rfl⟩ := saveIssue_ok h
    refine ⟨fun i hi hpending => ?_, hs.single⟩
    rcases modify_cases hi with ⟨hi, -⟩ | ⟨i₀, hi₀, -, rfl⟩
    · exact hs.pending i hi hpending
    · exact absurd hpending issueOutcome_pending
  · cases h
    exact ⟨hs.pending, hs.single⟩

theorem Transaction.evidence (hs : EvidenceSound db) (h : Transaction site db e db') :
    EvidenceSound db' := by
  cases hproves : e.provesNothing with
  | true =>
    obtain ⟨hissues, hverifications⟩ := h.rows hproves
    refine ⟨fun i hi hpending => ?_, by rw [hverifications]; exact hs.single⟩
    rcases hissues i hi with hi | ⟨-, hnone⟩
    · exact hs.pending i hi hpending
    · exact hnone
  | false =>
    cases h with
    | nothing => exact hs
    | verify c now =>
      obtain ⟨events, hsaved⟩ := saveVerification_logged db c now
      rw [hsaved]
      refine ⟨fun i hi => hs.pending i ?_, insertVerification_single hs.single⟩
      rw [← insertVerification_issues ⟨c.issue, c.response, c.client, now⟩]
      exact hi
    | reconcile h =>
      obtain ⟨i, row, hrow⟩ := saveReconciliation_reconciled h
      refine ⟨by rw [hrow.issues]; exact hs.pending, ?_⟩
      rw [hrow.verifications]
      split
      · exact insertVerification_single hs.single
      · exact hs.single
    | answer h => exact answer_evidence hs h
    | _ => cases hproves

theorem reachable_evidence (h : (machine site).Reachable w) : w.Sound ∧ EvidenceSound w.db := by
  refine h.invariant (I := fun w => w.Sound ∧ EvidenceSound w.db) ?_ ?_
  · rintro _ ⟨policy, rfl⟩
    exact ⟨World.sound_empty policy, fun _ hi => absurd hi List.not_mem_nil, .nil⟩
  · intro w e w' hs hstep
    exact ⟨hs.1.step hstep, (step_transaction hstep).evidence hs.2⟩

/-- Verifications stay, and so do issues that are no longer pending. -/
theorem run_keeps (hs : w.Sound) (hr : (machine site).Run w t w') :
    w.db.verifications ⊆ w'.db.verifications ∧
      ∀ i ∈ w.db.issues, i.state ≠ .pending → i ∈ w'.db.issues := by
  have hkept := hr.invariant (I := fun x => x.Sound ∧ w.db.verifications ⊆ x.db.verifications ∧
    ∀ i ∈ w.db.issues, i.state ≠ .pending → i ∈ x.db.issues) ?_
    ⟨hs, List.Subset.refl _, fun i hi _ => hi⟩
  · exact hkept.2
  · intro x e x' hx hstep
    obtain ⟨hsound, hverifications, hissue⟩ := hx
    have hlater := (step_transaction hstep).later hsound.wallet
    refine ⟨hsound.step hstep, List.Subset.trans hverifications hlater.verifications, ?_⟩
    intro i hi hstate
    obtain ⟨i', hi', -, hfinished⟩ := hlater.issues i (hissue i hi hstate)
    rw [← hfinished hstate]
    exact hi'

/-! ## One reconciliation -/

/-- The receipt a reconciliation has found is the one its report gives. -/
theorem finding_recover {c : ReconcileCall} {pnr report : SupplierReply} {receipt : Value}
    (h : (c.finding site pnr report).response = some receipt) :
    ∃ body, report.body? = some body ∧
      site.recover body c.request c.payload c.quote c.booking c.issue = some receipt := by
  unfold ReconcileCall.finding at h
  split at h
  · cases h
  · split at h
    · split at h
      · cases h
      · rename_i r hr
        simp only [Option.filter_eq_some_iff] at h
        refine ⟨r, ?_, h.1⟩
        cases report with
        | body v =>
          cases hr
          rfl
        | failed e => cases e <;> cases hr
        | elapsed => cases hr
    · cases h

theorem conflicting_eq_false {latest : Option Value} {original receipt : Value}
    (h : conflicting latest receipt = false) (hlatest : latest = some original)
    (hsuccess : isSuccess original = true) : pnrTicketsMatch original receipt = true := by
  subst hlatest
  simpa [conflicting, hsuccess] using h

/-! ## The result -/

/-- The agreement of responses and receipts over the run `t` to `w`. -/
structure EvidenceAgrees (site : Site) (t : List (Transition World Event)) (w : World) : Prop where
  /-- an issue has one verification -/
  single : KeyUnique TicketVerification.issueId w.db.verifications
  /-- which stays -/
  kept : ∀ r ∈ t, r.after.db.verifications ⊆ w.db.verifications
  /-- a receipt agrees with the response that was stored before it, which stays as well -/
  agrees : ∀ r ∈ t, ∀ c pnr report draw, r.label = .reconcile c pnr report draw →
    ∀ v ∈ r.after.db.verifications, v ∉ r.before.db.verifications →
    ∀ i ∈ r.before.db.issues, i.id = v.issueId →
    ∀ original, i.originalResponse = some original → i ∈ w.db.issues ∧
      (isSuccess original = true →
        collectNumbers original = some [] ∨ sameTickets original v.publicResponse = true)
  /-- a receipt that disagrees is refused with an error code -/
  refused : ∀ r ∈ t, ∀ c pnr report draw, r.label = .reconcile c pnr report draw →
    ∀ i ∈ r.before.db.issues, i.id = c.issue →
    ∀ original, i.originalResponse = some original → isSuccess original = true →
    ∀ body receipt, report.body? = some body →
      site.recover body c.request c.payload c.quote c.booking c.issue = some receipt →
      pnrTicketsMatch original receipt = false →
    r.after.db.verifications = r.before.db.verifications ∧
      ∃ row ∈ r.after.db.reconciliations, row.issueId = c.issue ∧ row.publicResponse = none ∧
        row.result ≠ .verified ∧ row.errorCode.isSome

/-- The transaction of a reconciliation that is a transition of a run. -/
theorem step_reconciled {c : ReconcileCall} {pnr report : SupplierReply} {draw : Draws}
    (h : w.step site (.reconcile c pnr report draw) = .ok w') :
    ∃ i row, Reconciled site w.db c pnr report draw.now i row w'.db := by
  simp only [World.step, bind_eq_ok, pure_eq_ok] at h
  obtain ⟨w₁, htake, db, hsave, rfl⟩ := h
  obtain ⟨-, rfl⟩ := World.take_ok htake
  exact saveReconciliation_reconciled hsave

/-- Over any run of workers, evidence checks and reconciliations an issue has one verification, which
stays; a reconciliation accepts no receipt that disagrees with a success that is stored by then, and
says so. -/
theorem ticket_evidence_agreement (h₀ : (machine site).init w)
    (hr : (machine site).Run w t w') : EvidenceAgrees site t w' := by
  constructor
  case single => exact (reachable_evidence ⟨w, t, h₀, hr⟩).2.single
  case kept =>
    intro r hmem
    obtain ⟨t₁, t₂, -, hbefore, hstep, hafter⟩ := hr.split hmem
    have hs : r.after.Sound := reachable_sound ⟨w, _, h₀, hbefore.snoc hstep⟩
    exact (run_keeps hs hafter).1
  case agrees =>
    intro r hmem c pnr report draw hlabel v hv hnew i hi hid original horiginal
    obtain ⟨t₁, t₂, -, hbefore, hstep, hafter⟩ := hr.split hmem
    obtain ⟨hs, he⟩ := reachable_evidence ⟨w, t₁, h₀, hbefore⟩
    -- an issue with a response is no longer pending, so no later event touches its response
    have hstate : i.state ≠ .pending := by
      intro hpending
      rw [he.pending i hi hpending] at horiginal
      cases horiginal
    refine ⟨(run_keeps hs (.cons hstep hafter)).2 i hi hstate, fun hsuccess => ?_⟩
    rw [hlabel] at hstep
    obtain ⟨i', row, hrow⟩ := step_reconciled hstep
    rw [hrow.verifications] at hv
    cases hreceipt : row.publicResponse with
    | none =>
      rw [hreceipt] at hv
      exact absurd hv hnew
    | some receipt =>
      rw [hreceipt] at hv
      rcases insertVerification_mem hv with hv | rfl
      · exact absurd hv hnew
      · obtain ⟨-, hclash, -⟩ := hrow.accepted receipt hreceipt
        have hsame := hs.issue_unique (lookup_mem hrow.issue) hi ((lookup_key hrow.issue).trans hid.symm)
        subst hsame
        rcases pnrTicketsMatch_iff.mp (conflicting_eq_false hclash horiginal hsuccess) with
          ⟨hnone, -⟩ | hsame
        · exact .inl hnone
        · exact .inr hsame
  case refused =>
    intro r hmem c pnr report draw hlabel i hi hid original horiginal hsuccess body receipt hbody
      hrecover hdiffers
    obtain ⟨t₁, t₂, -, hbefore, hstep, hafter⟩ := hr.split hmem
    have hs : r.before.Sound := reachable_sound ⟨w, t₁, h₀, hbefore⟩
    rw [hlabel] at hstep
    obtain ⟨i', row, hrow⟩ := step_reconciled hstep
    have hsame := hs.issue_unique (lookup_mem hrow.issue) hi ((lookup_key hrow.issue).trans hid.symm)
    subst hsame
    -- a receipt that is accepted clashes with nothing, and this one does
    have hnone : row.publicResponse = none := by
      cases hreceipt : row.publicResponse with
      | none => rfl
      | some other =>
        obtain ⟨hfound, hclash, -⟩ := hrow.accepted other hreceipt
        obtain ⟨body', hbody', hrecover'⟩ := finding_recover hfound
        rw [hbody] at hbody'
        cases hbody'
        rw [hrecover] at hrecover'
        cases hrecover'
        rw [conflicting_eq_false hclash horiginal hsuccess] at hdiffers
        cases hdiffers
    refine ⟨by rw [hrow.verifications, hnone], row, hrow.stored, hrow.names, hnone, ?_, ?_⟩
    · intro hresult
      have hsome := hrow.verified hresult
      rw [hnone] at hsome
      cases hsome
    · cases hfound : (c.finding site pnr report).response with
      | none => exact hrow.missing hfound
      | some other =>
        obtain ⟨body', hbody', hrecover'⟩ := finding_recover hfound
        rw [hbody] at hbody'
        cases hbody'
        rw [hrecover] at hrecover'
        cases hrecover'
        refine hrow.refused receipt hfound ?_
        simp [conflicting, horiginal, hsuccess, hdiffers]

/-! ## Runs where a worker and a reconciliation both store evidence -/

/-- A ticketed PNR and a report with one ticket number. -/
def sampleReconcile (now : Int) : List (World → List Event) :=
  [fun _ => [.readReconcile 1 20 "staff" 9 now],
    fun w => w.calls.filterMap fun c => match c with
      | .reconcile c => some (.reconcile c (.body sampleTicketed) (.body sampleReport) ⟨60, 61, 62, now, now⟩)
      | _ => none]

/-- What the supplier answers to the issue: a ticket of the passenger. -/
def sampleIssued (ticketCodeRef : String) (numbers : List String) : Value :=
  sampleSuccess [("pnr", .str "ABC123"), ("bookingCodeRef", .str "b"), ("ticketCodeRef", .str ticketCodeRef),
    ("ticketInfoes", .arr [.object [("passengerInfo", sampleTraveller.toValue),
      ("ticketNumbers", .arr (numbers.map .str))]])]

def sampleAnswer (response : Value) : List (World → List Event) :=
  [fun w => w.outbox.inFlight.map fun j => .answer j (.body response) ⟨0, 0, 0, 4, 4⟩]

/-- The numbers of the responses and of the verifications. -/
structure Tickets where
  states : List IssueState
  responses : List (Option (List String))
  receipts : List (Option (List String))
  deriving DecidableEq

def sampleTickets (w : World) : Tickets where
  states := w.db.issues.map TicketIssue.state
  responses := w.db.issues.map fun i => i.originalResponse.bind collectNumbers
  receipts := w.db.verifications.map fun v => collectNumbers v.publicResponse

/-- An issue with a verification of a reconciliation and a successful response whose tickets
differ. -/
def Disagrees (w : World) : Prop :=
  ∃ i ∈ w.db.issues, ∃ v ∈ w.db.verifications, v.issueId = i.id ∧
    (∃ row ∈ w.db.reconciliations, row.issueId = i.id ∧
      row.publicResponse = some v.publicResponse) ∧
    ∃ original, i.originalResponse = some original ∧ isSuccess original = true ∧
      sameTickets original v.publicResponse = false

def disagrees (w : World) : Bool :=
  w.db.issues.any fun i => w.db.verifications.any fun v => v.issueId = i.id &&
    (w.db.reconciliations.any fun row => row.issueId = i.id &&
      row.publicResponse = some v.publicResponse) &&
    i.originalResponse.any fun original =>
      isSuccess original && !sameTickets original v.publicResponse

theorem disagrees_iff : disagrees w = true ↔ Disagrees w := by
  simp only [disagrees, Disagrees, List.any_eq_true, Bool.and_eq_true, decide_eq_true_eq,
    Option.any_eq_true, Bool.not_eq_true', and_assoc]

set_option maxRecDepth 10000 in
/-- A worker that answers after the reconciliation stores other tickets as issued, and a success
without tickets leaves any receipt acceptable. -/
theorem ticket_evidence_disagreement :
    (∃ w t w', (machine sampleSite).init w ∧ (machine sampleSite).Run w t w' ∧
      sampleTickets w' = ⟨[.issued], [some ["0987654321"]], [some ["1234567890"]]⟩ ∧ Disagrees w') ∧
    ∃ w t w', (machine sampleSite).init w ∧ (machine sampleSite).Run w t w' ∧
      sampleTickets w' = ⟨[.outcomeUnknown], [some []], [some ["1234567890"]]⟩ ∧ Disagrees w' := by
  have hlate : ((World.empty ⟨0, 0, 0⟩).drive sampleSite (sampleBooking ++ sampleIssue ++
        sampleReconcile 400000000 ++ sampleAnswer (sampleIssued "t" ["0987654321"]))).map
      (fun w => (sampleTickets w, disagrees w)) =
      .ok (⟨[.issued], [some ["0987654321"]], [some ["1234567890"]]⟩, true) := by
    decide +kernel
  have hbare : ((World.empty ⟨0, 0, 0⟩).drive sampleSite (sampleBooking ++ sampleIssue ++
        sampleAnswer (sampleSuccess [("pnr", .str "ABC123")]) ++ sampleReconcile 8)).map
      (fun w => (sampleTickets w, disagrees w)) =
      .ok (⟨[.outcomeUnknown], [some []], [some ["1234567890"]]⟩, true) := by
    decide +kernel
  constructor
  · obtain ⟨w', hdrive, hw'⟩ := map_eq_ok.mp hlate
    obtain ⟨t, hr, -⟩ := run_of_drive (.nil _) hdrive
    rw [Prod.mk.injEq, disagrees_iff] at hw'
    exact ⟨_, t, w', ⟨_, rfl⟩, hr, hw'⟩
  · obtain ⟨w', hdrive, hw'⟩ := map_eq_ok.mp hbare
    obtain ⟨t, hr, -⟩ := run_of_drive (.nil _) hdrive
    rw [Prod.mk.injEq, disagrees_iff] at hw'
    exact ⟨_, t, w', ⟨_, rfl⟩, hr, hw'⟩

set_option maxRecDepth 10000 in
/-- A reconciliation that agrees with the success before it, which had no reference for its ticket. -/
theorem ticket_evidence_agreement_same : ∃ w t w', (machine sampleSite).init w ∧
    (machine sampleSite).Run w t w' ∧
    sampleTickets w' = ⟨[.outcomeUnknown], [some ["1234567890"]], [some ["1234567890"]]⟩ ∧
    EvidenceAgrees sampleSite t w' := by
  have hend : ((World.empty ⟨0, 0, 0⟩).drive sampleSite (sampleBooking ++ sampleIssue ++
        sampleAnswer (sampleIssued "" ["1234567890"]) ++ sampleReconcile 8)).map sampleTickets =
      .ok ⟨[.outcomeUnknown], [some ["1234567890"]], [some ["1234567890"]]⟩ := by
    decide +kernel
  obtain ⟨w', hdrive, hw'⟩ := map_eq_ok.mp hend
  have h₀ : (machine sampleSite).init (World.empty ⟨0, 0, 0⟩) := ⟨_, rfl⟩
  obtain ⟨t, hr, -⟩ := run_of_drive (.nil _) hdrive
  exact ⟨_, t, w', h₀, hr, hw', ticket_evidence_agreement h₀ hr⟩

end ShaponTravels.Booking
