import ShaponTravels.Wallet.TicketClaims
import ShaponTravels.Wallet.TicketTakings

/-!
# TicketHolds — the holds of approved debits

An approval of a debit reserves its amount for the quote; a release and a settlement close that operation and
no other one.  So an operation of ticket management is reserved exactly as long as its request is approved and
not settled.
-/

namespace ShaponTravels.Wallet.Tickets

open Library
open TicketManagement (Action Quote Entitlement)
open Nonissuance (Actor)

variable {desk : Desk} {db db' db₁ : Db} {actor : Actor} {r r' r₁ saved : Request} {input : Mutation} {draw : Draw}
  {row : QuoteRow} {o : WalletOperation} {ops ops' : List WalletOperation} {touched : Option Uuid}

/-! ## The wallet of the other modules -/

/-- Nobody else changes a captured operation or one of ticket management, or refunds anything. -/
structure Apart (w w' : WalletDb) : Prop where
  kept : ∀ o ∈ w.operations, o.subjectKind = .ticketManagement ∨ o.state = .captured → o ∈ w'.operations
  traced : ∀ o' ∈ w'.operations, o' ∈ w.operations ∨ (o'.subjectKind ≠ .ticketManagement ∧ o'.refundedAmount = 0)
  entries : ∀ e ∈ w'.entries, e.transactionType = .refund → e ∈ w.entries

theorem Apart.of_operations {w w' : WalletDb} (h : w'.operations = w.operations)
    (hentries : ∀ e ∈ w'.entries, e.transactionType = .refund → e ∈ w.entries) : Apart w w' where
  kept _ ho _ := h ▸ ho
  traced _ ho' := .inl (h ▸ ho')
  entries := hentries

/-- Rewriting an operation that is not of ticket management and not captured. -/
theorem Apart.modify {w w' : WalletDb} {id : Uuid} {f : WalletOperation → WalletOperation}
    (h : w'.operations = Library.modify WalletOperation.id id f w.operations)
    (hkind : ∀ o ∈ w.operations, o.id = id → o.subjectKind ≠ .ticketManagement)
    (hf : ∀ o ∈ w.operations, o.id = id → f o = o ∨
      ((f o).subjectKind = o.subjectKind ∧ (f o).refundedAmount = 0 ∧ o.state ≠ .captured))
    (hentries : ∀ e ∈ w'.entries, e.transactionType = .refund → e ∈ w.entries) : Apart w w' := by
  refine ⟨fun o ho hstays => ?_, fun o' ho' => ?_, hentries⟩
  · rw [h]
    by_cases hid : o.id = id
    · rcases hf o ho hid with hsame | ⟨-, -, hopen⟩
      · exact hsame ▸ mem_modify_of_mem ho hid
      · exact (hstays.elim (hkind o ho hid) hopen).elim
    · exact mem_modify_of_ne ho hid
  · rw [h] at ho'
    rcases modify_cases ho' with ⟨ho, -⟩ | ⟨o, ho, hid, rfl⟩
    · exact .inl ho
    · rcases hf o ho hid with hsame | ⟨hsame, hzero, -⟩
      · rw [hsame]
        exact .inl ho
      · exact .inr ⟨hsame ▸ hkind o ho hid, hzero⟩

theorem not_refunded {w : WalletDb} (hs : Sound w) (ho : o ∈ w.operations) (hopen : o.state.isOpen) :
    o.refundedAmount = 0 ∧ o.state ≠ .captured := by
  have hsound := hs.operations o ho
  have hne : o.state ≠ .captured := by
    intro hstate
    rw [hstate] at hopen
    cases hopen
  have hnone : ¬ 0 < o.refundedAmount := fun hpos => hne (hsound.refunded_captured hpos)
  have hnonneg := hsound.refunded_nonneg
  exact ⟨by omega, hne⟩

/-- The entries after a posting that is no refund. -/
theorem posting_entries {subjects : List FinancialSubject} {w w' : WalletDb} {p : PostingArgs} {e : LedgerEntry}
    (h : walletApplyPosting subjects w p = .ok (e, w')) (htype : p.type ≠ "refund") :
    ∀ e' ∈ w'.entries, e'.transactionType = .refund → e' ∈ w.entries := by
  intro e' he' hrefund
  rcases walletApplyPosting_ok h with ⟨rfl, -⟩ | ⟨a, t, hposted⟩
  · exact he'
  · rw [hposted.entries, List.mem_append, List.mem_singleton] at he'
    rcases he' with hold | rfl
    · exact hold
    · rw [hposted.entry_type] at hrefund
      rw [hposted.type, hrefund] at htype
      exact absurd rfl htype

theorem Elsewhere.apart {subjects : List FinancialSubject} {pf : Platform} {w w' : WalletDb} {call : Call} (hs : Sound w)
    (hallowed : Elsewhere w call) (h : call.run pf subjects w = .ok w') : Apart w w' := by
  cases call with
  | provision owner currency display ownerId accountId =>
    obtain ⟨⟨account, w'⟩, hcall, rfl⟩ := map_eq_ok.mp h
    obtain ⟨hoperations, hentries, -⟩ := provision_operations hcall
    exact .of_operations hoperations fun e he _ => hentries ▸ he
  | posting p =>
    obtain ⟨⟨e, w'⟩, hcall, rfl⟩ := map_eq_ok.mp h
    rw [mapError_eq_ok] at hcall
    have htype : p.type ∈ ["deposit", "manual_credit", "manual_debit"] := hallowed
    have hentries := posting_entries hcall fun hrefund => absurd (hrefund ▸ htype) (by decide)
    rcases posting_operations hcall with rfl | ⟨t, ht, hoperations⟩
    · exact .of_operations rfl fun e he _ => he
    · -- none of the three types records anything on an operation
      have hrecord : ∀ o, recordOperation t p.amount o = o := by
        rw [ht] at htype
        cases t with
        | deposit | manualCredit | manualDebit => exact fun o => rfl
        | bookingHold | bookingConfirm | holdRelease | refund => exact absurd htype (by decide)
      refine .of_operations ?_ hentries
      rw [hoperations]
      cases p.operation with
      | none => rfl
      | some id =>
        show Library.modify WalletOperation.id id (recordOperation t p.amount) w.operations = _
        simp only [Library.modify, hrecord, ite_self, List.map_id']
  | reserve r draw =>
    obtain ⟨⟨o, w'⟩, hcall, rfl⟩ := map_eq_ok.mp h
    obtain ⟨kind, c, hkind, -, -, ⟨rfl, -⟩ | ⟨-, -, -, ⟨e, hpost⟩, -⟩⟩ := reserve_ok hcall
    · exact .of_operations rfl fun e he _ => he
    obtain ⟨kind', c', hkind', -, -, ⟨rfl, -⟩ | ⟨-, -, hoperations, -⟩⟩ := reserve_operations hs.keyed hcall
    · exact .of_operations rfl fun e he _ => he
    have hne : kind' ≠ .ticketManagement := by
      rintro rfl
      exact hallowed (SubjectKind.ofText?_eq_some.mp hkind')
    have hentries := posting_entries hpost (show ("booking_hold" : String) ≠ "refund" by decide)
    refine ⟨fun o ho _ => ?_, fun o' ho' => ?_, hentries⟩
    · rw [hoperations]
      exact List.mem_append_left _ ho
    · rw [hoperations] at ho'
      rcases List.mem_append.mp ho' with hold | hnew
      · exact .inl hold
      · rw [List.mem_singleton.mp hnew]
        exact .inr ⟨hne, rfl⟩
  | settle id capture actor role draw =>
    obtain ⟨⟨o, w'⟩, hcall, rfl⟩ := map_eq_ok.mp h
    obtain ⟨current, -, -, -, -, ⟨rfl, -⟩ | ⟨-, e, hpost⟩⟩ := Wallet.settle_ok hcall
    · exact .of_operations rfl fun e he _ => he
    obtain ⟨current', hmem', hid', -, ⟨rfl, -⟩ | ⟨hopen', hoperations⟩⟩ := settle_operations hs hcall
    · exact .of_operations rfl fun e he _ => he
    have htype : (if capture then "booking_confirm" else "hold_release") ≠ "refund" := by cases capture <;> decide
    have hentries := posting_entries hpost htype
    refine .modify hoperations hallowed (fun o ho hid => .inr ⟨rfl, ?_⟩) hentries
    obtain rfl := hs.keyed.operations.eq_of_key ho hmem' (hid.trans hid'.symm)
    exact not_refunded hs ho hopen'
  | markReconciliation id =>
    obtain rfl := Except.ok.inj h
    have hoperations : (markReconciliation w id).operations = Library.modify WalletOperation.id id _ w.operations := rfl
    refine .modify hoperations hallowed (fun o ho _ => ?_) fun e he _ => he
    show (if o.state = .reserved then _ else o) = o ∨ _
    split
    · rename_i hstate
      exact .inr ⟨rfl, not_refunded hs ho (by rw [hstate]; rfl)⟩
    · exact .inl rfl

theorem Outside.apart (hk : Keys db) (h : Outside desk db db') : Apart db.wallet db'.wallet := by
  cases h with
  | call call wallet hallowed hrun => exact Elsewhere.apart hk.wallet.toSound hallowed hrun
  | status owners => exact .of_operations rfl fun e he _ => he

/-! ## Operations that go on -/

/-- Every operation of ticket management but the touched one goes on in its state. -/
structure Carries (touched : Option Uuid) (ops ops' : List WalletOperation) : Prop where
  forth : ∀ o ∈ ops, o.subjectKind = .ticketManagement → touched ≠ some o.id →
    ∃ o' ∈ ops', o'.identity = o.identity ∧ o'.state = o.state
  back : ∀ o' ∈ ops', o'.subjectKind = .ticketManagement → touched ≠ some o'.id →
    ∃ o ∈ ops, o.identity = o'.identity ∧ o.state = o'.state

theorem Carries.refl (ops : List WalletOperation) : Carries none ops ops :=
  ⟨fun o ho _ _ => ⟨o, ho, rfl, rfl⟩, fun o ho _ _ => ⟨o, ho, rfl, rfl⟩⟩

theorem Carries.concat (o : WalletOperation) (ops : List WalletOperation) : Carries (some o.id) ops (ops ++ [o]) := by
  refine ⟨fun o' ho' _ _ => ⟨o', List.mem_append_left _ ho', rfl, rfl⟩, fun o' ho' _ hne => ?_⟩
  rcases List.mem_append.mp ho' with hold | hnew
  · exact ⟨o', hold, rfl, rfl⟩
  · rw [List.mem_singleton.mp hnew] at hne
    exact absurd rfl hne

theorem Carries.modify (id : Uuid) (state : OperationState) (ops : List WalletOperation) :
    Carries (some id) ops (Library.modify WalletOperation.id id (fun o => { o with state := state }) ops) := by
  refine ⟨fun o ho _ hne => ⟨o, mem_modify_of_ne ho fun hid => hne (congrArg some hid.symm), rfl, rfl⟩, ?_⟩
  intro o' ho' _ hne
  rcases modify_cases ho' with ⟨ho, -⟩ | ⟨o, -, hid, rfl⟩
  · exact ⟨o', ho, rfl, rfl⟩
  · exact absurd (congrArg some hid.symm) hne

theorem Carries.of_apart {w w' : WalletDb} (h : Apart w w') : Carries none w.operations w'.operations := by
  refine ⟨fun o ho hkind _ => ⟨o, h.kept o ho (.inl hkind), rfl, rfl⟩, fun o' ho' hkind _ => ?_⟩
  rcases h.traced o' ho' with hold | ⟨hother, -⟩
  · exact ⟨o', hold, rfl, rfl⟩
  · exact absurd hkind hother

/-- Refunds leave every operation in its state. -/
theorem Carries.of_refunded {cs : List (Uuid × Int)} (h : Refunded cs ops ops') : Carries none ops ops' := by
  refine ⟨fun o ho _ _ => h.forth o ho, fun o' ho' _ _ => ?_⟩
  obtain ⟨o, ho, hsame, hstate, -⟩ := h.back o' ho'
  exact ⟨o, ho, hsame, hstate⟩

/-! ## Requests and what backs them -/

theorem Debits.of_identity {o' : WalletOperation} (h : Debits r row o) (hsame : o'.identity = o.identity) :
    Debits r row o' := by
  rw [WalletOperation.of_identity hsame.symm]
  exact ⟨h.account, h.booking, h.kind, h.subject, h.currency, h.amount⟩

/-- The hold of an approved request: of a debit an operation of its amount, which is reserved until the request
is settled and captured from then on. -/
inductive Secured (ops : List WalletOperation) (r : Request) (row : QuoteRow) : Prop where
  | free (hdirection : row.data.direction ≠ .debit) (hhold : r.holdOperationId = none)
  | debit (o : WalletOperation) (hmem : o ∈ ops) (hdirection : row.data.direction = .debit)
      (hhold : r.holdOperationId = some o.id) (hdebits : Debits r row o)
      (hstate : o.state = if r.terminalOutcome = none then .reserved else .captured)

/-- A request, its quotes and its hold. -/
structure Backed (db : Db) (r : Request) : Prop where
  active : ∀ id, r.activeQuoteId = some id → ∃ row ∈ db.quotes, row.id = id ∧ row.requestId = r.id ∧
    (r.terminalOutcome = none → Validated db r row.data)
  idle : r.status ≠ .approved → r.approvedQuoteId = none ∧ r.holdOperationId = none
  approved : r.status = .approved → ∃ row ∈ db.quotes, r.approvedQuoteId = some row.id ∧
    r.activeQuoteId = some row.id ∧ row.requestId = r.id ∧ Secured db.wallet.operations r row

/-- Every request is backed, and what is reserved for a quote is the hold of an approved open request. -/
structure Held (db : Db) : Prop where
  backed : ∀ r ∈ db.requests, Backed db r
  reserved : ∀ o ∈ db.wallet.operations, o.subjectKind = .ticketManagement → o.state ≠ .reconciliation ∧
    (o.state = .reserved → ∃ r ∈ db.requests, r.status = .approved ∧ r.terminalOutcome = none ∧
      r.holdOperationId = some o.id)

/-- The hold of a request, with the quote that it is for. -/
theorem Backed.hold (h : Backed db r) {id : Uuid} (hhold : r.holdOperationId = some id) :
    r.status = .approved ∧ ∃ row ∈ db.quotes, ∃ o ∈ db.wallet.operations, o.id = id ∧
      r.approvedQuoteId = some row.id ∧ row.requestId = r.id ∧ row.data.direction = .debit ∧ Debits r row o ∧
      o.state = if r.terminalOutcome = none then .reserved else .captured := by
  have hstatus : r.status = .approved := by
    by_contra hne
    rw [(h.idle hne).2] at hhold
    cases hhold
  obtain ⟨row, hrow, happroved, -, hrequest, hsecured⟩ := h.approved hstatus
  refine ⟨hstatus, row, hrow, ?_⟩
  cases hsecured with
  | free _ hnone =>
    rw [hnone] at hhold
    cases hhold
  | debit o hmem hdirection hsome hdebits hstate =>
    exact ⟨o, hmem, Option.some.inj (hsome.symm.trans hhold), happroved, hrequest, hdirection, hdebits, hstate⟩

/-- An operation is the hold of one request: its subject is a quote of it. -/
theorem Held.owner (hk : Keys db) (hh : Held db) (hr : r ∈ db.requests) (hr' : r' ∈ db.requests) {id : Uuid}
    (hhold : r.holdOperationId = some id) (hhold' : r'.holdOperationId = some id) : r.id = r'.id := by
  obtain ⟨-, row, hrow, o, ho, hid, -, hrequest, -, hdebits, -⟩ := (hh.backed r hr).hold hhold
  obtain ⟨-, row', hrow', o', ho', hid', -, hrequest', -, hdebits', -⟩ := (hh.backed r' hr').hold hhold'
  obtain rfl := hk.wallet.keyed.operations.eq_of_key ho ho' (hid.trans hid'.symm)
  obtain rfl := hk.quotes.eq_of_key hrow hrow' (hdebits.subject.symm.trans hdebits'.subject)
  exact hrequest.symm.trans hrequest'

theorem Secured.carry (h : Secured ops r row) (hc : Carries touched ops ops')
    (huntouched : ∀ id, touched = some id → r.holdOperationId ≠ some id) : Secured ops' r row := by
  cases h with
  | free hdirection hhold => exact .free hdirection hhold
  | debit o hmem hdirection hhold hdebits hstate =>
    obtain ⟨o', ho', hsame, hstate'⟩ := hc.forth o hmem hdebits.kind fun htouched => huntouched o.id htouched hhold
    have hid : o'.id = o.id := (identity_eq hsame).1
    exact .debit o' ho' hdirection (hid ▸ hhold) (hdebits.of_identity hsame) (hstate'.trans hstate)

/-- What does not concern a request leaves it backed. -/
theorem Backed.carry (h : Backed db r) (hquotes : ∀ q ∈ db.quotes, q ∈ db'.quotes)
    (hselections : r.terminalOutcome = none → selections db' r = selections db r)
    (hc : Carries touched db.wallet.operations db'.wallet.operations)
    (huntouched : ∀ id, touched = some id → r.holdOperationId ≠ some id) : Backed db' r where
  active id hid := by
    obtain ⟨row, hrow, hrowid, hrequest, hvalid⟩ := h.active id hid
    refine ⟨row, hquotes row hrow, hrowid, hrequest, fun hopen => ?_⟩
    unfold Validated
    rw [hselections hopen]
    exact hvalid hopen
  idle := h.idle
  approved hstatus := by
    obtain ⟨row, hrow, happroved, hactive, hrequest, hsecured⟩ := h.approved hstatus
    exact ⟨row, hquotes row hrow, happroved, hactive, hrequest, hsecured.carry hc huntouched⟩

/-! ## Preservation -/

/-- What the change of one request does to the holds. -/
structure Shifted (db : Db) (r : Request) (saved : Request) (db' : Db) (touched : Option Uuid) : Prop where
  carries : Carries touched db.wallet.operations db'.wallet.operations
  owner : ∀ id, touched = some id → ∀ r' ∈ db.requests, r'.holdOperationId = some id → r'.id = r.id
  quotes : ∀ q ∈ db.quotes, q ∈ db'.quotes
  backed : Backed db' saved
  target : ∀ o ∈ db'.wallet.operations, touched = some o.id → o.state ≠ .reconciliation ∧
    (o.state = .reserved → saved.status = .approved ∧ saved.terminalOutcome = none ∧ saved.holdOperationId = some o.id)
  kept : ∀ id, r.holdOperationId = some id → touched ≠ some id →
    saved.status = .approved ∧ saved.terminalOutcome = none ∧ saved.holdOperationId = some id

theorem Held.shifted (hk : Keys db) (hh : Held db) (h : Replaced db r saved db') (hs : Shifted db r saved db' touched)
    (hselections : ∀ r' ∈ db.requests, r'.terminalOutcome = none → r'.id ≠ r.id → selections db' r' = selections db r') :
    Held db' := by
  refine ⟨fun r' hr' => ?_, fun o ho hkind => ?_⟩
  · rcases h.cases hk.requests hr' with ⟨hold, hne⟩ | rfl
    · exact (hh.backed r' hold).carry hs.quotes (fun hopen => hselections r' hold hopen hne) hs.carries
        fun id hid hhold => hne (hs.owner id hid r' hold hhold)
    · exact hs.backed
  · by_cases htouched : touched = some o.id
    · obtain ⟨hstate, hheld⟩ := hs.target o ho htouched
      exact ⟨hstate, fun hreserved => ⟨saved, h.saved_mem, hheld hreserved⟩⟩
    · obtain ⟨o₀, ho₀, hsame, hstate⟩ := hs.carries.back o ho hkind htouched
      obtain ⟨hid, hkind₀⟩ := identity_eq hsame
      obtain ⟨hne, hheld⟩ := hh.reserved o₀ ho₀ (hkind₀.trans hkind)
      refine ⟨hstate ▸ hne, fun hreserved => ?_⟩
      obtain ⟨r', hr', hstatus, hopen, hhold⟩ := hheld (hstate.trans hreserved)
      rw [hid] at hhold
      -- the hold of another request is untouched, and the request itself keeps one that is
      by_cases hself : r'.id = r.id
      · obtain rfl := hk.requests.eq_of_key hr' h.mem hself
        exact ⟨saved, h.saved_mem, hs.kept o.id hhold htouched⟩
      · exact ⟨r', h.other hr' hself, hstatus, hopen, hhold⟩

/-- Closing a reserved operation rewrites its state, and that of no other one. -/
theorem settle_reserved {subjects : List FinancialSubject} {pf : Platform} {w w' : WalletDb} {o' : WalletOperation}
    {capture : Bool} {actor role : String} {draw : Wallet.Draw} (hs : Sound w) (ho : o ∈ w.operations)
    (hstate : o.state = .reserved) (h : Wallet.settle pf subjects w o.id capture actor role draw = .ok (o', w')) :
    w'.operations = Library.modify WalletOperation.id o.id
      (fun o => { o with state := if capture then .captured else .released }) w.operations := by
  obtain ⟨current, hmem, hid, -, ⟨-, hdone⟩ | ⟨-, hoperations⟩⟩ := settle_operations hs h
  · obtain rfl := hs.keyed.operations.eq_of_key hmem ho hid
    rw [hstate] at hdone
    cases capture <;> cases hdone
  · exact hoperations

/-- The hold of an approval is a new operation: what is reserved for a quote belongs to an approved request, and
the one that the quote is offered to is not. -/
theorem Held.reserve_new (hk : Keys db) (hh : Held db) (hr : r ∈ db.requests) (hoffered : Offered db r row)
    {subjects : List FinancialSubject} {w' : WalletDb}
    (h : Wallet.reserve desk.pf subjects db.wallet (holdOf actor r row.id row.data draw) (draw.entry 0) = .ok (o, w'))
    (hreserved : o.state = .reserved) :
    (∀ o' ∈ db.wallet.operations, o'.id ≠ o.id) ∧ w'.operations = db.wallet.operations ++ [o] ∧ Debits r row o := by
  obtain ⟨kind, c, hkind, hc, hamount, ⟨-, hmem, hsame, hsubject⟩ | ⟨hnew, -, hoperations, -⟩⟩ :=
    reserve_operations hk.wallet.keyed h
  · obtain rfl : kind = .ticketManagement := (Option.some.inj hkind).symm
    obtain ⟨-, hheld⟩ := hh.reserved o hmem hsame
    obtain ⟨r', hr', hstatus', -, hhold⟩ := hheld hreserved
    obtain ⟨-, row', hrow', o', ho', hid, -, hrequest, -, hdebits, -⟩ := (hh.backed r' hr').hold hhold
    obtain rfl := hk.wallet.keyed.operations.eq_of_key ho' hmem hid
    obtain rfl := hk.quotes.eq_of_key hrow' hoffered.mem (hdebits.subject.symm.trans hsubject)
    obtain ⟨row'', hrow'', hid', hrequest', -⟩ := (hh.backed r hr).active row'.id hoffered.active
    obtain rfl := hk.quotes.eq_of_key hrow'' hrow' hid'
    obtain rfl := hk.requests.eq_of_key hr' hr (hrequest.symm.trans hrequest')
    rw [hoffered.status] at hstatus'
    cases hstatus'
  · obtain rfl : kind = .ticketManagement := (Option.some.inj hkind).symm
    have hrow : o = (holdOf actor r row.id row.data draw).row .ticketManagement c
        ((holdOf actor r row.id row.data draw).hash desk.pf) := by
      obtain ⟨-, -, -, -, -, ⟨hsame, -⟩ | ⟨-, -, -, -, hmem, hid⟩⟩ := reserve_ok h
      · rw [hsame] at hoperations
        exact absurd hoperations (by simp)
      · rw [hoperations] at hmem
        rcases List.mem_append.mp hmem with hold | hlast
        · exact absurd hid (hnew o hold)
        · exact List.mem_singleton.mp hlast
    refine ⟨hrow ▸ hnew, hrow ▸ hoperations, ?_⟩
    rw [hrow]
    exact ⟨rfl, rfl, rfl, rfl, hc.symm, rfl⟩

/-- The quote that a request keeps stays active. -/
theorem Backed.keeps_active (h : Backed db r) (hid : saved.id = r.id) (hactive : saved.activeQuoteId = r.activeQuoteId)
    (hquotes : ∀ q ∈ db.quotes, q ∈ db'.quotes) (hunended : r.terminalOutcome = none)
    (hvalid : ∀ q, Validated db r q → saved.terminalOutcome = none → Validated db' saved q) :
    ∀ id, saved.activeQuoteId = some id → ∃ row ∈ db'.quotes, row.id = id ∧ row.requestId = saved.id ∧
      (saved.terminalOutcome = none → Validated db' saved row.data) := by
  intro id hsome
  obtain ⟨row, hrow, hrowid, hrequest, hchecked⟩ := h.active id (hactive ▸ hsome)
  exact ⟨row, hquotes row hrow, hrowid, hid ▸ hrequest, fun hopen => hvalid _ (hchecked hunended) hopen⟩

/-- A change that touches no hold. -/
theorem Shifted.untouched (hcarries : Carries none db.wallet.operations db'.wallet.operations)
    (hquotes : ∀ q ∈ db.quotes, q ∈ db'.quotes) (hbacked : Backed db' saved)
    (hkept : ∀ id, r.holdOperationId = some id →
      saved.status = .approved ∧ saved.terminalOutcome = none ∧ saved.holdOperationId = some id) :
    Shifted db r saved db' none :=
  ⟨hcarries, fun _ h => (nomatch h), hquotes, hbacked, fun _ _ h => (nomatch h), fun id hid _ => hkept id hid⟩

/-- A change that closes the hold of its request. -/
theorem Shifted.closed {state : OperationState} (hk : Keys db) (hh : Held db) (hr : r ∈ db.requests)
    (hhold : r.holdOperationId = some o.id) (hstate : state = .released ∨ state = .captured)
    (hoperations : db'.wallet.operations =
      Library.modify WalletOperation.id o.id (fun o => { o with state := state }) db.wallet.operations)
    (hquotes : ∀ q ∈ db.quotes, q ∈ db'.quotes) (hbacked : Backed db' saved) :
    Shifted db r saved db' (some o.id) := by
  refine ⟨hoperations ▸ Carries.modify o.id state _, ?_, hquotes, hbacked, ?_, ?_⟩
  · intro id hid r' hr' hhold'
    obtain rfl := Option.some.inj hid
    exact hh.owner hk hr' hr hhold' hhold
  · intro o' ho' hid
    rw [hoperations] at ho'
    rcases modify_cases ho' with ⟨-, hne⟩ | ⟨o₁, -, -, rfl⟩
    · exact absurd (Option.some.inj hid).symm hne
    · show state ≠ _ ∧ (state = _ → _)
      rcases hstate with rfl | rfl <;> exact ⟨by decide, fun hreserved => absurd hreserved (by decide)⟩
  · intro id hid hne
    exact absurd (hhold.symm.trans hid) hne

theorem Turned.shifted (hk : Keys db) (hc : Claimed db) (hh : Held db)
    (h : Turned desk db actor r input draw saved db') : ∃ touched, Shifted db r saved db' touched := by
  have hreplaced := h.replaced
  have hb := hh.backed r h.mem
  have hvalid : ∀ q, Validated db r q → saved.terminalOutcome = none → Validated db' saved q := by
    intro q hq hopen
    have hsame : selections db' saved = selections db r :=
      (selections_congr hreplaced.id rfl).trans (hc.selections_turned hk h h.mem h.unended (.inr hopen))
    unfold Validated
    rw [hreplaced.action, hsame]
    exact hq
  obtain ⟨db₁, r₁, hturn, rfl, -, -, hwallet, -, hquotes⟩ := h.tables
  -- a request that is not approved holds nothing
  have hidle : r.status ≠ .approved → ∀ id, r.holdOperationId ≠ some id := by
    intro hne id hsome
    rw [(hb.idle hne).2] at hsome
    cases hsome
  cases hturn with
  | moved status outcome hbefore hafter hopen =>
    have hsubset : ∀ q ∈ db.quotes, q ∈ db'.quotes := fun q hq => hquotes ▸ hq
    refine ⟨none, .untouched (hwallet ▸ .refl _) hsubset ⟨?_, ?_, ?_⟩ fun id hsome => absurd hsome (hidle hbefore id)⟩
    · exact hb.keeps_active rfl rfl hsubset h.unended hvalid
    · exact fun _ => hb.idle hbefore
    · exact fun happroved => absurd happroved hafter
  | published row hrow hnew hstatus hvalidated =>
    have hbefore : r.status ≠ .approved := by
      rw [hstatus]
      decide
    have hsubset : ∀ q ∈ db.quotes, q ∈ db'.quotes := fun q hq => hquotes ▸ List.mem_append_left _ hq
    refine ⟨none, .untouched (hwallet ▸ .refl _) hsubset ⟨?_, ?_, ?_⟩ fun id hsome => absurd hsome (hidle hbefore id)⟩
    · intro id hid
      have hlast : row ∈ db'.quotes := hquotes ▸ List.mem_append_right _ (List.mem_singleton_self row)
      exact ⟨row, hlast, Option.some.inj hid, hrow, fun hopen => hvalid _ hvalidated hopen⟩
    · exact fun _ => hb.idle hbefore
    · exact fun happroved => nomatch happroved
  | confirmed row note hinput hrole hoffered hdirection =>
    have hbefore : r.status ≠ .approved := by
      rw [hoffered.status]
      decide
    have hsubset : ∀ q ∈ db.quotes, q ∈ db'.quotes := fun q hq => hquotes ▸ hq
    refine ⟨none, .untouched (hwallet ▸ .refl _) hsubset ⟨?_, ?_, ?_⟩ fun id hsome => absurd hsome (hidle hbefore id)⟩
    · exact hb.keeps_active rfl rfl hsubset h.unended hvalid
    · exact fun hne => absurd rfl hne
    · intro _
      obtain ⟨row', hrow', hid, hrequest, -⟩ := hb.active row.id hoffered.active
      obtain rfl := hk.quotes.eq_of_key hrow' hoffered.mem hid
      exact ⟨row', hsubset row' hrow', rfl, hoffered.active, hrequest, .free hdirection (hb.idle hbefore).2⟩
  | held row note o wallet hinput hrole hoffered hdirection hreserve hreserved =>
    have hbefore : r.status ≠ .approved := by
      rw [hoffered.status]
      decide
    have hsubset : ∀ q ∈ db.quotes, q ∈ db'.quotes := fun q hq => hquotes ▸ hq
    obtain ⟨hnew, hoperations, hdebits⟩ := hh.reserve_new hk h.mem hoffered hreserve hreserved
    replace hoperations : db'.wallet.operations = db.wallet.operations ++ [o] := hwallet ▸ hoperations
    have hmem : o ∈ db'.wallet.operations := hoperations ▸ List.mem_append_right _ (List.mem_singleton_self o)
    refine ⟨some o.id, hoperations ▸ Carries.concat o _, ?_, hsubset, ⟨?_, ?_, ?_⟩, ?_,
      fun id hsome _ => absurd hsome (hidle hbefore id)⟩
    · -- the operation is new, so nothing held it
      intro id hid r' hr' hhold
      obtain ⟨-, -, -, o', ho', hid', -⟩ := (hh.backed r' hr').hold hhold
      exact absurd (hid'.trans (Option.some.inj hid).symm) (hnew o' ho')
    · exact hb.keeps_active rfl rfl hsubset h.unended hvalid
    · exact fun hne => absurd rfl hne
    · intro _
      obtain ⟨row', hrow', hid, hrequest, -⟩ := hb.active row.id hoffered.active
      obtain rfl := hk.quotes.eq_of_key hrow' hoffered.mem hid
      refine ⟨row', hsubset row' hrow', rfl, hoffered.active, hrequest, .debit o hmem hdirection rfl
        ⟨hdebits.account, hdebits.booking, hdebits.kind, hdebits.subject, hdebits.currency, hdebits.amount⟩ ?_⟩
      show o.state = if r.terminalOutcome = none then _ else _
      rw [if_pos h.unended, hreserved]
    · intro o' ho' hid
      have hunique := (hk.turned h).wallet.keyed.operations
      obtain rfl := hunique.eq_of_key ho' hmem (Option.some.inj hid).symm
      exact ⟨by rw [hreserved]; decide, fun _ => ⟨rfl, h.unended, rfl⟩⟩
  | assigned assignee role hstatus =>
    have hsubset : ∀ q ∈ db.quotes, q ∈ db'.quotes := fun q hq => hquotes ▸ hq
    refine ⟨none, .untouched (hwallet ▸ .refl _) hsubset ⟨?_, ?_, ?_⟩ fun id hsome => ⟨hstatus, h.unended, hsome⟩⟩
    · exact hb.keeps_active rfl rfl hsubset h.unended hvalid
    · exact hb.idle
    · intro _
      obtain ⟨row, hrow, happroved, hactive, hrequest, hsecured⟩ := hb.approved hstatus
      refine ⟨row, hsubset row hrow, happroved, hactive, hrequest, ?_⟩
      rw [hwallet]
      cases hsecured with
      | free hdirection hhold => exact .free hdirection hhold
      | debit o hmem hdirection hhold hdebits hstate =>
        exact .debit o hmem hdirection hhold
          ⟨hdebits.account, hdebits.booking, hdebits.kind, hdebits.subject, hdebits.currency, hdebits.amount⟩ hstate
  | reopened hstatus hhold =>
    have hsubset : ∀ q ∈ db.quotes, q ∈ db'.quotes := fun q hq => hquotes ▸ hq
    refine ⟨none, .untouched (hwallet ▸ .refl _) hsubset ⟨fun _ hnone => (nomatch hnone), fun _ => ⟨rfl, rfl⟩,
      fun happroved => nomatch happroved⟩ fun id hsome => ?_⟩
    rw [hhold] at hsome
    cases hsome
  | released row o o' wallet hstatus hholding hsettle =>
    have hsubset : ∀ q ∈ db.quotes, q ∈ db'.quotes := fun q hq => hquotes ▸ hq
    have hoperations := settle_reserved hk.wallet.toSound hholding.mem hholding.reserved hsettle
    exact ⟨some o.id, .closed hk hh h.mem hholding.hold (.inl rfl) (hwallet ▸ hoperations) hsubset
      ⟨fun _ hnone => (nomatch hnone), fun _ => ⟨rfl, rfl⟩, fun happroved => nomatch happroved⟩⟩
  | settled row wallet rows added hsettling hpaid hrewritten =>
    have hsubset : ∀ q ∈ db.quotes, q ∈ db'.quotes := fun q hq => hquotes ▸ hq
    obtain ⟨row', hrow', happroved, hactive, hrequest, -⟩ := hb.approved hsettling.status
    obtain rfl := hk.quotes.eq_of_key hrow' hsettling.mem (Option.some.inj (happroved.symm.trans hsettling.approved))
    have hended : ∀ id, r.activeQuoteId = some id → ∃ row ∈ db'.quotes, row.id = id ∧ row.requestId = r.id ∧
        (some (outcomeOf r.action) = none → Validated db' r row.data) := by
      intro id hid
      exact ⟨row', hsubset row' hrow', Option.some.inj (hactive.symm.trans hid), hrequest, fun hnone => nomatch hnone⟩
    have hidle : r.status ≠ .approved → r.approvedQuoteId = none ∧ r.holdOperationId = none :=
      fun hne => absurd hsettling.status hne
    cases hpaid with
    | debit o o' hholding hsettle =>
      have hoperations : db'.wallet.operations = Library.modify WalletOperation.id o.id
          (fun o => { o with state := .captured }) db.wallet.operations := by
        rw [hwallet]
        exact settle_reserved hk.wallet.toSound hholding.mem hholding.reserved hsettle
      refine ⟨some o.id, .closed hk hh h.mem hholding.hold (.inr rfl) hoperations hsubset ⟨hended, hidle, fun _ => ?_⟩⟩
      refine ⟨row', hsubset row' hrow', happroved, hactive, hrequest, .debit { o with state := .captured } ?_
        hholding.direction hholding.hold
        ⟨hholding.account, hholding.booking, hholding.kind, hholding.subject, hholding.currency, hholding.amount⟩ rfl⟩
      rw [hoperations]
      exact mem_modify_of_mem hholding.mem rfl
    | credit cs entries hdirection hhold hcredits hpost =>
      have hcarries : Carries none db.wallet.operations db'.wallet.operations := hwallet ▸ .of_refunded (postCredits_refunded hpost)
      refine ⟨none, .untouched hcarries hsubset ⟨hended, hidle, fun _ => ?_⟩ fun id hsome => ?_⟩
      · exact ⟨row', hsubset row' hrow', happroved, hactive, hrequest, .free (by rw [hdirection]; decide) hhold⟩
      · rw [hhold] at hsome
        cases hsome
    | none hdirection hhold hsame =>
      refine ⟨none, .untouched ?_ hsubset ⟨hended, hidle, fun _ => ?_⟩ fun id hsome => ?_⟩
      · rw [hwallet]
        show Carries none _ wallet.operations
        rw [hsame]
        exact .refl _
      · exact ⟨row', hsubset row' hrow', happroved, hactive, hrequest, .free (by rw [hdirection]; decide) hhold⟩
      · rw [hhold] at hsome
        cases hsome

namespace Held

theorem start (records : Records) : Held (.start records) :=
  ⟨fun _ h => (nomatch h), fun _ h => (nomatch h)⟩

theorem turned (hk : Keys db) (hc : Claimed db) (hh : Held db) (h : Turned desk db actor r input draw saved db') :
    Held db' := by
  obtain ⟨touched, hshifted⟩ := h.shifted hk hc hh
  exact hh.shifted hk h.replaced hshifted fun r' hr' hopen hne => hc.selections_turned hk h hr' hopen (.inl hne)

theorem expired {now : Int} (hk : Keys db) (hh : Held db) (h : Expired db r now saved db') :
    Held db' := by
  have hb := hh.backed r h.mem
  have hbefore : r.status ≠ .approved := by
    rw [h.status]
    decide
  have hselections := h.selections_eq
  have hreplaced := h.replaced
  obtain ⟨rfl, hwallet, -, hquotes⟩ := h.tables
  have hsubset : ∀ q ∈ db.quotes, q ∈ db'.quotes := fun q hq => hquotes ▸ hq
  refine hh.shifted hk hreplaced (.untouched (hwallet ▸ .refl _) hsubset ⟨?_, ?_, ?_⟩ fun id hsome => ?_)
    fun r' _ _ _ => hselections r'
  · intro id hid
    obtain ⟨row, hrow, hrowid, hrequest, -⟩ := hb.active id hid
    exact ⟨row, hsubset row hrow, hrowid, hrequest, fun hnone => nomatch hnone⟩
  · exact fun _ => hb.idle hbefore
  · exact fun happroved => nomatch happroved
  · rw [(hb.idle hbefore).2] at hsome
    cases hsome

theorem quiet (hk : Keys db) (hc : Claimed db) (hh : Held db) (h : Quiet desk db db') : Held db' := by
  have hselections : ∀ r ∈ db.requests, selections db' r = selections db r := fun r hr => hc.selections_quiet h hr
  cases h with
  | expired r saved now hexpired => exact hh.expired hk hexpired
  | created r selected hcreated =>
    obtain ⟨ev, -, -, -, -, rfl⟩ := hcreated.log.event
    obtain ⟨hstatus, hopen, -, hactive, happroved, hhold⟩ := hcreated.blank
    refine ⟨fun r' hr' => ?_, fun o ho hkind => ?_⟩
    · rcases List.mem_append.mp hr' with hold | hnew
      · exact (hh.backed r' hold).carry (fun q hq => hq) (fun _ => hselections r' hold) (.refl _) fun _ h => nomatch h
      · -- a new request has neither a quote nor a hold
        obtain rfl := List.mem_singleton.mp hnew
        refine ⟨fun id hid => ?_, fun _ => ⟨happroved, hhold⟩, fun hstatus' => ?_⟩
        · rw [hactive] at hid
          cases hid
        · rw [hstatus] at hstatus'
          cases hstatus'
    · obtain ⟨hne, hheld⟩ := hh.reserved o ho hkind
      refine ⟨hne, fun hreserved => ?_⟩
      obtain ⟨r', hr', hrest⟩ := hheld hreserved
      exact ⟨r', List.mem_append_left _ hr', hrest⟩
  | initialized b w draw added hcharged hinitialized =>
    exact ⟨fun r hr => (hh.backed r hr).carry (fun q hq => hq) (fun _ => hselections r hr) (.refl _) fun _ h => (nomatch h),
      hh.reserved⟩
  | remembered rows =>
    exact ⟨fun r hr => (hh.backed r hr).carry (fun q hq => hq) (fun _ => rfl) (.refl _) fun _ h => (nomatch h), hh.reserved⟩
  | recorded records =>
    exact ⟨fun r hr => (hh.backed r hr).carry (fun q hq => hq) (fun _ => rfl) (.refl _) fun _ h => (nomatch h), hh.reserved⟩

theorem outside (hk : Keys db) (hh : Held db) (h : Outside desk db db') : Held db' := by
  have hcarries := Carries.of_apart (h.apart hk)
  have hreserved : ∀ o ∈ db'.wallet.operations, o.subjectKind = .ticketManagement → o.state ≠ .reconciliation ∧
      (o.state = .reserved → ∃ r ∈ db.requests, r.status = .approved ∧ r.terminalOutcome = none ∧
        r.holdOperationId = some o.id) := by
    intro o ho hkind
    rcases (h.apart hk).traced o ho with hold | ⟨hother, -⟩
    · exact hh.reserved o hold hkind
    · exact absurd hkind hother
  have hbacked : ∀ r ∈ db.requests, (db'.quotes = db.quotes → selections db' r = selections db r → Backed db' r) :=
    fun r hr hquotes hselections => (hh.backed r hr).carry (fun q hq => hquotes ▸ hq) (fun _ => hselections) hcarries
      fun _ h => nomatch h
  cases h with
  | call call wallet hallowed hrun => exact ⟨fun r hr => hbacked r hr rfl rfl, hreserved⟩
  | status owners => exact ⟨fun r hr => hbacked r hr rfl rfl, hreserved⟩

end Held

/-! ## Reachable states -/

/-- The keys, the claims and the holds of the tables. -/
structure Tidy (db : Db) : Prop where
  keys : Keys db
  claimed : Claimed db
  held : Held db

theorem tidy_reachable (h : (machine desk).Reachable db) : Tidy db := by
  refine invariant (fun records => ⟨.start records, .start records, .start records⟩)
    (fun db hI => ⟨hI.keys.requests, hI.keys.quotes⟩) ?_ ?_ ?_ h
  · exact fun db db' hI hquiet => ⟨hI.keys.quiet hquiet, hI.claimed.quiet hI.keys hquiet,
      hI.held.quiet hI.keys hI.claimed hquiet⟩
  · exact fun db actor r input draw saved db' hI hturned => ⟨hI.keys.turned hturned,
      hI.claimed.turned hI.keys hturned, hI.held.turned hI.keys hI.claimed hturned⟩
  · exact fun db db' hI houtside => ⟨hI.keys.outside houtside, hI.claimed.outside houtside,
      hI.held.outside hI.keys houtside⟩

end ShaponTravels.Wallet.Tickets
