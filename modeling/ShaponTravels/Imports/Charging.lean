import ShaponTravels.Imports.Portal
import ShaponTravels.Wallet.Changes

/-!
# Charging — what a run charges for its imports

A confirmed import is paid by one operation of the wallet, and by no other; everything else that is done to the
wallet leaves that operation captured.
-/

namespace ShaponTravels.Imports

open Library
open Wallet (WalletDb WalletOperation FinancialSubject SubjectKind Continues Extends countOf)

variable {desk : Desk} {env : Surroundings} {db db' s₀ s : Db} {actor : Principal} {draw : Draw}
  {t : List (Transition Db Event)} {wallet wallet' : WalletDb} {subjects : List FinancialSubject} {pf : Platform}

/-! ## Operations -/

/-- The operation charges for an import. -/
def chargesFor (id : Uuid) (o : WalletOperation) : Bool :=
  o.subjectKind = .manualIssue ∧ o.subjectId = id

/-- An operation of the wallet that charges for an import keeps doing so. -/
theorem continues_charges {o o' : WalletOperation} (h : Continues o o') (id : Uuid) :
    chargesFor id o' = chargesFor id o := by
  rw [h.identity]
  rfl

theorem mem_of_identity (hs : Wallet.Sound wallet') (h : Extends wallet wallet') {o o' : WalletOperation}
    (ho : o ∈ wallet.operations) (ho' : o' ∈ wallet'.operations) (hid : o.id = o'.id) : Continues o o' := by
  obtain ⟨o'', ho'', hcontinues⟩ := h.operations o ho
  obtain rfl := hs.keyed.operations.eq_of_key ho'' ho' (hcontinues.id.trans hid)
  exact hcontinues

/-- Only a charge reserves for an import. -/
theorem run_charges {call : Wallet.Call} (hs : Wallet.Faithful wallet) (hother : reservesImport call = false)
    (h : call.run pf subjects wallet = .ok wallet') :
    Wallet.Faithful wallet' ∧ Extends wallet wallet' ∧ ∀ o' ∈ wallet'.operations, o'.subjectKind = .manualIssue →
      ∃ o ∈ wallet.operations, Continues o o' := by
  have hadvanced := hs.run h
  have hkept : wallet'.identities = wallet.identities → ∀ o' ∈ wallet'.operations, o'.subjectKind = .manualIssue →
      ∃ o ∈ wallet.operations, Continues o o' := by
    intro hidentities o' ho' _
    obtain ⟨o, ho, hidentity⟩ := Wallet.mem_identities hidentities ho'
    have hid : o.identity.id = o'.identity.id := congrArg WalletOperation.id hidentity
    exact ⟨o, ho, mem_of_identity hadvanced.faithful.toSound hadvanced.history ho ho' hid⟩
  refine ⟨hadvanced.faithful, hadvanced.history, ?_⟩
  cases call with
  | provision owner currency display ownerId accountId =>
    obtain ⟨⟨account, w⟩, hcall, rfl⟩ := map_eq_ok.mp h
    obtain ⟨hoperations, -, -⟩ := Wallet.provision_operations hcall
    exact hkept (by simp only [WalletDb.identities, hoperations])
  | posting p =>
    obtain ⟨⟨e, w⟩, hcall, rfl⟩ := map_eq_ok.mp h
    rw [mapError_eq_ok] at hcall
    exact hkept (Wallet.posting_identities hcall)
  | reserve r draw =>
    obtain ⟨⟨o, w⟩, hcall, rfl⟩ := map_eq_ok.mp h
    obtain ⟨kind, c, hkind, -, -, ⟨rfl, -⟩ | ⟨-, -, hoperations, -⟩⟩ := Wallet.reserve_operations hs.keyed hcall
    · exact fun o' ho' _ => ⟨o', ho', .refl o'⟩
    · intro o' ho' hmanual
      rw [hoperations] at ho'
      rcases List.mem_append.mp ho' with ho' | ho'
      · exact ⟨o', ho', .refl o'⟩
      · -- The new operation is of another kind.
        rw [List.mem_singleton.mp ho'] at hmanual
        change kind = .manualIssue at hmanual
        rw [hmanual, SubjectKind.ofText?_eq_some] at hkind
        rw [reservesImport, hkind] at hother
        exact absurd hother (by decide)
  | settle id capture actor role draw =>
    obtain ⟨⟨o, w⟩, hcall, rfl⟩ := map_eq_ok.mp h
    exact hkept (Wallet.settle_identities hs.toSound hcall)
  | markReconciliation id =>
    cases h
    exact hkept (Wallet.markReconciliation_identities wallet id)

/-- A charge reserves and captures one operation for its import. -/
theorem charge_ok {id op : Uuid} {agency currency : String} {amount : Int} (hs : Wallet.Faithful wallet)
    (hnone : ∀ o ∈ wallet.operations, ¬ chargesFor id o)
    (h : charge desk subjects wallet id agency currency amount actor draw = .ok (op, wallet')) :
    Wallet.Faithful wallet' ∧ Extends wallet wallet' ∧ ∃ o, wallet'.operations = wallet.operations ++ [o] ∧
      o.id = op ∧ chargesFor id o ∧ o.state = .captured ∧ o.amount = amount ∧
      o.currency.text = currency := by
  simp only [charge, bind_eq_ok, pure_eq_ok, Prod.mk.injEq] at h
  obtain ⟨account, -, ⟨o₁, w₁⟩, hreserve, ⟨o₂, w₂⟩, hsettle, rfl, rfl⟩ := h
  have hreserved := hs.reserve hreserve
  have hsettled := hreserved.faithful.settle hsettle
  refine ⟨hsettled.faithful, hreserved.history.trans hsettled.history, ?_⟩
  obtain ⟨kind, c, hkind, hc, -, hcases⟩ := Wallet.reserve_ok hreserve
  have hmanual : kind = .manualIssue := by
    have hof : SubjectKind.ofText? "manual_issue" = some .manualIssue := by decide
    exact Option.some.inj (hkind.symm.trans hof)
  rcases hcases with ⟨-, hmem, hk, hsubject, -⟩ | ⟨hnew, -, -, -, hmem, hid⟩
  · exact absurd (decide_eq_true ⟨hk.trans hmanual, hsubject⟩) (hnone o₁ hmem)
  obtain ⟨kind', c', hkind', hc', -, ⟨-, hold, -⟩ | ⟨-, -, hoperations, -⟩⟩ :=
    Wallet.reserve_operations hs.keyed hreserve
  · exact absurd hid (hnew o₁ hold)
  have hkinds : kind' = .manualIssue := (Option.some.inj (hkind'.symm.trans hkind)).trans hmanual
  let row := (reservation id account draw.operation currency amount actor).row kind' c'
    ((reservation id account draw.operation currency amount actor).hash desk.pf)
  have hrow : row.id = o₁.id := hid.symm
  -- The reservation is the last of the operations, and the settlement captures it.
  have hmodify : Library.modify WalletOperation.id o₁.id (fun o => { o with state := .captured }) w₁.operations =
      wallet.operations ++ [{ row with state := .captured }] := by
    have hothers : ∀ o ∈ wallet.operations, o.id ≠ o₁.id := fun o ho heq => hnew o ho (heq.trans hid)
    have hfirst : wallet.operations.map (fun o => if o.id = o₁.id then { o with state := .captured } else o) =
        wallet.operations := modify_of_absent hothers
    rw [hoperations, Library.modify, List.map_append, hfirst, List.map_singleton, if_pos hrow]
  obtain ⟨current, hcurrent, hcid, -, ⟨-, hstate⟩ | ⟨-, hsettled⟩⟩ :=
    Wallet.settle_operations hreserved.faithful.toSound hsettle
  · rw [hoperations] at hcurrent
    rcases List.mem_append.mp hcurrent with hc | hc
    · exact absurd (hcid.trans hid) (hnew current hc)
    · rw [List.mem_singleton.mp hc] at hstate
      cases hstate
  · exact ⟨_, hsettled.trans hmodify, hrow, decide_eq_true ⟨hkinds, rfl⟩, rfl, rfl, hc'.symm⟩

/-! ## Steps -/

theorem statusOf?_confirmed {text : String} : statusOf? text = some .confirmed ↔ text = "confirmed" := by
  constructor
  · intro h
    unfold statusOf? at h
    split at h
    all_goals first | rfl | cases h
  · rintro rfl
    rfl

/-- A confirmed import and the operation it is paid by. -/
structure ImportBooking.PaidBy (b : ImportBooking) (o : WalletOperation) : Prop where
  charges : chargesFor b.id o
  confirmed : b.status = .confirmed
  operation : b.operationId = some o.id
  amount : o.amount = b.payableMinor
  currency : o.currency.text = b.currency
  captured : o.state = .captured

/-- What an import that is written costs: one operation when it is confirmed, and nothing else. -/
def Db.Pays (db db' : Db) (b : ImportBooking) : Prop :=
  b.status = .confirmed ∧ (∃ o, db'.wallet.operations = db.wallet.operations ++ [o] ∧ b.PaidBy o) ∨
    b.status ≠ .confirmed ∧ db'.wallet.operations = db.wallet.operations

/-- An import at a later time. -/
structure ImportBooking.Later (b b' : ImportBooking) : Prop where
  id : b'.id = b.id
  reference : (b'.provider, b'.supplierReference) = (b.provider, b.supplierReference)
  payable : b'.payableMinor = b.payableMinor
  currency : b'.currency = b.currency
  agency : b'.agencyCode = b.agencyCode
  confirmed : b.status = .confirmed → b' = b

theorem ImportBooking.Later.refl (b : ImportBooking) : b.Later b := ⟨rfl, rfl, rfl, rfl, rfl, fun _ => rfl⟩

theorem ImportBooking.Later.trans {b b' b'' : ImportBooking} (h : b.Later b') (h' : b'.Later b'') : b.Later b'' := by
  refine ⟨h'.id.trans h.id, h'.reference.trans h.reference, h'.payable.trans h.payable, h'.currency.trans h.currency,
    h'.agency.trans h.agency, fun hconfirmed => ?_⟩
  obtain rfl := h.confirmed hconfirmed
  exact h'.confirmed hconfirmed

/-- What a step does to the imports and to what they cost. -/
inductive Db.Charges (db db' : Db) : Prop
  | quiet : db'.imports = db.imports →
      (∀ o' ∈ db'.wallet.operations, o'.subjectKind = .manualIssue → ∃ o ∈ db.wallet.operations, Continues o o') →
      Charges db db'
  | imported (b : ImportBooking) : (∀ b' ∈ db.imports, b'.id ≠ b.id) →
      (∀ b' ∈ db.imports, (b'.provider, b'.supplierReference) ≠ (b.provider, b.supplierReference)) →
      db'.imports = db.imports ++ [b] → db.Pays db' b → Charges db db'
  | changed (old b : ImportBooking) : old ∈ db.imports → old.status = .onHold → old.Later b →
      db'.imports = modify ImportBooking.id old.id (fun _ => b) db.imports → db.Pays db' b → Charges db db'

/-- What holds of the imports and their charges between transactions. -/
structure Charged (db : Db) : Prop where
  wallet : Wallet.Faithful db.wallet
  ids : KeyUnique ImportBooking.id db.imports
  references : KeyUnique (fun b : ImportBooking => (b.provider, b.supplierReference)) db.imports
  paid : ∀ o ∈ db.wallet.operations, o.subjectKind = .manualIssue → ∃ b ∈ db.imports, b.PaidBy o
  charged : ∀ b ∈ db.imports, b.status = .confirmed → ∃ o ∈ db.wallet.operations, b.PaidBy o

/-- Nothing has been charged for an import that is not there, or not confirmed. -/
theorem Charged.uncharged (h : Charged db) {id : Uuid}
    (hnone : ∀ b ∈ db.imports, b.id = id → b.status ≠ .confirmed) :
    ∀ o ∈ db.wallet.operations, ¬ chargesFor id o := by
  intro o ho hcharges
  simp only [chargesFor, Bool.decide_and, Bool.and_eq_true, decide_eq_true_eq] at hcharges
  obtain ⟨hkind, hsubject⟩ := hcharges
  obtain ⟨b, hb, hpaid⟩ := h.paid o ho hkind
  have hid := hpaid.charges
  simp only [chargesFor, Bool.decide_and, Bool.and_eq_true, decide_eq_true_eq] at hid
  exact hnone b hb (hid.2.symm.trans hsubject) hpaid.confirmed

theorem faithful_logged (h : Wallet.Faithful db.wallet) (actor id : Uuid) (action : String) :
    Wallet.Faithful (db.logged actor id action).wallet ∧ Extends db.wallet (db.logged actor id action).wallet := by
  have hadvanced := h.logged [⟨"admin", some actor.text, action, "portal_import", id.text, .obj []⟩]
  exact ⟨hadvanced.faithful, hadvanced.history⟩

/-- The wallet after a step: faithful, and the same at a later time. -/
def Db.Moves (db db' : Db) : Prop := Wallet.Faithful db'.wallet ∧ Extends db.wallet db'.wallet

theorem prepare_charges {p : Prepare} (hs : Charged db) (h : prepare desk env db actor p draw = .ok db') :
    db.Charges db' ∧ db.Moves db' := by
  simp only [prepare, bind_eq_ok, ensure_eq_ok, fetch_eq_ok, pure_eq_ok, exists_const] at h
  obtain ⟨-, -, -, -, data, -, target, -, -, agency, -, reference, -, currency, -, -, -, rfl⟩ := h
  refine ⟨.quiet rfl fun o' ho' _ => ⟨o', ho', .refl o'⟩, ?_⟩
  exact faithful_logged hs.wallet _ _ _

theorem authorize_charges {quoteId confirmationId : Uuid} (hs : Charged db)
    (h : authorize env db actor quoteId confirmationId = .ok db') : db.Charges db' ∧ db.Moves db' := by
  simp only [authorize, bind_eq_ok, fetch_eq_ok, ensure_eq_ok, exists_const] at h
  obtain ⟨a, -, b, -, -, h⟩ := h
  have hdb : db' = { db with
      quotes := modify Quote.id quoteId (fun q => { q with authorized := true }) db.quotes } := by
    split at h
    · simp only [bind_eq_ok, fetch_eq_ok, ensure_eq_ok, pure_eq_ok, exists_const] at h
      obtain ⟨_, -, -, -, rfl⟩ := h
      rfl
    · exact (pure_eq_ok.mp h).symm
  rw [hdb]
  exact ⟨.quiet rfl fun o' ho' _ => ⟨o', ho', .refl o'⟩, hs.wallet, .refl _⟩

/-- An import that is paid for is paid by one new operation. -/
theorem payment_ok {q : Quote} {id : Uuid} {paid : Bool} {op : Option Uuid} (hs : Charged db)
    (hnone : ∀ b ∈ db.imports, b.id = id → b.status ≠ .confirmed)
    (h : payment desk env db actor q id paid draw = .ok (op, wallet)) :
    Wallet.Faithful wallet ∧ Extends db.wallet wallet ∧
      (paid = true ∧ (∃ o, wallet.operations = db.wallet.operations ++ [o] ∧ op = some o.id ∧ chargesFor id o ∧
        o.state = .captured ∧ o.amount = q.payableMinor ∧ o.currency.text = q.currency) ∨
      paid = false ∧ wallet.operations = db.wallet.operations) := by
  unfold payment at h
  cases paid with
  | true =>
    rw [if_pos rfl] at h
    simp only [bind_eq_ok, pure_eq_ok, Prod.mk.injEq] at h
    obtain ⟨⟨op', wallet'⟩, hcharge, rfl, rfl⟩ := h
    obtain ⟨hfaithful, hextends, o, hoperations, hid, hcharges, hstate, hamount, hcurrency⟩ :=
      charge_ok hs.wallet (hs.uncharged hnone) hcharge
    exact ⟨hfaithful, hextends, .inl ⟨rfl, o, hoperations, congrArg some hid.symm, hcharges, hstate, hamount, hcurrency⟩⟩
  | false =>
    rw [if_neg (by decide)] at h
    obtain ⟨-, rfl⟩ := Prod.mk.inj (pure_eq_ok.mp h)
    exact ⟨hs.wallet, .refl _, .inr ⟨rfl, rfl⟩⟩

/-- A fresh import is of a new reference, and is charged when its quote says it is confirmed. -/
theorem importFresh_charges {q : Quote} {c : Import} (hs : Charged db)
    (h : importFresh desk env db actor q c draw = .ok db') :
    db.Charges db' ∧ db.Moves db' := by
  simp only [importFresh, insertImport, checkAuthorization, bind_eq_ok, fetch_eq_ok, ensure_eq_ok, pure_eq_ok,
    exists_const] at h
  obtain ⟨-, subject, -, current, -, -, hcharge, -, -, reference, -, -, ⟨op, wallet⟩, hpayment, status, hstatus, db₁,
    ⟨hid, -, hreference, -, -, rfl⟩, -, _, -, rfl⟩ := h
  obtain ⟨hfaithful, hextends, hpaid⟩ := payment_ok hs (fun b hb heq => absurd heq (hid b hb)) hpayment
  have hconfirmed : status = .confirmed ↔ c.charge = true := by
    obtain ⟨text, htext, hof⟩ := Option.bind_eq_some_iff.mp hstatus
    rw [hcharge, decide_eq_true_eq, Value.asStr?_eq_some.mp htext]
    constructor
    · intro hc
      rw [hc] at hof
      rw [(statusOf?_confirmed.mp hof)]
    · intro hlifecycle
      obtain rfl := Value.str.inj hlifecycle
      exact (Option.some.inj hof).symm
  constructor
  · refine .imported _ hid hreference rfl ?_
    rcases hpaid with ⟨hpaid, o, hoperations, hop, hcharges, hstate, hamount, hcurrency⟩ | ⟨hpaid, hoperations⟩
    · exact .inl ⟨hconfirmed.mpr hpaid, o, hoperations, hcharges, hconfirmed.mpr hpaid, hop, hamount, hcurrency, hstate⟩
    · refine .inr ⟨fun hc => ?_, hoperations⟩
      rw [hconfirmed.mp hc] at hpaid
      cases hpaid
  · have hlogged := hfaithful.logged [⟨"admin", some actor.id.text, "import.created", "portal_import", draw.id.text, .obj []⟩]
    exact ⟨hlogged.faithful, hextends.trans hlogged.history⟩

/-- Only an import on hold is changed, and it is charged when it is confirmed. -/
theorem changeStatus_charges {c : StatusChange} (hs : Charged db)
    (h : changeStatus desk env db actor c draw = .ok db') : db.Charges db' ∧ db.Moves db' := by
  simp only [changeStatus, bind_eq_ok, fetch_eq_ok, ensure_eq_ok, pure_eq_ok, exists_const,
    Option.filter_eq_some_iff, decide_eq_true_eq] at h
  obtain ⟨b, hb, -, -, status, ⟨hstatus, hhold, -⟩, ⟨op, wallet, saved⟩, hsettle, version, -, _, -, rfl⟩ := h
  have hmem : b ∈ db.imports := List.mem_of_find?_eq_some hb
  have hnone : ∀ b' ∈ db.imports, b'.id = b.id → b'.status ≠ .confirmed := by
    intro b' hb' hid
    obtain rfl := hs.ids.eq_of_key hb' hmem hid
    rw [hhold]
    decide
  have hlater : ∀ b' : ImportBooking, b'.id = b.id → b'.provider = b.provider →
      b'.supplierReference = b.supplierReference → b'.payableMinor = b.payableMinor → b'.currency = b.currency →
      b'.agencyCode = b.agencyCode → b.Later b' := by
    intro b' hid hprovider hreference hpayable hcurrency hagency
    refine ⟨hid, by rw [hprovider, hreference], hpayable, hcurrency, hagency, fun hconfirmed => ?_⟩
    rw [hhold] at hconfirmed
    cases hconfirmed
  have hmoves : ∀ {w : WalletDb}, Wallet.Faithful w → Extends db.wallet w → ∀ events,
      Wallet.Faithful { w with audit := w.audit ++ events } ∧ Extends db.wallet { w with audit := w.audit ++ events } := by
    intro w hfaithful hextends events
    have hlogged := hfaithful.logged events
    exact ⟨hlogged.faithful, hextends.trans hlogged.history⟩
  unfold settleStatus at hsettle
  split at hsettle
  · rename_i hconfirmed
    simp only [bind_eq_ok, pure_eq_ok, Prod.mk.injEq] at hsettle
    obtain ⟨-, -, ⟨op', wallet'⟩, hcharge, rfl, rfl, rfl⟩ := hsettle
    obtain ⟨hfaithful, hextends, o, hoperations, hid, hcharges, hstate, hamount, hcurrency⟩ :=
      charge_ok hs.wallet (hs.uncharged hnone) hcharge
    let row : ImportBooking := { b with
      status := status
      data := (withEvidence b.data c.data).setField "lifecycleStatus" (.str c.status)
      operationId := some op'
      issuedAt := if status = .confirmed then some (issueTime desk env.now (withEvidence b.data c.data)) else none
      version := version }
    refine ⟨.changed b row hmem hhold (hlater row rfl rfl rfl rfl rfl rfl) rfl ?_, hmoves hfaithful hextends _⟩
    exact .inl ⟨hconfirmed, o, hoperations, hcharges, hconfirmed, congrArg some hid.symm, hamount, hcurrency, hstate⟩
  · rename_i hother
    obtain ⟨-, hrest⟩ := Prod.mk.inj (pure_eq_ok.mp hsettle)
    obtain ⟨rfl, -⟩ := Prod.mk.inj hrest
    let row : ImportBooking := { b with
      status := status
      data := saved.setField "lifecycleStatus" (.str c.status)
      operationId := op
      issuedAt := if status = .confirmed then some (issueTime desk env.now saved) else none
      version := version }
    refine ⟨.changed b row hmem hhold (hlater row rfl rfl rfl rfl rfl rfl) rfl (.inr ⟨hother, rfl⟩), ?_⟩
    exact hmoves hs.wallet (.refl _) _

/-- A request that is known is a replay of its fingerprint, and leaves everything as it is. -/
theorem importBooking_ok {c : Import} {replay : Bool} (h : importBooking desk env db actor c draw = .ok (replay, db')) :
    ∃ q, q ∈ db.quotes ∧ q.id = c.quoteId ∧ q.actorId = actor.id ∧
      ((∃ r ∈ db.requests, r.actorId = actor.id ∧ r.requestId = c.requestId ∧ r.fingerprint = q.fingerprint) ∧
          db' = db ∨
        (∀ r ∈ db.requests, ¬ (r.actorId = actor.id ∧ r.requestId = c.requestId)) ∧
          importFresh desk env db actor q c draw = .ok db') := by
  simp only [importBooking, bind_eq_ok, fetch_eq_ok] at h
  obtain ⟨q, hq, h⟩ := h
  have hquote := List.find?_some hq
  simp only [decide_eq_true_eq] at hquote
  refine ⟨q, List.mem_of_find?_eq_some hq, hquote.1, hquote.2, ?_⟩
  split at h
  · rename_i r hr
    simp only [bind_eq_ok, ensure_eq_ok, fetch_eq_ok, pure_eq_ok, exists_const] at h
    obtain ⟨hfingerprint, _, -, _, -, heq⟩ := h
    have hrequest := List.find?_some hr
    simp only [decide_eq_true_eq] at hrequest
    exact .inl ⟨⟨r, List.mem_of_find?_eq_some hr, hrequest.1, hrequest.2, hfingerprint⟩, (Prod.mk.inj heq).2.symm⟩
  · rename_i hnone
    simp only [bind_eq_ok, pure_eq_ok] at h
    obtain ⟨fresh, hfresh, heq⟩ := h
    obtain ⟨-, rfl⟩ := Prod.mk.inj heq
    refine .inr ⟨fun r hr hsame => ?_, hfresh⟩
    exact List.find?_eq_none.mp hnone r hr (decide_eq_true hsame)

theorem step_charges {ev : Event} (hs : Charged db) (h : step desk db ev = .ok db') : db.Charges db' ∧ db.Moves db' := by
  cases ev with
  | command env actor command draw =>
    simp only [step, execute, bind_eq_ok, ensure_eq_ok, exists_const] at h
    obtain ⟨-, h⟩ := h
    cases command with
    | prepare p => exact prepare_charges hs h
    | authorize quoteId confirmationId => exact authorize_charges hs h
    | importBooking c =>
      obtain ⟨⟨replay, next⟩, himport, hnext⟩ := bind_eq_ok.mp h
      obtain rfl := pure_eq_ok.mp hnext
      obtain ⟨q, -, -, -, ⟨-, rfl⟩ | ⟨-, hfresh⟩⟩ := importBooking_ok himport
      · exact ⟨.quiet rfl fun o' ho' _ => ⟨o', ho', .refl o'⟩, hs.wallet, .refl _⟩
      · exact importFresh_charges hs hfresh
    | status c => exact changeStatus_charges hs h
  | wallet subjects call =>
    simp only [step, bind_eq_ok, ensure_eq_ok, pure_eq_ok, exists_const] at h
    obtain ⟨hother, wallet, hrun, rfl⟩ := h
    obtain ⟨hfaithful, hextends, hkept⟩ := run_charges hs.wallet (Bool.not_eq_true _ ▸ hother) hrun
    exact ⟨.quiet rfl hkept, hfaithful, hextends⟩
  | status owner status =>
    cases h
    have hadvanced : Wallet.Advanced db.wallet { db.wallet with
        owners := modify Wallet.WalletOwner.id owner (fun o => { o with status := status }) db.wallet.owners } :=
      hs.wallet.of_same_money rfl rfl rfl (List.prefix_refl _)
    exact ⟨.quiet rfl fun o' ho' _ => ⟨o', ho', .refl o'⟩, hadvanced.faithful, hadvanced.history⟩

/-! ## The invariant -/

/-- The operation of a confirmed import stays as it is, but for what is refunded. -/
theorem ImportBooking.PaidBy.later {b : ImportBooking} {o o' : WalletOperation} (h : b.PaidBy o)
    (hcontinues : Continues o o') : b.PaidBy o' := by
  refine ⟨(continues_charges hcontinues b.id).trans h.charges, h.confirmed, ?_, hcontinues.amount.trans h.amount, ?_, ?_⟩
  · rw [hcontinues.id]
    exact h.operation
  · rw [hcontinues.identity]
    exact h.currency
  · rw [hcontinues.closed (by rw [h.captured]; rfl)]
    exact h.captured

theorem Charged.step {ev : Event} (hs : Charged db) (h : step desk db ev = .ok db') : Charged db' := by
  obtain ⟨hcharges, hfaithful, hextends⟩ := step_charges hs h
  -- What was paid still is, and so is what has been added.
  have hkept : ∀ {b : ImportBooking}, (∃ o ∈ db.wallet.operations, b.PaidBy o) →
      ∃ o ∈ db'.wallet.operations, b.PaidBy o := by
    rintro b ⟨o, ho, hpaid⟩
    obtain ⟨o', ho', hcontinues⟩ := hextends.operations o ho
    exact ⟨o', ho', hpaid.later hcontinues⟩
  have hnew : ∀ {b : ImportBooking}, db.Pays db' b → b.status = .confirmed → ∃ o ∈ db'.wallet.operations, b.PaidBy o := by
    rintro b (⟨-, o, hoperations, hpaid⟩ | ⟨hnot, -⟩) hconfirmed
    · exact ⟨o, hoperations ▸ List.mem_append_right _ List.mem_cons_self, hpaid⟩
    · exact absurd hconfirmed hnot
  have hpays : ∀ {b : ImportBooking}, db.Pays db' b → ∀ o ∈ db'.wallet.operations, o.subjectKind = .manualIssue →
      (∃ b' ∈ db.imports, b'.PaidBy o) ∨ b.PaidBy o := by
    rintro b (⟨-, new, hoperations, hpaid⟩ | ⟨-, hoperations⟩) o ho hkind
    · rw [hoperations] at ho
      rcases List.mem_append.mp ho with ho | ho
      · exact .inl (hs.paid o ho hkind)
      · rw [List.mem_singleton.mp ho]
        exact .inr hpaid
    · exact .inl (hs.paid o (hoperations ▸ ho) hkind)
  cases hcharges with
  | quiet himports hoperations =>
    refine ⟨hfaithful, himports ▸ hs.ids, himports ▸ hs.references, fun o' ho' hkind => ?_, fun b hb hconfirmed => ?_⟩
    · obtain ⟨o, ho, hcontinues⟩ := hoperations o' ho' hkind
      have hbefore : o.subjectKind = .manualIssue := by
        have hsame : o'.subjectKind = o.subjectKind := by rw [hcontinues.identity]
        exact hsame.symm.trans hkind
      obtain ⟨b, hb, hpaid⟩ := hs.paid o ho hbefore
      exact ⟨b, himports ▸ hb, hpaid.later hcontinues⟩
    · exact hkept (hs.charged b (himports ▸ hb) hconfirmed)
  | imported b hid hreference himports hb =>
    refine ⟨hfaithful, ?_, ?_, fun o ho hkind => ?_, fun b' hb' hconfirmed => ?_⟩
    · rw [himports]
      exact keyUnique_concat.mpr ⟨hs.ids, hid⟩
    · rw [himports]
      exact keyUnique_concat.mpr ⟨hs.references, hreference⟩
    · rw [himports]
      rcases hpays hb o ho hkind with ⟨b', hb', hpaid⟩ | hpaid
      · exact ⟨b', List.mem_append_left _ hb', hpaid⟩
      · exact ⟨b, List.mem_append_right _ List.mem_cons_self, hpaid⟩
    · rw [himports] at hb'
      rcases List.mem_append.mp hb' with hb' | hb'
      · exact hkept (hs.charged b' hb' hconfirmed)
      · rw [List.mem_singleton.mp hb'] at hconfirmed ⊢
        exact hnew hb hconfirmed
  | changed old b hold hhold hlater himports hb =>
    have hsame : ∀ x ∈ db.imports, x.id = old.id → x = old := fun x hx heq => hs.ids.eq_of_key hx hold heq
    have hmap : ∀ {κ : Type} (key : ImportBooking → κ), key b = key old →
        (modify ImportBooking.id old.id (fun _ => b) db.imports).map key = db.imports.map key := by
      intro κ key hkey
      rw [Library.modify, List.map_map]
      refine List.map_congr_left fun x hx => ?_
      show key (if x.id = old.id then b else x) = key x
      split
      · rename_i heq
        rw [hsame x hx heq, hkey]
      · rfl
    refine ⟨hfaithful, ?_, ?_, fun o ho hkind => ?_, fun b' hb' hconfirmed => ?_⟩
    · rw [KeyUnique, himports, hmap _ hlater.id]
      exact hs.ids
    · rw [KeyUnique, himports, hmap _ hlater.reference]
      exact hs.references
    · rw [himports]
      rcases hpays hb o ho hkind with ⟨b', hb', hpaid⟩ | hpaid
      · refine ⟨b', mem_modify_of_ne hb' fun heq => ?_, hpaid⟩
        rw [hsame b' hb' heq] at hpaid
        have hconfirmed := hpaid.confirmed
        rw [hhold] at hconfirmed
        cases hconfirmed
      · exact ⟨b, mem_modify_of_mem (f := fun _ => b) hold rfl, hpaid⟩
    · rw [himports] at hb'
      rcases modify_cases hb' with ⟨hb', -⟩ | ⟨-, -, -, rfl⟩
      · exact hkept (hs.charged b' hb' hconfirmed)
      · exact hnew hb hconfirmed

theorem charged_empty : Charged .empty :=
  ⟨.empty, .nil, .nil, fun _ ho => absurd ho List.not_mem_nil, fun _ hb => absurd hb List.not_mem_nil⟩

theorem run_charged (hrun : (machine desk).Run s₀ t s) (h : Charged s₀) : Charged s :=
  hrun.invariant (fun _ _ _ h hs => h.step hs) h

/-- No import is lost. -/
theorem Db.Charges.kept (h : db.Charges db') (hs : Charged db) {b : ImportBooking} (hb : b ∈ db.imports) :
    ∃ b' ∈ db'.imports, b.Later b' := by
  cases h with
  | quiet himports _ => exact ⟨b, himports ▸ hb, .refl b⟩
  | imported new _ _ himports _ => exact ⟨b, himports ▸ List.mem_append_left _ hb, .refl b⟩
  | changed old new hold _ hlater himports _ =>
    by_cases heq : b.id = old.id
    · obtain rfl := hs.ids.eq_of_key hb hold heq
      exact ⟨new, himports ▸ mem_modify_of_mem (f := fun _ => new) hb rfl, hlater⟩
    · exact ⟨b, himports ▸ mem_modify_of_ne hb heq, .refl b⟩

/-! ## Requests and authorizations -/

/-- A quote that is authorized for what another quote of the actor would be charged. -/
def Db.authorizes (db : Db) (env : Surroundings) (actor : Principal) (q : Quote) (c : Import) : Prop :=
  ∃ a ∈ db.quotes, some a.id = c.authorizationId ∧ a.actorId = actor.id ∧ a.authorized ∧ env.clock < a.expiresAt ∧
    a.fingerprint = q.fingerprint

/-- A fresh import records its request, and charges what is not entered by hand under an authorization only. -/
theorem importFresh_ok {q : Quote} {c : Import} (h : importFresh desk env db actor q c draw = .ok db') :
    db'.quotes = db.quotes ∧
      (∃ r : ImportRequest, (∀ r' ∈ db.requests, (r'.actorId, r'.requestId) ≠ (r.actorId, r.requestId)) ∧
        db'.requests = db.requests ++ [r]) ∧
      (db'.wallet.operations ≠ db.wallet.operations → q.source ≠ "MANUAL" → db.authorizes env actor q c) := by
  simp only [importFresh, insertImport, checkAuthorization, bind_eq_ok, fetch_eq_ok, ensure_eq_ok, pure_eq_ok,
    exists_const] at h
  obtain ⟨-, subject, -, current, -, -, -, hauthorized, -, reference, -, -, ⟨op, wallet⟩, hpayment, status, -, db₁,
    ⟨-, -, -, -, -, rfl⟩, hrequest, _, -, rfl⟩ := h
  refine ⟨rfl, ⟨_, fun r' hr' heq => hrequest r' hr' (Prod.mk.inj heq), rfl⟩, fun hne hsource => ?_⟩
  cases hcharge : c.charge with
  | true => exact hauthorized ⟨hcharge, hsource⟩
  | false =>
    rw [payment, hcharge, if_neg (by decide)] at hpayment
    obtain ⟨-, rfl⟩ := Prod.mk.inj (pure_eq_ok.mp hpayment)
    exact absurd rfl hne

/-- What holds of the quotes and the requests between transactions. -/
structure Requested (db : Db) : Prop where
  quotes : KeyUnique Quote.id db.quotes
  providers : ∀ q ∈ db.quotes, q.provider ∈ providersOf q.source
  requests : KeyUnique (fun r : ImportRequest => (r.actorId, r.requestId)) db.requests

theorem Requested.step {ev : Event} (hs : Requested db) (h : step desk db ev = .ok db') : Requested db' := by
  cases ev with
  | command env actor command draw =>
    simp only [Imports.step, execute, bind_eq_ok, ensure_eq_ok, exists_const] at h
    obtain ⟨-, h⟩ := h
    cases command with
    | prepare p =>
      simp only [prepare, bind_eq_ok, ensure_eq_ok, fetch_eq_ok, pure_eq_ok, exists_const] at h
      obtain ⟨⟨hprovider, -⟩, -, -, -, data, -, target, -, -, agency, -, reference, -, currency, -, -, hfresh, rfl⟩ := h
      refine ⟨keyUnique_concat.mpr ⟨hs.quotes, hfresh⟩, fun q hq => ?_, hs.requests⟩
      rcases List.mem_append.mp hq with hq | hq
      · exact hs.providers q hq
      · rw [List.mem_singleton.mp hq]
        exact hprovider
    | authorize quoteId confirmationId =>
      simp only [authorize, bind_eq_ok, fetch_eq_ok, ensure_eq_ok, exists_const] at h
      obtain ⟨a, -, b, -, -, h⟩ := h
      have hdb : db' = { db with
          quotes := modify Quote.id quoteId (fun q => { q with authorized := true }) db.quotes } := by
        split at h
        · simp only [bind_eq_ok, fetch_eq_ok, ensure_eq_ok, pure_eq_ok, exists_const] at h
          obtain ⟨_, -, -, -, rfl⟩ := h
          rfl
        · exact (pure_eq_ok.mp h).symm
      rw [hdb]
      refine ⟨?_, fun q hq => ?_, hs.requests⟩
      · have hids : ∀ q : Quote, ({ q with authorized := true } : Quote).id = q.id := fun _ => rfl
        show ((modify Quote.id quoteId (fun q => { q with authorized := true }) db.quotes).map Quote.id).Nodup
        rw [map_modify hids]
        exact hs.quotes
      · rcases modify_cases hq with ⟨hq, -⟩ | ⟨q', hq', -, rfl⟩
        · exact hs.providers q hq
        · exact hs.providers q' hq'
    | importBooking c =>
      obtain ⟨⟨replay, next⟩, himport, hnext⟩ := bind_eq_ok.mp h
      obtain rfl := pure_eq_ok.mp hnext
      obtain ⟨q, -, -, -, ⟨-, rfl⟩ | ⟨-, hfresh⟩⟩ := importBooking_ok himport
      · exact hs
      · obtain ⟨hquotes, ⟨r, hnew, hrequests⟩, -⟩ := importFresh_ok hfresh
        exact ⟨hquotes ▸ hs.quotes, hquotes ▸ hs.providers, hrequests ▸ keyUnique_concat.mpr ⟨hs.requests, hnew⟩⟩
    | status c =>
      simp only [changeStatus, bind_eq_ok, fetch_eq_ok, ensure_eq_ok, pure_eq_ok, exists_const] at h
      obtain ⟨b, -, -, -, status, -, settled, -, version, -, _, -, rfl⟩ := h
      exact ⟨hs.quotes, hs.providers, hs.requests⟩
  | wallet subjects call =>
    simp only [Imports.step, bind_eq_ok, ensure_eq_ok, pure_eq_ok, exists_const] at h
    obtain ⟨-, wallet, -, rfl⟩ := h
    exact ⟨hs.quotes, hs.providers, hs.requests⟩
  | status owner status =>
    cases h
    exact ⟨hs.quotes, hs.providers, hs.requests⟩

theorem requested_empty : Requested .empty := ⟨.nil, fun _ hq => absurd hq List.not_mem_nil, .nil⟩

theorem run_requested (hrun : (machine desk).Run s₀ t s) (h : Requested s₀) : Requested s :=
  hrun.invariant (fun _ _ _ h hs => h.step hs) h

/-- Only a quote that is entered by hand is of the provider that stands for it. -/
theorem source_of_provider {source provider : String} (h : provider ∈ providersOf source) (hne : provider ≠ "MANUAL") :
    source ≠ "MANUAL" := by
  rintro rfl
  exact hne (List.mem_singleton.mp h)

/-! ## Runs -/

/-- The operation of an import is the only one that charges for it. -/
theorem Charged.only (hs : Charged db) {b : ImportBooking} {o : WalletOperation} (hpaid : b.PaidBy o)
    (hb : b ∈ db.imports) {o' : WalletOperation} (ho' : o' ∈ db.wallet.operations) (hcharges : chargesFor b.id o') :
    o'.id = o.id := by
  simp only [chargesFor, Bool.decide_and, Bool.and_eq_true, decide_eq_true_eq] at hcharges
  obtain ⟨b', hb', hpaid'⟩ := hs.paid o' ho' hcharges.1
  have hsubject := hpaid'.charges
  simp only [chargesFor, Bool.decide_and, Bool.and_eq_true, decide_eq_true_eq] at hsubject
  obtain rfl := hs.ids.eq_of_key hb' hb (hsubject.2.symm.trans hcharges.2)
  exact Option.some.inj (hpaid'.operation.symm.trans hpaid.operation)

theorem Charged.once (hs : Charged db) (id : Uuid) : (db.wallet.operations.filter (chargesFor id)).length ≤ 1 := by
  cases hfilter : db.wallet.operations.filter (chargesFor id) with
  | nil => exact Nat.zero_le _
  | cons o rest =>
    have hmem : o ∈ db.wallet.operations.filter (chargesFor id) := hfilter ▸ List.mem_cons_self
    obtain ⟨ho, hcharges⟩ := List.mem_filter.mp hmem
    have hcharges' := hcharges
    simp only [chargesFor, Bool.decide_and, Bool.and_eq_true, decide_eq_true_eq] at hcharges'
    obtain ⟨b, hb, hpaid⟩ := hs.paid o ho hcharges'.1
    have hid : b.id = id := by
      have hsubject := hpaid.charges
      simp only [chargesFor, Bool.decide_and, Bool.and_eq_true, decide_eq_true_eq] at hsubject
      exact hsubject.2.symm.trans hcharges'.2
    have hone := hs.wallet.keyed.operations.filter_eq ho hcharges fun o' ho' h' => hs.only hpaid hb ho' (hid ▸ h')
    rw [← hfilter, hone]
    exact Nat.le_refl _

/-- In every run a confirmed import has a captured operation of its payable and no other import has one; an import
is charged once at most, with one hold and one confirmation, and neither an import nor its charge is lost; no two
imports are of one reference of a provider; a request that is made again is of the same fingerprint and changes
nothing; and what is not entered by hand is charged under an authorization of its fingerprint that has not
expired. -/
theorem imports_charged_once (hrun : (machine desk).Run .empty t s) :
    (∀ b ∈ s.imports, b.status = .confirmed ↔ ∃ o ∈ s.wallet.operations, chargesFor b.id o ∧ o.state = .captured ∧
      o.amount = b.payableMinor ∧ o.currency.text = b.currency) ∧
    (∀ id, (s.wallet.operations.filter (chargesFor id)).length ≤ 1 ∧ ∀ o ∈ s.wallet.operations, chargesFor id o →
      countOf .bookingHold o.id s.wallet.entries = 1 ∧ countOf .bookingConfirm o.id s.wallet.entries = 1) ∧
    KeyUnique (fun b : ImportBooking => (b.provider, b.supplierReference)) s.imports ∧
    (∀ r ∈ t, Extends r.after.wallet s.wallet ∧ ∀ b ∈ r.after.imports, ∃ b' ∈ s.imports, b.Later b') ∧
    (∀ r ∈ t, ∀ env actor c draw, r.label = .command env actor (.importBooking c) draw →
      ∀ request ∈ r.before.requests, request.actorId = actor.id → request.requestId = c.requestId →
        r.after = r.before ∧ ∀ q ∈ r.before.quotes, q.id = c.quoteId → request.fingerprint = q.fingerprint) ∧
    ∀ r ∈ t, ∀ env actor c draw, r.label = .command env actor (.importBooking c) draw →
      r.after.wallet.operations ≠ r.before.wallet.operations → ∃ q ∈ r.before.quotes, q.id = c.quoteId ∧
        q.actorId = actor.id ∧ (q.provider ≠ "MANUAL" → r.before.authorizes env actor q c) := by
  have hcharged := run_charged hrun charged_empty
  have hpaid : ∀ o ∈ s.wallet.operations, ∀ id, chargesFor id o → ∃ b ∈ s.imports, b.PaidBy o ∧ b.id = id := by
    intro o ho id hcharges
    simp only [chargesFor, Bool.decide_and, Bool.and_eq_true, decide_eq_true_eq] at hcharges
    obtain ⟨b, hb, hpaid⟩ := hcharged.paid o ho hcharges.1
    have hsubject := hpaid.charges
    simp only [chargesFor, Bool.decide_and, Bool.and_eq_true, decide_eq_true_eq] at hsubject
    exact ⟨b, hb, hpaid, hsubject.2.symm.trans hcharges.2⟩
  -- What an import leaves, by whether its request is known.
  have himport : ∀ r ∈ t, ∀ env actor c draw, r.label = .command env actor (.importBooking c) draw →
      Requested r.before ∧ ∃ replay, importBooking desk env r.before actor c draw = .ok (replay, r.after) := by
    intro r hr env actor c draw hlabel
    obtain ⟨⟨t', hbefore⟩, hstep⟩ := hrun.mem hr
    refine ⟨run_requested hbefore requested_empty, ?_⟩
    rw [hlabel] at hstep
    obtain ⟨-, -, h⟩ := bind_eq_ok.mp hstep
    obtain ⟨⟨replay, next⟩, himport, hnext⟩ := bind_eq_ok.mp h
    obtain rfl := pure_eq_ok.mp hnext
    exact ⟨replay, himport⟩
  refine ⟨fun b hb => ⟨fun hconfirmed => ?_, ?_⟩, fun id => ⟨hcharged.once id, fun o ho hcharges => ?_⟩,
    hcharged.references, ?_, ?_, ?_⟩
  · obtain ⟨o, ho, hpays⟩ := hcharged.charged b hb hconfirmed
    exact ⟨o, ho, hpays.charges, hpays.captured, hpays.amount, hpays.currency⟩
  · rintro ⟨o, ho, hcharges, -⟩
    obtain ⟨b', hb', hpays, hid⟩ := hpaid o ho b.id hcharges
    obtain rfl := hcharged.ids.eq_of_key hb' hb hid
    exact hpays.confirmed
  · obtain ⟨b, -, hpays, -⟩ := hpaid o ho id hcharges
    have hsound := hcharged.wallet.operations o ho
    have hconfirms := hsound.confirms
    rw [if_pos hpays.captured] at hconfirms
    exact ⟨hsound.holds, hconfirms⟩
  · intro r hr
    obtain ⟨t₁, t₂, -, hbefore, hstep, hafter⟩ := hrun.split hr
    have hstart := run_charged (hbefore.snoc hstep) charged_empty
    refine hafter.relates (I := Charged) (R := fun s s' => Extends s.wallet s'.wallet ∧
      ∀ b ∈ s.imports, ∃ b' ∈ s'.imports, b.Later b') (fun s => ⟨.refl _, fun b hb => ⟨b, hb, .refl b⟩⟩) ?_
      (fun _ _ _ h hs => h.step hs) ?_ hstart
    · intro s s' s'' h h'
      refine ⟨h.1.trans h'.1, fun b hb => ?_⟩
      obtain ⟨b', hb', hlater⟩ := h.2 b hb
      obtain ⟨b'', hb'', hlater'⟩ := h'.2 b' hb'
      exact ⟨b'', hb'', hlater.trans hlater'⟩
    · intro s ev s' h hs
      obtain ⟨hcharges, -, hextends⟩ := step_charges h hs
      exact ⟨hextends, fun b hb => hcharges.kept h hb⟩
  · intro r hr env actor c draw hlabel request hrequest hactor hid
    obtain ⟨hrequested, replay, h⟩ := himport r hr env actor c draw hlabel
    obtain ⟨q, hq, hqid, -, ⟨⟨request', hrequest', hactor', hid', hsame⟩, heq⟩ | ⟨hnone, -⟩⟩ := importBooking_ok h
    · refine ⟨heq, fun q' hq' hquote => ?_⟩
      obtain rfl := hrequested.quotes.eq_of_key hq' hq (hquote.trans hqid.symm)
      obtain rfl := hrequested.requests.eq_of_key hrequest hrequest' (by rw [hactor, hid, hactor', hid'])
      exact hsame
    · exact absurd ⟨hactor, hid⟩ (hnone request hrequest)
  · intro r hr env actor c draw hlabel hne
    obtain ⟨hrequested, replay, h⟩ := himport r hr env actor c draw hlabel
    obtain ⟨q, hq, hqid, hactor, ⟨-, heq⟩ | ⟨-, hfresh⟩⟩ := importBooking_ok h
    · rw [heq] at hne
      exact absurd rfl hne
    · obtain ⟨-, -, hauthorized⟩ := importFresh_ok hfresh
      exact ⟨q, hq, hqid, hactor, fun hprovider =>
        hauthorized hne (source_of_provider (hrequested.providers q hq) hprovider)⟩

/-! ### A run -/

/-- A desk that reads every time as the same. -/
def chargingDesk : Desk := ⟨⟨fun _ => 0, id, id, id⟩, fun _ => some 0⟩

def chargingOffice : Surroundings where
  now := 0
  clock := 0
  principal _ := .ok ⟨3, "agency", "b2b", some "AGENCY"⟩
  subjectOf _ := some "agency"
  price _ _ := .error invalid
  flights := []
  natives := []
  reply _ := .ok ()

/-- What was issued elsewhere, with its ticket. -/
def issuedData : Value :=
  .object [("supplierReference", .str "M1"), ("pnr", .str "ABC123"), ("airlinesPnr", .arr [.str "ABC123"]),
    ("currency", .str "BDT"), ("lifecycleStatus", .str "confirmed"), ("issuedAt", .str "2026-01-01T00:00:00Z"),
    ("ticketNumbers", .arr [.str "7790000000001"]),
    ("passengers", .object [("travellers", .arr [.object [("firstName", .str "A"), ("lastName", .str "B")]])]),
    ("itinerary", .object [("legs", .arr [.object [("segments", .arr [.str "DACCXB"])]])])]

/-- A funded agency, and an import that is confirmed and charged twice over. -/
def chargingEvents : List Event := [
  .wallet [] (.provision ⟨"agency", "AGENCY"⟩ "BDT" (.obj []) 1 2),
  .wallet [] (.posting { id := 10, account := 2, type := "deposit", amount := 50000, operation := none, booking := none
                         key := "d1", hash := 0, actor := "staff", role := "admin", remarks := ""
                         metadata := .obj [], now := 0 }),
  .command chargingOffice ⟨4, "root", "superadmin", none⟩
    (.prepare ⟨"agency", "MANUAL", "MANUAL", issuedData, 12000, 11000, 10000, false⟩) ⟨5, 6, ⟨7, 0⟩, ⟨8, 0⟩⟩,
  .command chargingOffice ⟨4, "root", "superadmin", none⟩ (.importBooking ⟨5, 9, true, none⟩) ⟨20, 21, ⟨22, 0⟩, ⟨23, 0⟩⟩,
  .command chargingOffice ⟨4, "root", "superadmin", none⟩ (.importBooking ⟨5, 9, true, none⟩) ⟨30, 31, ⟨32, 0⟩, ⟨33, 0⟩⟩]

theorem imports_charged_once_manual : ∃ t s, (machine chargingDesk).Run .empty t s ∧
    s.imports.map (fun b => (b.id, b.status, b.payableMinor)) = [(20, .confirmed, 11000)] ∧
    s.wallet.accounts.map (fun a => (a.availableBalance, a.holdBalance)) = [(39000, 0)] ∧
    (s.wallet.operations.filter (chargesFor 20)).length ≤ 1 := by
  have hsample : (chargingEvents.foldlM (step chargingDesk) .empty).map (fun s =>
      (s.imports.map (fun b => (b.id, b.status, b.payableMinor)),
        s.wallet.accounts.map (fun a => (a.availableBalance, a.holdBalance)))) =
      .ok ([(20, .confirmed, 11000)], [(39000, 0)]) := by
    decide +kernel
  obtain ⟨s, hs, hout⟩ := map_eq_ok.mp hsample
  obtain ⟨himports, haccounts⟩ := Prod.mk.inj hout
  obtain ⟨t, ht⟩ := Machine.Run.foldlM (M := machine chargingDesk) (fun _ _ _ h => h) (.nil _) hs
  exact ⟨t, s, ht, himports, haccounts, ((imports_charged_once ht).2.1 20).1⟩

end ShaponTravels.Imports
