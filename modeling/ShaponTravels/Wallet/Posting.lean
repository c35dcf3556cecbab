import ShaponTravels.Wallet.Core

/-!
# Posting — what a successful posting did

`Posted` says once everything a new posting does.  The invariants below are derived from it and
never unfold the posting function again.
-/

namespace ShaponTravels.Wallet

open Library

variable {subjects : List FinancialSubject} {db db' : WalletDb} {a : WalletAccount}
  {p : PostingArgs} {t : TransactionType} {e : LedgerEntry}

/-- The operation a posting of type `t` names is one it may act on. -/
structure Names (subjects : List FinancialSubject) (db : WalletDb) (a : WalletAccount)
    (p : PostingArgs) (t : TransactionType) (o : WalletOperation) : Prop where
  mem : o ∈ db.operations
  named : p.operation = some o.id
  account : o.walletAccountId = p.account
  currency : o.currency = a.currency
  booking : o.bookingId = p.booking ∨ t = .refund ∧ refundsImport subjects o p.booking
  refund : t = .refund → o.state = .captured ∧ p.amount ≤ o.amount - o.refundedAmount
  settles : t ≠ .refund → o.amount = p.amount ∧ o.state.isOpen

/-- The types whose posting names an operation. -/
def TransactionType.namesOperation (t : TransactionType) : Prop :=
  t = .refund ∨ t.oncePerReservation

private theorem fetch_operation {o : WalletOperation} {err : DbError}
    (h : fetch (p.operation.bind fun id => lookup WalletOperation.id id db.operations) err = .ok o) :
    o ∈ db.operations ∧ p.operation = some o.id := by
  rw [fetch_eq_ok, Option.bind_eq_some_iff] at h
  obtain ⟨id, hid, hlookup⟩ := h
  exact ⟨lookup_mem hlookup, by rw [hid, lookup_key hlookup]⟩

theorem checkOperation_ok (h : checkOperation subjects db a p (some t) = .ok ())
    (ht : t.namesOperation) : ∃ o, Names subjects db a p t o := by
  cases t with
  | deposit => simp [TransactionType.namesOperation, TransactionType.oncePerReservation] at ht
  | manualCredit => simp [TransactionType.namesOperation, TransactionType.oncePerReservation] at ht
  | manualDebit => simp [TransactionType.namesOperation, TransactionType.oncePerReservation] at ht
  | refund =>
    simp only [checkOperation, bind_eq_ok, ensure_eq_ok, exists_const] at h
    obtain ⟨o, ho, ⟨hacc, hcur, hbook⟩, hrefund⟩ := h
    obtain ⟨hmem, hnamed⟩ := fetch_operation ho
    exact ⟨o, hmem, hnamed, hacc, hcur, hbook.imp_right (fun hb => ⟨rfl, hb⟩), fun _ => hrefund,
      fun hne => absurd rfl hne⟩
  | bookingHold | bookingConfirm | holdRelease =>
    simp only [checkOperation, bind_eq_ok, ensure_eq_ok, exists_const] at h
    obtain ⟨o, ho, ⟨hacc, hcur, hbook⟩, hsettles⟩ := h
    obtain ⟨hmem, hnamed⟩ := fetch_operation ho
    exact ⟨o, hmem, hnamed, hacc, hcur, .inl hbook, (fun ht => by cases ht),
      fun _ => hsettles⟩

/-- Everything a new posting of type `t` on account `a` does. -/
structure Posted (subjects : List FinancialSubject) (db : WalletDb) (p : PostingArgs)
    (a : WalletAccount) (t : TransactionType) (e : LedgerEntry) (db' : WalletDb) : Prop where
  account : lookup WalletAccount.id p.account db.accounts = some a
  type : p.type = t.text
  amount : 0 < p.amount
  actor : p.actor ≠ ""
  role : p.role ≠ ""
  names : t.namesOperation → ∃ o, Names subjects db a p t o
  owner : t.needsActiveOwner → ∃ w, lookup WalletOwner.id a.ownerId db.owners = some w ∧
    w.status = .active
  available_nonneg : 0 ≤ a.availableBalance + t.availableDelta p.amount
  hold_nonneg : 0 ≤ a.holdBalance + t.holdDelta p.amount
  entry : e = newEntry subjects a p t
  new_id : ∀ e' ∈ db.entries, e'.id ≠ p.id
  new_key : ∀ e' ∈ db.entries, ¬ (e'.walletAccountId = p.account ∧ e'.idempotencyKey = p.key)
  once : t.oncePerReservation → p.operation.isSome →
    ∀ e' ∈ db.entries, ¬ (e'.operationId = p.operation ∧ e'.transactionType = t)
  references : ∀ id ∈ p.operation, ∃ o ∈ db.operations, o.id = id
  entries : db'.entries = db.entries ++ [e]
  accounts : db'.accounts = modify WalletAccount.id p.account
    (fun a' => { a' with availableBalance := e.availableAfter, holdBalance := e.holdAfter,
                         version := e.sequence }) db.accounts
  operations : db'.operations = updateOperation t p.amount p.operation db.operations
  owners : db'.owners = db.owners
  links : db'.links = db.links
  audit : db'.audit = db.audit ++ [postingAudit p t]

theorem applyFresh_ok {w : WalletOwner} (ha : lookup WalletAccount.id p.account db.accounts = some a)
    (hw : lookup WalletOwner.id a.ownerId db.owners = some w)
    (h : applyFresh subjects db w a p = .ok (e, db')) : ∃ t, Posted subjects db p a t e db' := by
  simp only [applyFresh, insertEntry, updateBalances, bind_eq_ok, ensure_eq_ok, fetch_eq_ok,
    bigint_eq_ok, pure_eq_ok, exists_const, Prod.mk.injEq] at h
  obtain ⟨⟨hamount, hactor, hrole⟩, _, hcheck, hactive, t, ht, nextAvailable, ⟨-, havail⟩, nextHold,
    ⟨-, hhold⟩, havail0, hhold0, version, ⟨-, hversion⟩, entries, ⟨-, -, -, -, -, hid, -, hkey,
    honce, hops, -, hentries⟩, accounts, ⟨-, haccounts⟩, he, hdb⟩ := h
  subst havail hhold hversion hentries haccounts he hdb
  rw [ht] at hcheck hactive
  refine ⟨t, ha, TransactionType.ofText?_eq_some.mp ht, hamount, hactor, hrole,
    checkOperation_ok hcheck, ?_, havail0, hhold0, rfl, hid, hkey, honce, ?_, rfl, rfl, rfl, rfl,
    rfl, rfl⟩
  · intro hneeds
    rcases hactive with hactive | hactive
    · simp [hneeds] at hactive
    · exact ⟨w, hw, hactive⟩
  · intro id hid
    rw [Option.mem_def] at hid
    simpa [newEntry, hid] using hops

/-- A posting either repeats an entry the account already has, or is new. -/
theorem walletApplyPosting_ok (h : walletApplyPosting subjects db p = .ok (e, db')) :
    (db' = db ∧ e ∈ db.entries ∧ e.walletAccountId = p.account ∧ e.idempotencyKey = p.key ∧
      e.requestHash = p.hash ∧ e.transactionType.text = p.type ∧ e.amount = p.amount ∧
      e.operationId = p.operation ∧ e.bookingId = p.booking) ∨
    ∃ a t, Posted subjects db p a t e db' := by
  simp only [walletApplyPosting, ownerAndAccount, bind_eq_ok, fetch_eq_ok, pure_eq_ok] at h
  obtain ⟨⟨w, a⟩, ⟨a', ha, w', hw, heq⟩, h⟩ := h
  cases heq
  cases hold : entryByKey db p.account p.key with
  | some old =>
    rw [hold] at h
    simp only [bind_eq_ok, ensure_eq_ok, pure_eq_ok, exists_const, Prod.mk.injEq] at h
    obtain ⟨hsame, rfl, rfl⟩ := h
    have hkey := lookup_key hold
    simp only [Prod.mk.injEq] at hkey
    exact .inl ⟨rfl, lookup_mem hold, hkey.1, hkey.2, hsame⟩
  | none =>
    rw [hold] at h
    obtain ⟨t, hposted⟩ := applyFresh_ok ha hw h
    exact .inr ⟨a, t, hposted⟩

/-! ## Reservations -/

variable {pf : Platform} {draw : Draw} {o : WalletOperation}

theorem post_ok {p : Posting} (h : post pf subjects db p draw = .ok (e, db')) :
    walletApplyPosting subjects db (p.args pf draw) = .ok (e, db') := by
  simp only [post, bind_eq_ok, ensure_eq_ok, exists_const, mapError_eq_ok] at h
  exact h.2

theorem operation_ok {id : Uuid} (h : operation db id = .ok o) :
    o ∈ db.operations ∧ o.id = id := by
  rw [operation, fetch_eq_ok] at h
  exact ⟨lookup_mem h, lookup_key h⟩

/-- `reserve` repeats a reservation of its subject, or inserts one and posts its hold. -/
theorem reserve_ok {r : Reservation} (h : reserve pf subjects db r draw = .ok (o, db')) :
    ∃ kind c, SubjectKind.ofText? r.kind = some kind ∧ r.currency = c.text ∧ 0 < r.amount ∧
      ((db' = db ∧ o ∈ db.operations ∧ o.subjectKind = kind ∧ o.subjectId = r.subject ∧
          o.requestHash = r.hash pf) ∨
        ((∀ o' ∈ db.operations, o'.id ≠ r.id) ∧
          (∀ o' ∈ db.operations, ¬ (o'.subjectKind = kind ∧ o'.subjectId = r.subject)) ∧
          (∃ a ∈ db.accounts, a.id = r.account ∧ a.currency = c) ∧
          (∃ e, walletApplyPosting subjects
            { db with operations := db.operations ++ [r.row kind c (r.hash pf)] }
            (r.posting.args pf draw) = .ok (e, db')) ∧
          o ∈ db'.operations ∧ o.id = r.id)) := by
  simp only [reserve, bind_eq_ok, currency_eq_ok, ensure_eq_ok, fetch_eq_ok, exists_const] at h
  obtain ⟨c, hc, hamount, kind, hkind, a, hlock, hcur, h⟩ := h
  refine ⟨kind, c, hkind, hc, hamount, ?_⟩
  cases hold : lookup (fun o : WalletOperation => (o.subjectKind, o.subjectId)) (kind, r.subject)
      db.operations with
  | some old =>
    rw [hold] at h
    simp only [bind_eq_ok, ensure_eq_ok, exists_const, pure_eq_ok, Prod.mk.injEq] at h
    obtain ⟨hhash, rfl, rfl⟩ := h
    have hkey := lookup_key hold
    simp only [Prod.mk.injEq] at hkey
    exact .inl ⟨rfl, lookup_mem hold, hkey.1, hkey.2, hhash⟩
  | none =>
    rw [hold] at h
    simp only [insertOperation, bind_eq_ok, mapError_eq_ok, ensure_eq_ok, exists_const,
      pure_eq_ok, Prod.mk.injEq] at h
    obtain ⟨operations, ⟨-, hid, hsubject, -, -, rfl⟩, ⟨e, db₁⟩, hpost, o', hop, rfl,
      rfl⟩ := h
    have hlocked : lookup WalletAccount.id r.account db.accounts = some a := by
      simp only [lockAccount, ownerAndAccount] at hlock
      cases ha : lookup WalletAccount.id r.account db.accounts with
      | none => rw [ha] at hlock; cases hlock
      | some a₁ =>
        rw [ha] at hlock
        cases hw : lookup WalletOwner.id a₁.ownerId db.owners with
        | none => simp [hw, fetch, bind, Except.bind] at hlock
        | some w => simpa [hw, fetch, bind, Except.bind, pure, Except.pure] using hlock
    exact .inr ⟨hid, hsubject, ⟨a, lookup_mem hlocked, lookup_key hlocked, hcur⟩,
      ⟨e, post_ok hpost⟩, (operation_ok hop).1, (operation_ok hop).2⟩

/-- `settle` finds the operation in its target state, or posts the entry that brings it there. -/
theorem settle_ok {id : Uuid} {capture : Bool} {actor role : String}
    (h : settle pf subjects db id capture actor role draw = .ok (o, db')) :
    ∃ current ∈ db.operations, current.id = id ∧ o ∈ db'.operations ∧ o.id = id ∧
      ((db' = db ∧ o = current ∧ current.state = if capture then .captured else .released) ∨
        (current.state.isOpen ∧ ∃ e, walletApplyPosting subjects db
          ((settlePosting current capture actor role).args pf draw) = .ok (e, db'))) := by
  simp only [settle, bind_eq_ok] at h
  obtain ⟨-, -, -, -, current, hcurrent, h⟩ := h
  obtain ⟨hmem, hid⟩ := operation_ok hcurrent
  refine ⟨current, hmem, hid, ?_⟩
  by_cases htarget : current.state = if capture then .captured else .released
  · rw [if_pos htarget] at h
    simp only [pure_eq_ok, Prod.mk.injEq] at h
    obtain ⟨rfl, rfl⟩ := h
    exact ⟨hmem, hid, .inl ⟨rfl, rfl, htarget⟩⟩
  · rw [if_neg htarget] at h
    simp only [bind_eq_ok, ensure_eq_ok, exists_const, pure_eq_ok, Prod.mk.injEq] at h
    obtain ⟨hopen, ⟨e, db₁⟩, hpost, o', hop, rfl, rfl⟩ := h
    exact ⟨(operation_ok hop).1, (operation_ok hop).2, .inr ⟨hopen, e, post_ok hpost⟩⟩

end ShaponTravels.Wallet
