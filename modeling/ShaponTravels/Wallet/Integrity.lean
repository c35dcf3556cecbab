import ShaponTravels.Wallet.History

/-!
# Integrity — the wallet invariant in the terms of the tables

The deferred triggers of migration 0029 recompute balances, holds and counts at every commit.
They are stated here as the code has them; no reachable state makes one of them fail.
-/

namespace ShaponTravels.Wallet

open Library

/-! ## The deferred triggers -/

/-- `ORDER BY sequence DESC LIMIT 1`. -/
def latest (entries : List LedgerEntry) : Option LedgerEntry :=
  entries.foldl
    (fun best e =>
      match best with
      | some b => if b.sequence < e.sequence then some e else some b
      | none => some e)
    none

/-- The trigger `wallet_account_integrity`. -/
def walletAccountIntegrity (db : WalletDb) (a : WalletAccount) : Bool :=
  (match latest (entriesOf a.id db.entries) with
    | some last => a.version = last.sequence ∧ a.availableBalance = last.availableAfter ∧
        a.holdBalance = last.holdAfter
    | none => a.version = 0 ∧ a.availableBalance = 0 ∧ a.holdBalance = 0) &&
    decide (a.holdBalance = held a.id db.operations)

/-- The trigger `wallet_operation_integrity`. -/
def walletOperationIntegrity (db : WalletDb) (o : WalletOperation) : Bool :=
  let holds := countOf .bookingHold o.id db.entries
  let captured := countOf .bookingConfirm o.id db.entries
  let released := countOf .holdRelease o.id db.entries
  !(holds ≠ 1 || (o.state.isOpen && captured + released ≠ 0) ||
    (o.state = .captured && (captured ≠ 1 || released ≠ 0)) ||
    (o.state = .released && (released ≠ 1 || captured ≠ 0)) ||
    o.refundedAmount ≠ refunds o.id db.entries)

theorem latest_concat (entries : List LedgerEntry) (e : LedgerEntry) :
    latest (entries ++ [e]) = match latest entries with
      | some b => if b.sequence < e.sequence then some e else some b
      | none => some e := by
  simp only [latest, List.foldl_append, List.foldl_cons, List.foldl_nil]

/-- The latest entry of a journal leads to its last state. -/
theorem latest_of_journal {entries : List LedgerEntry} {b b' : Balances}
    (h : Journal LedgerEntry.before LedgerEntry.after b entries b') :
    match latest entries with
    | some last => last.after = b'
    | none => b' = b := by
  induction h with
  | nil => rfl
  | @snoc b' entries e _ hbefore ih =>
    rw [latest_concat]
    cases hlast : latest entries with
    | none => rfl
    | some last =>
      rw [hlast] at ih
      have hseq : last.sequence < e.sequence := by
        have hversion := congrArg Balances.version (hbefore.trans (Eq.symm ih))
        simp only [LedgerEntry.before, LedgerEntry.after] at hversion
        omega
      simp only [if_pos hseq]

theorem AccountSound.integrity {db : WalletDb} {a : WalletAccount} (h : AccountSound db a) :
    walletAccountIntegrity db a = true := by
  have hlast := latest_of_journal h.journal
  rw [walletAccountIntegrity, Bool.and_eq_true, decide_eq_true_eq]
  refine ⟨?_, h.held⟩
  cases hlatest : latest (entriesOf a.id db.entries) with
  | some last =>
    rw [hlatest] at hlast
    simp only [LedgerEntry.after, WalletAccount.balances, Balances.mk.injEq] at hlast
    obtain ⟨havailable, hhold, hversion⟩ := hlast
    simp only [havailable, hhold, hversion, and_self, decide_true]
  | none =>
    rw [hlatest] at hlast
    simp only [WalletAccount.balances, Balances.zero, Balances.mk.injEq] at hlast
    obtain ⟨havailable, hhold, hversion⟩ := hlast
    simp only [havailable, hhold, hversion, and_self, decide_true]

theorem OperationSound.integrity {db : WalletDb} {o : WalletOperation}
    (h : OperationSound db.entries o) : walletOperationIntegrity db o = true := by
  simp only [walletOperationIntegrity, h.holds, h.confirms, h.releases, h.refunded]
  cases o.state <;> simp

/-! ## The wallet ledger invariant -/

/-- What holds of the tables at every moment. -/
structure LedgerInvariant (db : WalletDb) : Prop where
  nonneg : ∀ a ∈ db.accounts, 0 ≤ a.availableBalance ∧ 0 ≤ a.holdBalance
  version : ∀ a ∈ db.accounts, a.version = (entriesOf a.id db.entries).length
  fold : ∀ a ∈ db.accounts, (entriesOf a.id db.entries).foldl Balances.apply .zero = a.balances
  chain : ∀ a ∈ db.accounts, (entriesOf a.id db.entries).IsChain fun e e' =>
    e'.availableBefore = e.availableAfter ∧ e'.holdBefore = e.holdAfter ∧
      e'.sequence = e.sequence + 1
  deltas : ∀ e ∈ db.entries,
    e.availableAfter = e.availableBefore + e.transactionType.availableDelta e.amount ∧
      e.holdAfter = e.holdBefore + e.transactionType.holdDelta e.amount
  hold : ∀ a ∈ db.accounts, a.holdBalance = held a.id db.operations
  holds : ∀ o ∈ db.operations, countOf .bookingHold o.id db.entries = 1
  confirms : ∀ o ∈ db.operations,
    countOf .bookingConfirm o.id db.entries = if o.state = .captured then 1 else 0
  releases : ∀ o ∈ db.operations,
    countOf .holdRelease o.id db.entries = if o.state = .released then 1 else 0
  refunded : ∀ o ∈ db.operations, o.refundedAmount = refunds o.id db.entries ∧
    0 ≤ o.refundedAmount ∧ o.refundedAmount ≤ o.amount ∧
      (0 < o.refundedAmount → o.state = .captured)
  accountIntegrity : ∀ a ∈ db.accounts, walletAccountIntegrity db a = true
  operationIntegrity : ∀ o ∈ db.operations, walletOperationIntegrity db o = true

theorem Sound.ledgerInvariant {db : WalletDb} (hs : Sound db) : LedgerInvariant db := by
  have hfold : ∀ a ∈ db.accounts,
      (entriesOf a.id db.entries).foldl Balances.apply .zero = a.balances := by
    intro a ha
    refine ((hs.accounts a ha).journal.foldl_eq ?_).symm
    intro e he
    exact hs.keyed.entryAfter e (List.mem_of_mem_filter he)
  refine
    { nonneg := fun a ha => ⟨(hs.accounts a ha).available_nonneg, (hs.accounts a ha).hold_nonneg⟩
      version := ?_
      fold := hfold
      chain := ?_
      deltas := ?_
      hold := fun a ha => (hs.accounts a ha).held
      holds := fun o ho => (hs.operations o ho).holds
      confirms := fun o ho => (hs.operations o ho).confirms
      releases := fun o ho => (hs.operations o ho).releases
      refunded := fun o ho => ⟨(hs.operations o ho).refunded, (hs.operations o ho).refunded_nonneg,
        (hs.operations o ho).refunded_le, (hs.operations o ho).refunded_captured⟩
      accountIntegrity := fun a ha => (hs.accounts a ha).integrity
      operationIntegrity := fun o ho => (hs.operations o ho).integrity }
  · intro a ha
    have hversion := Balances.foldl_version (entriesOf a.id db.entries) .zero
    rw [hfold a ha] at hversion
    simpa [WalletAccount.balances, Balances.zero] using hversion
  · intro a ha
    refine (hs.accounts a ha).journal.isChain.imp ?_
    intro e e' he
    simp only [LedgerEntry.before, LedgerEntry.after, Balances.mk.injEq] at he
    exact ⟨he.1, he.2.1, by omega⟩
  · intro e he
    have hafter := hs.keyed.entryAfter e he
    simp only [LedgerEntry.before, LedgerEntry.after, Balances.apply, Balances.mk.injEq] at hafter
    exact ⟨hafter.1, hafter.2.1⟩

/-- The wallet ledger invariant holds in every reachable state, and from there on the ledger only
grows while closed operations keep their state. -/
theorem wallet_ledger_invariant {pf : Platform} {db : WalletDb} (h : (machine pf).Reachable db) :
    LedgerInvariant db ∧ ∀ t db', (machine pf).Run db t db' → Extends db db' := by
  refine ⟨(machine_sound h).ledgerInvariant, ?_⟩
  intro t db' hr
  exact hr.relates Extends.refl (fun _ _ _ => Extends.trans)
    (fun s i s' hs hstep => (machine_keeps s i s' hs hstep).1)
    (fun s i s' hs hstep => (machine_keeps s i s' hs hstep).2) (machine_sound h)

/-- Run calls one after the other, all of them succeeding. -/
def runAll (pf : Platform) (subjects : List FinancialSubject) :
    List Call → WalletDb → Except ApiError WalletDb
  | [], db => .ok db
  | call :: calls, db => call.run pf subjects db >>= runAll pf subjects calls

theorem reachable_of_runAll {pf : Platform} {subjects : List FinancialSubject} {calls : List Call}
    {db db' : WalletDb} (h : (machine pf).Reachable db)
    (hrun : runAll pf subjects calls db = .ok db') : (machine pf).Reachable db' := by
  induction calls generalizing db with
  | nil => cases hrun; exact h
  | cons call calls ih =>
    obtain ⟨db₁, hcall, hrest⟩ := bind_eq_ok.mp hrun
    exact ih (h.step (i := (subjects, call)) (.inl hcall)) hrest

/-- A wallet that was funded, held a fare, captured it and refunded a part of it. -/
theorem wallet_ledger_invariant_refunded : ∃ db : WalletDb,
    db.entries.map (fun e => (e.availableAfter, e.holdAfter)) =
      [(1000, 0), (600, 400), (600, 0), (750, 0)] ∧ LedgerInvariant db := by
  let pf : Platform := ⟨fun _ => 0, fun s => s, fun s => s, fun s => s⟩
  let posting (type key : String) (amount : Int) (operation : Option Uuid) (id : Uuid) : Call :=
    .posting { id := id, account := 2, type := type, amount := amount, operation := operation
               booking := none, key := key, hash := 0, actor := "staff", role := "admin"
               remarks := "", metadata := .obj [], now := 0 }
  let calls : List Call :=
    [.provision ⟨"agency", "A1"⟩ "BDT" (.obj []) 1 2,
      posting "deposit" "d1" 1000 none 10,
      .reserve { id := 3, account := 2, kind := "manual_issue", subject := 4, booking := none
                 amount := 400, currency := "BDT", actor := "staff", role := "admin" } ⟨11, 0⟩,
      .markReconciliation 3,
      .settle 3 true "staff" "admin" ⟨12, 0⟩,
      posting "refund" "r1" 150 (some 3) 13]
  have hrun : (runAll pf [] calls .empty).map
      (fun db => db.entries.map fun e => (e.availableAfter, e.holdAfter)) =
        .ok [(1000, 0), (600, 400), (600, 0), (750, 0)] := by decide
  obtain ⟨db, hdb, hentries⟩ := map_eq_ok.mp hrun
  exact ⟨db, hentries, (wallet_ledger_invariant (reachable_of_runAll (.of_init rfl) hdb)).1⟩

end ShaponTravels.Wallet
