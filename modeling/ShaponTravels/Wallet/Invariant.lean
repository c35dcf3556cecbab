import ShaponTravels.Library.Journal
import ShaponTravels.Wallet.Posting

/-!
# Invariant — accounts, ledger and operations in step

The wallet invariant ties four tables together: the entries of an account are a journal that
ends in its balances, its hold is the sum of its open operations, and the entries of an operation
are the ones its state calls for.
-/

namespace ShaponTravels.Wallet

open Library

/-! ## What the tables add up to -/

/-- The entries of an account, oldest first. -/
def entriesOf (account : Uuid) (entries : List LedgerEntry) : List LedgerEntry :=
  entries.filter (fun e => e.walletAccountId = account)

def heldAmount (account : Uuid) (o : WalletOperation) : Int :=
  if o.walletAccountId = account ∧ o.state.isOpen then o.amount else 0

/-- The sum of an account's operations in state reserved or reconciliation. -/
def held (account : Uuid) (operations : List WalletOperation) : Int :=
  (operations.map (heldAmount account)).sum

/-- The number of entries of one type that name an operation. -/
def countOf (t : TransactionType) (operation : Uuid) (entries : List LedgerEntry) : Nat :=
  entries.countP (fun e => e.operationId = some operation ∧ e.transactionType = t)

def refundAmount (operation : Uuid) (e : LedgerEntry) : Int :=
  if e.operationId = some operation ∧ e.transactionType = .refund then e.amount else 0

/-- The sum of the refund entries that name an operation. -/
def refunds (operation : Uuid) (entries : List LedgerEntry) : Int :=
  (entries.map (refundAmount operation)).sum

/-- The state of an account its ledger determines. -/
structure Balances where
  available : Int
  hold : Int
  version : Int
  deriving DecidableEq

namespace Balances

def zero : Balances := ⟨0, 0, 0⟩

/-- The effect of an entry: its deltas, and one more entry. -/
def apply (b : Balances) (e : LedgerEntry) : Balances where
  available := b.available + e.transactionType.availableDelta e.amount
  hold := b.hold + e.transactionType.holdDelta e.amount
  version := b.version + 1

theorem foldl_version (es : List LedgerEntry) (b : Balances) :
    (es.foldl apply b).version = b.version + es.length := by
  induction es generalizing b with
  | nil => simp
  | cons e es ih =>
    rw [List.foldl_cons, ih]
    simp only [apply, List.length_cons]
    omega

end Balances

def WalletAccount.balances (a : WalletAccount) : Balances :=
  ⟨a.availableBalance, a.holdBalance, a.version⟩

def LedgerEntry.before (e : LedgerEntry) : Balances :=
  ⟨e.availableBefore, e.holdBefore, e.sequence - 1⟩

def LedgerEntry.after (e : LedgerEntry) : Balances := ⟨e.availableAfter, e.holdAfter, e.sequence⟩

/-! ## The invariant -/

structure AccountSound (db : WalletDb) (a : WalletAccount) : Prop where
  available_nonneg : 0 ≤ a.availableBalance
  hold_nonneg : 0 ≤ a.holdBalance
  journal : Journal LedgerEntry.before LedgerEntry.after .zero (entriesOf a.id db.entries) a.balances
  held : a.holdBalance = held a.id db.operations

structure OperationSound (entries : List LedgerEntry) (o : WalletOperation) : Prop where
  amount_pos : 0 < o.amount
  holds : countOf .bookingHold o.id entries = 1
  confirms : countOf .bookingConfirm o.id entries = if o.state = .captured then 1 else 0
  releases : countOf .holdRelease o.id entries = if o.state = .released then 1 else 0
  refunded : o.refundedAmount = refunds o.id entries
  refunded_nonneg : 0 ≤ o.refundedAmount
  refunded_le : o.refundedAmount ≤ o.amount
  refunded_captured : 0 < o.refundedAmount → o.state = .captured

/-- The keys and references of the wallet tables. -/
structure Keyed (db : WalletDb) : Prop where
  accounts : KeyUnique WalletAccount.id db.accounts
  operations : KeyUnique WalletOperation.id db.operations
  entryAccount : ∀ e ∈ db.entries, ∃ a ∈ db.accounts, a.id = e.walletAccountId
  entryOperation : ∀ e ∈ db.entries, ∀ id ∈ e.operationId, ∃ o ∈ db.operations, o.id = id
  entryAfter : ∀ e ∈ db.entries, e.after = e.before.apply e
  operationAccount : ∀ o ∈ db.operations, ∃ a ∈ db.accounts, a.id = o.walletAccountId

structure Sound (db : WalletDb) : Prop where
  keyed : Keyed db
  accounts : ∀ a ∈ db.accounts, AccountSound db a
  operations : ∀ o ∈ db.operations, OperationSound db.entries o

/-! ## Recording on an operation -/

@[simp] theorem recordOperation_id (t : TransactionType) (amount : Int) (o : WalletOperation) :
    (recordOperation t amount o).id = o.id := by
  cases t <;> rfl

@[simp] theorem recordOperation_account (t : TransactionType) (amount : Int) (o : WalletOperation) :
    (recordOperation t amount o).walletAccountId = o.walletAccountId := by
  cases t <;> rfl

@[simp] theorem recordOperation_amount (t : TransactionType) (amount : Int) (o : WalletOperation) :
    (recordOperation t amount o).amount = o.amount := by
  cases t <;> rfl

theorem recordOperation_refunded (t : TransactionType) (amount : Int) (o : WalletOperation) :
    (recordOperation t amount o).refundedAmount =
      o.refundedAmount + if t = .refund then amount else 0 := by
  cases t <;> simp [recordOperation]

/-- A confirmation or a release of an open operation is what makes it captured or released. -/
theorem recordOperation_state {t : TransactionType} {o : WalletOperation} (amount : Int)
    (hopen : t.oncePerReservation → o.state.isOpen) :
    (if (recordOperation t amount o).state = .captured then (1 : Nat) else 0) =
        (if o.state = .captured then 1 else 0) + (if t = .bookingConfirm then 1 else 0) ∧
      (if (recordOperation t amount o).state = .released then (1 : Nat) else 0) =
        (if o.state = .released then 1 else 0) + if t = .holdRelease then 1 else 0 := by
  cases t with
  | deposit | bookingHold | refund | manualCredit | manualDebit => exact ⟨rfl, rfl⟩
  | bookingConfirm | holdRelease =>
    have hstate := hopen rfl
    cases hs : o.state with
    | reserved | reconciliation => simp [recordOperation]
    | captured | released => rw [hs] at hstate; cases hstate

theorem updateOperation_cases {t : TransactionType} {amount : Int} {operation : Option Uuid}
    {operations : List WalletOperation} {o : WalletOperation}
    (h : o ∈ updateOperation t amount operation operations) :
    (o ∈ operations ∧ operation ≠ some o.id) ∨
      ∃ o₀ ∈ operations, operation = some o₀.id ∧ o = recordOperation t amount o₀ := by
  cases operation with
  | none => exact .inl ⟨h, by simp⟩
  | some id =>
    rcases modify_cases h with ⟨hmem, hne⟩ | ⟨o₀, hmem, hid, rfl⟩
    · exact .inl ⟨hmem, fun he => hne (by simpa using he.symm)⟩
    · exact .inr ⟨o₀, hmem, by rw [hid], rfl⟩

theorem map_id_updateOperation (t : TransactionType) (amount : Int) (operation : Option Uuid)
    (operations : List WalletOperation) :
    (updateOperation t amount operation operations).map WalletOperation.id =
      operations.map WalletOperation.id := by
  cases operation with
  | none => rfl
  | some id => exact map_modify (recordOperation_id t amount) operations

theorem updateOperation_of_mem {t : TransactionType} {amount : Int} {operation : Option Uuid}
    {operations : List WalletOperation} {o : WalletOperation} (h : o ∈ operations) :
    ∃ o' ∈ updateOperation t amount operation operations, o'.id = o.id := by
  have hid : o.id ∈ (updateOperation t amount operation operations).map WalletOperation.id := by
    rw [map_id_updateOperation]
    exact List.mem_map_of_mem h
  simpa using hid

/-- What a posting of type `t` takes from the held sum of its account. -/
def settledAmount (t : TransactionType) (amount : Int) : Int :=
  match t with
  | .bookingConfirm | .holdRelease => amount
  | .deposit | .bookingHold | .refund | .manualCredit | .manualDebit => 0

theorem heldAmount_recordOperation {t : TransactionType} {o : WalletOperation} {amount : Int}
    (hopen : t ≠ .refund → o.amount = amount ∧ o.state.isOpen)
    (hrefund : t = .refund → o.state = .captured) (account : Uuid) :
    heldAmount account (recordOperation t amount o) =
      heldAmount account o - if o.walletAccountId = account then settledAmount t amount else 0 := by
  cases t with
  | deposit | bookingHold | manualCredit | manualDebit =>
    simp [recordOperation, settledAmount]
  | bookingConfirm | holdRelease =>
    obtain ⟨hamount, hstate⟩ := hopen (by decide)
    by_cases hacc : o.walletAccountId = account
    · simp [heldAmount, recordOperation, settledAmount, hacc, hstate, hamount]
    · simp [heldAmount, recordOperation, hacc]
  | refund =>
    have hstate := hrefund rfl
    simp [heldAmount, recordOperation, settledAmount, hstate]

end ShaponTravels.Wallet
