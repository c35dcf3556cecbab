import Mathlib.Tactic.Common
import ShaponTravels.Json
import ShaponTravels.Library.Table
import ShaponTravels.Wallet.Money

/-!
# Schema — the wallet tables

The rows of migrations 0029, 0055 and 0060, with the columns the modelled functions read.
-/

namespace ShaponTravels.Wallet

/-- `wallet_owners.owner_type`. -/
inductive OwnerType where
  | agency
  | user
  deriving DecidableEq, Repr

def OwnerType.ofText? : String → Option OwnerType
  | "agency" => some .agency
  | "user" => some .user
  | _ => none

/-- `wallet_owners.status`. -/
inductive OwnerStatus where
  | active
  | frozen
  deriving DecidableEq, Repr

structure WalletOwner where
  id : Uuid
  ownerType : OwnerType
  ownerKey : String
  status : OwnerStatus
  display : Value
  deriving DecidableEq

structure WalletAccount where
  id : Uuid
  ownerId : Uuid
  currency : Currency
  availableBalance : Int
  holdBalance : Int
  version : Int
  deriving DecidableEq

/-- `wallet_operations.subject_kind`. -/
inductive SubjectKind where
  | ticketIssue
  | ticketManagement
  | manualIssue
  deriving DecidableEq, Repr

namespace SubjectKind

def text : SubjectKind → String
  | .ticketIssue => "ticket_issue"
  | .ticketManagement => "ticket_management"
  | .manualIssue => "manual_issue"

def ofText? : String → Option SubjectKind
  | "ticket_issue" => some .ticketIssue
  | "ticket_management" => some .ticketManagement
  | "manual_issue" => some .manualIssue
  | _ => none

@[simp] theorem ofText?_text (k : SubjectKind) : ofText? k.text = some k := by
  cases k <;> rfl

theorem ofText?_eq_some {s : String} {k : SubjectKind} : ofText? s = some k ↔ s = k.text := by
  constructor
  · intro h
    unfold ofText? at h
    split at h
    all_goals (cases h; try rfl)
  · rintro rfl
    exact ofText?_text k

end SubjectKind

/-- `wallet_operations.state`. -/
inductive OperationState where
  | reserved
  | reconciliation
  | captured
  | released
  deriving DecidableEq, Repr

/-- The states whose amount is held. -/
def OperationState.isOpen : OperationState → Bool
  | .reserved | .reconciliation => true
  | .captured | .released => false

namespace OperationState

@[simp] theorem isOpen_reserved : isOpen .reserved = true := rfl
@[simp] theorem isOpen_reconciliation : isOpen .reconciliation = true := rfl
@[simp] theorem isOpen_captured : isOpen .captured = false := rfl
@[simp] theorem isOpen_released : isOpen .released = false := rfl

end OperationState

structure WalletOperation where
  id : Uuid
  walletAccountId : Uuid
  subjectKind : SubjectKind
  subjectId : Uuid
  bookingId : Option Uuid
  amount : Int
  currency : Currency
  state : OperationState
  refundedAmount : Int
  requestHash : Digest
  actorId : String
  actorRole : String
  deriving DecidableEq

/-- `wallet_ledger_entries.transaction_type`. -/
inductive TransactionType where
  | deposit
  | bookingHold
  | bookingConfirm
  | holdRelease
  | refund
  | manualCredit
  | manualDebit
  deriving DecidableEq, Repr

namespace TransactionType

def text : TransactionType → String
  | .deposit => "deposit"
  | .bookingHold => "booking_hold"
  | .bookingConfirm => "booking_confirm"
  | .holdRelease => "hold_release"
  | .refund => "refund"
  | .manualCredit => "manual_credit"
  | .manualDebit => "manual_debit"

def ofText? : String → Option TransactionType
  | "deposit" => some .deposit
  | "booking_hold" => some .bookingHold
  | "booking_confirm" => some .bookingConfirm
  | "hold_release" => some .holdRelease
  | "refund" => some .refund
  | "manual_credit" => some .manualCredit
  | "manual_debit" => some .manualDebit
  | _ => none

@[simp] theorem ofText?_text (t : TransactionType) : ofText? t.text = some t := by
  cases t <;> rfl

theorem ofText?_eq_some {s : String} {t : TransactionType} : ofText? s = some t ↔ s = t.text := by
  constructor
  · intro h
    unfold ofText? at h
    split at h
    all_goals (cases h; try rfl)
  · rintro rfl
    exact ofText?_text t

theorem text_inj {t t' : TransactionType} (h : t.text = t'.text) : t = t' := by
  have hparse : ofText? t.text = ofText? t'.text := by rw [h]
  simpa using hparse

end TransactionType

structure LedgerEntry where
  id : Uuid
  walletAccountId : Uuid
  sequence : Int
  transactionType : TransactionType
  amount : Int
  currency : Currency
  availableBefore : Int
  availableAfter : Int
  holdBefore : Int
  holdAfter : Int
  operationId : Option Uuid
  bookingId : Option Uuid
  bookingReference : Option String
  idempotencyKey : String
  requestHash : Digest
  createdByUserId : String
  createdByRole : String
  remarks : String
  metadata : Value
  createdAt : Int
  deriving DecidableEq

structure ClientLink where
  clientId : Uuid
  ownerId : Uuid
  deriving DecidableEq

structure AuditEvent where
  actorKind : String
  actorId : Option String
  action : String
  resourceKind : String
  resourceId : String
  metadata : Value
  deriving DecidableEq

/-- `portal_import_bookings.status`. -/
inductive ImportStatus where
  | onHold
  | confirmed
  | cancelled
  | expired
  deriving DecidableEq, Repr

/-- The booking behind a financial subject, as far as a posting reads it. -/
inductive FinancialBooking where
  | native (publicRef : Option String)
  | imported (publicRef : String) (bookingReference : Option String) (operationId : Option Uuid)
      (status : ImportStatus)
  deriving DecidableEq

/-- `booking_financial_subjects` joined with the booking each row stands for. -/
structure FinancialSubject where
  id : Uuid
  booking : FinancialBooking
  deriving DecidableEq

/-- The tables the wallet functions write. -/
structure WalletDb where
  owners : List WalletOwner
  links : List ClientLink
  accounts : List WalletAccount
  operations : List WalletOperation
  entries : List LedgerEntry
  audit : List AuditEvent

/-- The database before the first wallet is provisioned. -/
def WalletDb.empty : WalletDb := ⟨[], [], [], [], [], []⟩

end ShaponTravels.Wallet
