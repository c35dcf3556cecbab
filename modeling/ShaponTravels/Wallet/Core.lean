import ShaponTravels.Library.Outcome
import ShaponTravels.Wallet.Schema

/-!
# Core — the posting function and the operations on reservations

`wallet_apply_posting` of migration 0060 and `wallet/core.rs`.  A transaction is a function from
the tables it reads to the tables it leaves; one that fails leaves the tables it was given.
-/

namespace ShaponTravels.Wallet

open Library

/-! ## Signs -/

namespace TransactionType

/-- `da`: what a posting adds to the available balance. -/
def availableDelta (t : TransactionType) (amount : Int) : Int :=
  match t with
  | .deposit | .manualCredit | .refund => amount
  | .manualDebit => -amount
  | .bookingHold => -amount
  | .bookingConfirm => 0
  | .holdRelease => amount

/-- `dh`: what a posting adds to the hold balance. -/
def holdDelta (t : TransactionType) (amount : Int) : Int :=
  match t with
  | .deposit | .manualCredit | .refund | .manualDebit => 0
  | .bookingHold => amount
  | .bookingConfirm | .holdRelease => -amount

/-- The types of the partial unique index `wallet_once_per_reservation`. -/
def oncePerReservation : TransactionType → Bool
  | .bookingHold | .bookingConfirm | .holdRelease => true
  | .deposit | .refund | .manualCredit | .manualDebit => false

/-- The types that need an active owner. -/
def needsActiveOwner : TransactionType → Bool
  | .bookingHold | .manualDebit => true
  | .deposit | .bookingConfirm | .holdRelease | .refund | .manualCredit => false

end TransactionType

/-! ## Posting -/

/-- The arguments of `wallet_apply_posting`, and the clock reading of the new entry. -/
structure PostingArgs where
  id : Uuid
  account : Uuid
  type : String
  amount : Int
  operation : Option Uuid
  booking : Option Uuid
  key : String
  hash : Digest
  actor : String
  role : String
  remarks : String
  metadata : Value
  now : Int

/-- The owner and the account of a posting (`SELECT … INTO STRICT`). -/
def ownerAndAccount (db : WalletDb) (account : Uuid) :
    Except DbError (WalletOwner × WalletAccount) := do
  let a ← fetch (lookup WalletAccount.id account db.accounts) .noRow
  let w ← fetch (lookup WalletOwner.id a.ownerId db.owners) .noRow
  return (w, a)

/-- The entry an account already has under a key. -/
def entryByKey (db : WalletDb) (account : Uuid) (key : String) : Option LedgerEntry :=
  lookup (fun e : LedgerEntry => (e.walletAccountId, e.idempotencyKey)) (account, key) db.entries

/-- Whether `s` is an import confirmed with the payment `operation`. -/
def FinancialSubject.confirmedWith (s : FinancialSubject) (operation : Uuid) : Bool :=
  match s.booking with
  | .imported _ _ (some paid) .confirmed => paid = operation
  | _ => false

/-- The one case in which a posting may name another booking than its operation does: the refund
of the payment of an import, which carries the import as its subject. -/
def refundsImport (subjects : List FinancialSubject) (o : WalletOperation)
    (booking : Option Uuid) : Bool :=
  o.bookingId = none && o.subjectKind = .manualIssue &&
    subjects.any fun s => some s.id = booking && s.id = o.subjectId && s.confirmedWith o.id

/-- The checks on the operation a posting names. -/
def checkOperation (subjects : List FinancialSubject) (db : WalletDb) (a : WalletAccount)
    (p : PostingArgs) (type? : Option TransactionType) : Except DbError Unit := do
  let mismatch := DbError.raised "WALLET_RESERVATION_MISMATCH"
  match type? with
  | some .refund =>
    let o ← fetch (p.operation.bind fun id => lookup WalletOperation.id id db.operations) mismatch
    ensure (o.walletAccountId = p.account ∧ o.currency = a.currency ∧
      (o.bookingId = p.booking ∨ refundsImport subjects o p.booking)) mismatch
    ensure (o.state = .captured ∧ p.amount ≤ o.amount - o.refundedAmount)
      (.raised "REFUND_EXCEEDS_CAPTURE")
  | some .bookingHold | some .bookingConfirm | some .holdRelease =>
    let o ← fetch (p.operation.bind fun id => lookup WalletOperation.id id db.operations) mismatch
    ensure (o.walletAccountId = p.account ∧ o.currency = a.currency ∧ o.bookingId = p.booking)
      mismatch
    ensure (o.amount = p.amount ∧ o.state.isOpen) mismatch
  | _ => return ()

/-- The reference an entry keeps of its booking. -/
def bookingReference (subjects : List FinancialSubject) (booking : Option Uuid) : Option String :=
  (booking.bind fun id => lookup FinancialSubject.id id subjects).bind fun s =>
    match s.booking with
    | .native publicRef => publicRef
    | .imported publicRef bookingReference _ _ => some (bookingReference.getD publicRef)

/-- The constraints of `wallet_ledger_entries` on a new row. -/
def insertEntry (subjects : List FinancialSubject) (db : WalletDb) (e : LedgerEntry) :
    Except DbError (List LedgerEntry) := do
  ensure (0 < e.amount) (.violated "wallet_ledger_entries_amount_check")
  ensure (0 < e.sequence) (.violated "wallet_ledger_entries_sequence_check")
  ensure (1 ≤ e.idempotencyKey.length ∧ e.idempotencyKey.length ≤ 200)
    (.violated "wallet_ledger_entries_idempotency_key_check")
  ensure (e.remarks.length ≤ 1000) (.violated "wallet_ledger_entries_remarks_check")
  ensure e.metadata.isObject (.violated "wallet_ledger_entries_metadata_check")
  ensure (∀ e' ∈ db.entries, e'.id ≠ e.id) (.unique "wallet_ledger_entries_pkey")
  ensure (∀ e' ∈ db.entries, ¬ (e'.walletAccountId = e.walletAccountId ∧ e'.sequence = e.sequence))
    (.unique "wallet_ledger_entries_wallet_account_id_sequence_key")
  ensure (∀ e' ∈ db.entries,
      ¬ (e'.walletAccountId = e.walletAccountId ∧ e'.idempotencyKey = e.idempotencyKey))
    (.unique "wallet_ledger_entries_wallet_account_id_idempotency_key_key")
  ensure (e.transactionType.oncePerReservation → e.operationId.isSome →
      ∀ e' ∈ db.entries,
        ¬ (e'.operationId = e.operationId ∧ e'.transactionType = e.transactionType))
    (.unique "wallet_once_per_reservation")
  ensure (e.operationId.all fun id => db.operations.any fun o => o.id = id)
    (.violated "wallet_ledger_entries_operation_id_fkey")
  ensure (e.bookingId.all fun id => subjects.any fun s => s.id = id)
    (.violated "wallet_ledger_entries_booking_id_fkey")
  return db.entries ++ [e]

/-- The balances after a posting and the constraint on their sum. -/
def updateBalances (accounts : List WalletAccount) (account : Uuid)
    (available hold version : Int) : Except DbError (List WalletAccount) := do
  ensure (available + hold ≤ bigintMax) (.violated "wallet_accounts_check")
  return modify WalletAccount.id account
    (fun a => { a with availableBalance := available, holdBalance := hold, version := version })
    accounts

/-- What a posting records on the operation it names. -/
def recordOperation (t : TransactionType) (amount : Int) (o : WalletOperation) : WalletOperation :=
  match t with
  | .bookingConfirm => { o with state := .captured }
  | .holdRelease => { o with state := .released }
  | .refund => { o with refundedAmount := o.refundedAmount + amount }
  | .deposit | .bookingHold | .manualCredit | .manualDebit => o

def updateOperation (t : TransactionType) (amount : Int) (operation : Option Uuid)
    (operations : List WalletOperation) : List WalletOperation :=
  match operation with
  | some id => modify WalletOperation.id id (recordOperation t amount) operations
  | none => operations

/-- The entry a posting adds. -/
def newEntry (subjects : List FinancialSubject) (a : WalletAccount) (p : PostingArgs)
    (t : TransactionType) : LedgerEntry where
  id := p.id
  walletAccountId := p.account
  sequence := a.version + 1
  transactionType := t
  amount := p.amount
  currency := a.currency
  availableBefore := a.availableBalance
  availableAfter := a.availableBalance + t.availableDelta p.amount
  holdBefore := a.holdBalance
  holdAfter := a.holdBalance + t.holdDelta p.amount
  operationId := p.operation
  bookingId := p.booking
  bookingReference := bookingReference subjects p.booking
  idempotencyKey := p.key
  requestHash := p.hash
  createdByUserId := p.actor
  createdByRole := p.role
  remarks := p.remarks
  metadata := p.metadata
  createdAt := p.now

def postingAudit (p : PostingArgs) (t : TransactionType) : AuditEvent where
  actorKind := "system"
  actorId := some p.actor
  action := "wallet." ++ t.text
  resourceKind := "wallet_account"
  resourceId := p.account.text
  metadata := Value.object [("entryId", .str p.id.text), ("actorRole", .str p.role)]

/-- The part of `wallet_apply_posting` after the replay check. -/
def applyFresh (subjects : List FinancialSubject) (db : WalletDb) (w : WalletOwner)
    (a : WalletAccount) (p : PostingArgs) : Except DbError (LedgerEntry × WalletDb) := do
  ensure (0 < p.amount ∧ p.actor ≠ "" ∧ p.role ≠ "") (.raised "INVALID_WALLET_POSTING")
  let type? := TransactionType.ofText? p.type
  checkOperation subjects db a p type?
  ensure ((type?.all fun t => !t.needsActiveOwner) ∨ w.status = .active) (.raised "WALLET_FROZEN")
  let t ← fetch type? (.raised "INVALID_WALLET_POSTING")
  let nextAvailable ← bigint (a.availableBalance + t.availableDelta p.amount)
  let nextHold ← bigint (a.holdBalance + t.holdDelta p.amount)
  ensure (0 ≤ nextAvailable) (.raised "INSUFFICIENT_FUNDS")
  ensure (0 ≤ nextHold) (.raised "WALLET_RESERVATION_MISMATCH")
  let version ← bigint (a.version + 1)
  let e := newEntry subjects a p t
  let entries ← insertEntry subjects db e
  let accounts ← updateBalances db.accounts p.account nextAvailable nextHold version
  return (e, { db with
    entries := entries
    accounts := accounts
    operations := updateOperation t p.amount p.operation db.operations
    audit := db.audit ++ [postingAudit p t] })

/-- `wallet_apply_posting` of migration 0060. -/
def walletApplyPosting (subjects : List FinancialSubject) (db : WalletDb) (p : PostingArgs) :
    Except DbError (LedgerEntry × WalletDb) := do
  let (w, a) ← ownerAndAccount db p.account
  match entryByKey db p.account p.key with
  | some old =>
    ensure (old.requestHash = p.hash ∧ old.transactionType.text = p.type ∧ old.amount = p.amount ∧
      old.operationId = p.operation ∧ old.bookingId = p.booking) (.raised "IDEMPOTENCY_KEY_REUSED")
    return (old, db)
  | none => applyFresh subjects db w a p

/-! ## Provisioning -/

structure Owner where
  ownerType : String
  ownerKey : String
  deriving DecidableEq

/-- `Owner::validate`; the length is the one of the UTF-8 text. -/
def Owner.validate (o : Owner) : Except ApiError OwnerType := do
  let type ← fetch (OwnerType.ofText? o.ownerType) (invalid "INVALID_WALLET_OWNER")
  ensure (o.ownerKey ≠ "" ∧ o.ownerKey.utf8ByteSize ≤ 128 ∧ ¬ o.ownerKey.toList.any isControl)
    (invalid "INVALID_WALLET_OWNER")
  return type

/-- `INSERT INTO wallet_owners … ON CONFLICT(owner_type,owner_key) DO UPDATE SET display`. -/
def upsertOwner (db : WalletDb) (type : OwnerType) (key : String) (display : Value) (id : Uuid) :
    Except DbError (Uuid × WalletDb) :=
  match lookup (fun o : WalletOwner => (o.ownerType, o.ownerKey)) (type, key) db.owners with
  | some o =>
    .ok (o.id, { db with
      owners := modify WalletOwner.id o.id (fun o => { o with display := display }) db.owners })
  | none => do
    ensure (∀ o ∈ db.owners, o.id ≠ id) (.unique "wallet_owners_pkey")
    return (id, { db with owners := db.owners ++ [⟨id, type, key, .active, display⟩] })

/-- `INSERT INTO wallet_accounts … ON CONFLICT(owner_id,currency) DO UPDATE SET currency`. -/
def upsertAccount (db : WalletDb) (owner : Uuid) (c : Currency) (id : Uuid) :
    Except DbError (Uuid × WalletDb) :=
  match lookup (fun a : WalletAccount => (a.ownerId, a.currency)) (owner, c) db.accounts with
  | some a => .ok (a.id, db)
  | none => do
    ensure (∀ a ∈ db.accounts, a.id ≠ id) (.unique "wallet_accounts_pkey")
    return (id, { db with accounts := db.accounts ++ [⟨id, owner, c, 0, 0, 0⟩] })

/-- `core::provision`. -/
def provision (db : WalletDb) (owner : Owner) (currencyText : String) (display : Value)
    (ownerId accountId : Uuid) : Except ApiError (Uuid × WalletDb) := do
  let type ← owner.validate
  let c ← currency currencyText
  ensure (display.isObject ∧ display.text.utf8ByteSize ≤ 4096) (invalid "INVALID_WALLET_OWNER")
  let (saved, db) ← (upsertOwner db type owner.ownerKey display ownerId).mapError .ofDb
  (upsertAccount db saved c accountId).mapError .ofDb

/-- `core::link_client`. -/
def linkClient (db : WalletDb) (client account : Uuid) : Except ApiError WalletDb := do
  let a ← fetch (lookup WalletAccount.id account db.accounts) (.ofDb .noRow)
  match lookup ClientLink.clientId client db.links with
  | some saved =>
    ensure (saved.ownerId = a.ownerId) (conflict "WALLET_OWNER_MISMATCH")
    return db
  | none => return { db with links := db.links ++ [⟨client, a.ownerId⟩] }

/-! ## Posting from the application -/

structure Posting where
  account : Uuid
  kind : String
  amount : Int
  operation : Option Uuid
  booking : Option Uuid
  key : String
  actor : String
  role : String
  remarks : String
  metadata : Value

/-- What a call draws from its environment: a fresh identifier and the clock. -/
structure Draw where
  id : Uuid
  now : Int

def idOrNull (id : Option Uuid) : Value := Value.ofOption (id.map Uuid.text)

/-- The arguments `core::post` hands to the posting function. -/
def Posting.args (pf : Platform) (p : Posting) (draw : Draw) : PostingArgs where
  id := draw.id
  account := p.account
  type := p.kind
  amount := p.amount
  operation := p.operation
  booking := p.booking
  key := p.key
  hash := pf.digest (Value.arr [.str p.account.text, .str p.kind, .ofInt p.amount,
    idOrNull p.operation, idOrNull p.booking, .str p.key, .str p.remarks, p.metadata]).text
  actor := p.actor
  role := p.role
  remarks := p.remarks
  metadata := p.metadata
  now := draw.now

/-- `core::post`. -/
def post (pf : Platform) (subjects : List FinancialSubject) (db : WalletDb) (p : Posting)
    (draw : Draw) : Except ApiError (LedgerEntry × WalletDb) := do
  ensure (0 < p.amount ∧ p.key ≠ "" ∧ p.key.utf8ByteSize ≤ 200 ∧ p.actor ≠ "" ∧
    p.actor.utf8ByteSize ≤ 128 ∧ p.role ≠ "" ∧ p.role.utf8ByteSize ≤ 40 ∧
    p.remarks.utf8ByteSize ≤ 1000 ∧ p.metadata.isObject) (invalid "INVALID_WALLET_POSTING")
  (walletApplyPosting subjects db (p.args pf draw)).mapError dbError

/-! ## Reservations -/

structure Reservation where
  id : Uuid
  account : Uuid
  kind : String
  subject : Uuid
  booking : Option Uuid
  amount : Int
  currency : String
  actor : String
  role : String

/-- `core::lock_account`: what is left of it in one transaction is that the account exists. -/
def lockAccount (db : WalletDb) (account : Uuid) : Except ApiError WalletAccount :=
  match ownerAndAccount db account with
  | .ok (_, a) => .ok a
  | .error _ => .error missing

/-- `core::operation`. -/
def operation (db : WalletDb) (id : Uuid) : Except ApiError WalletOperation :=
  fetch (lookup WalletOperation.id id db.operations) missing

/-- The constraints of `wallet_operations` on a new row. -/
def insertOperation (subjects : List FinancialSubject) (db : WalletDb) (o : WalletOperation) :
    Except DbError (List WalletOperation) := do
  ensure (0 < o.amount) (.violated "wallet_operations_amount_check")
  ensure (∀ o' ∈ db.operations, o'.id ≠ o.id) (.unique "wallet_operations_pkey")
  ensure (∀ o' ∈ db.operations, ¬ (o'.subjectKind = o.subjectKind ∧ o'.subjectId = o.subjectId))
    (.unique "wallet_operations_subject_kind_subject_id_key")
  ensure (db.accounts.any fun a => a.id = o.walletAccountId)
    (.violated "wallet_operations_wallet_account_id_fkey")
  ensure (o.bookingId.all fun id => subjects.any fun s => s.id = id)
    (.violated "wallet_operations_booking_id_fkey")
  return db.operations ++ [o]

/-- The row `core::reserve` inserts. -/
def Reservation.row (r : Reservation) (kind : SubjectKind) (c : Currency) (hash : Digest) :
    WalletOperation where
  id := r.id
  walletAccountId := r.account
  subjectKind := kind
  subjectId := r.subject
  bookingId := r.booking
  amount := r.amount
  currency := c
  state := .reserved
  refundedAmount := 0
  requestHash := hash
  actorId := r.actor
  actorRole := r.role

def Reservation.hash (pf : Platform) (r : Reservation) : Digest :=
  pf.digest (Value.arr [.str r.account.text, .str r.kind, .str r.subject.text,
    idOrNull r.booking, .ofInt r.amount, .str r.currency]).text

def Reservation.posting (r : Reservation) : Posting where
  account := r.account
  kind := "booking_hold"
  amount := r.amount
  operation := some r.id
  booking := r.booking
  key := "reserve:" ++ r.id.text
  actor := r.actor
  role := r.role
  remarks := ""
  metadata := .obj []

/-- `core::reserve`. -/
def reserve (pf : Platform) (subjects : List FinancialSubject) (db : WalletDb) (r : Reservation)
    (draw : Draw) : Except ApiError (WalletOperation × WalletDb) := do
  let c ← currency r.currency
  ensure (0 < r.amount) (invalid "INVALID_WALLET_RESERVATION")
  let kind ← fetch (SubjectKind.ofText? r.kind) (invalid "INVALID_WALLET_RESERVATION")
  let a ← lockAccount db r.account
  ensure (a.currency = c) (conflict "WALLET_CURRENCY_MISMATCH")
  match lookup (fun o : WalletOperation => (o.subjectKind, o.subjectId)) (kind, r.subject)
      db.operations with
  | some old =>
    ensure (old.requestHash = r.hash pf) (conflict "IDEMPOTENCY_KEY_REUSED")
    return (old, db)
  | none =>
    let operations ← (insertOperation subjects db (r.row kind c (r.hash pf))).mapError .ofDb
    let (_, db) ← post pf subjects { db with operations := operations } r.posting draw
    let o ← operation db r.id
    return (o, db)

/-- The posting with which `core::settle` closes an operation. -/
def settlePosting (o : WalletOperation) (capture : Bool) (actor role : String) : Posting where
  account := o.walletAccountId
  kind := if capture then "booking_confirm" else "hold_release"
  amount := o.amount
  operation := some o.id
  booking := o.bookingId
  key := (if capture then "captured:" else "released:") ++ o.id.text
  actor := actor
  role := role
  remarks := ""
  metadata := .obj []

/-- `core::settle`. -/
def settle (pf : Platform) (subjects : List FinancialSubject) (db : WalletDb) (id : Uuid)
    (capture : Bool) (actor role : String) (draw : Draw) :
    Except ApiError (WalletOperation × WalletDb) := do
  let initial ← operation db id
  let _ ← lockAccount db initial.walletAccountId
  let current ← operation db id
  let target := if capture then OperationState.captured else .released
  if current.state = target then return (current, db)
  else
    ensure current.state.isOpen (conflict "WALLET_RESERVATION_MISMATCH")
    let (_, db) ← post pf subjects db (settlePosting current capture actor role) draw
    let o ← operation db id
    return (o, db)

/-- The update of `ticket::finalize` while there is no proof of a ticket. -/
def markReconciliation (db : WalletDb) (id : Uuid) : WalletDb :=
  { db with
    operations := modify WalletOperation.id id
      (fun o => if o.state = .reserved then { o with state := .reconciliation } else o)
      db.operations }

end ShaponTravels.Wallet
