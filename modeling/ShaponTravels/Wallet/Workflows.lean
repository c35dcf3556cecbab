import ShaponTravels.Library.Tally
import ShaponTravels.Library.Transition
import ShaponTravels.Wallet.Changes
import ShaponTravels.Wallet.Nonissuance

/-!
# Workflows — deposits, adjustments, reversals and their reviews

`wallet/workflows.rs` with the tables of migration 0030 and the triggers of migration 0059.  What a
call reads before its transaction is a step of its own; a transaction is one step, since every one
of them takes the barrier of `business::begin` first.
-/

namespace ShaponTravels.Wallet.Workflows

open Library
open Nonissuance (Actor isSha256)

/-! ## Tables -/

/-- `wallet_requests.kind`. -/
inductive RequestKind where
  | deposit
  | adjustment
  | settlement
  deriving DecidableEq, Repr

def RequestKind.text : RequestKind → String
  | .deposit => "deposit"
  | .adjustment => "adjustment"
  | .settlement => "settlement"

/-- `wallet_requests.status`. -/
inductive RequestStatus where
  | pending
  | approved
  | rejected
  deriving DecidableEq, Repr

def RequestStatus.text : RequestStatus → String
  | .pending => "pending"
  | .approved => "approved"
  | .rejected => "rejected"

structure WalletRequest where
  id : Uuid
  kind : RequestKind
  publicRef : String
  walletAccountId : Uuid
  amount : Int
  currency : Currency
  details : Value
  requestHash : Digest
  status : RequestStatus
  requestedByUserId : String
  requestedByRole : String
  reviewedByUserId : Option String
  reviewRemarks : Option String
  ledgerEntryId : Option Uuid
  requestedAt : Int
  reviewedAt : Option Int
  reversalOf : Option Uuid
  deriving DecidableEq

/-- `wallet_deposit_payment_claims`. -/
structure PaymentClaim where
  paymentIdentity : String
  requestId : Uuid
  deriving DecidableEq

structure Notification where
  id : Uuid
  requestId : Uuid
  event : String
  channel : String
  eventKey : String
  deriving DecidableEq

structure Setting where
  id : Uuid
  kind : String
  ownerId : Option Uuid
  data : Value
  active : Bool
  version : Int
  deriving DecidableEq

structure Db where
  wallet : WalletDb
  settings : List Setting
  /-- `wallet_reference_counters` -/
  counters : List (Tally (RequestKind × Int))
  requests : List WalletRequest
  claims : List PaymentClaim
  notifications : List Notification

/-- What the workflows take from their environment: hashing, `lower` of the database, the texts of
dates, and the calendar of Dhaka. -/
structure Desk where
  pf : Platform
  lower : String → String
  dateText : Int → String
  day : Int → Int
  dayText : Int → String

/-- What a transaction draws: the clock, the identifier of its entry and those of its notices. -/
structure RequestDraw where
  now : Int
  entry : Uuid
  email : Uuid
  sms : Uuid

/-! ## The payment behind a deposit -/

/-- `btrim`. -/
def btrim (s : String) : String :=
  String.ofList ((s.toList.dropWhile (· = ' ')).reverse.dropWhile (· = ' ')).reverse

/-- `->>`; the fields read with it are texts. -/
def textField (v : Value) (key : String) : Option String :=
  match v.field key with
  | .null => none
  | .str s => some s
  | v => some v.text

/-- `NULLIF(lower(btrim(…)),'')`. -/
def normalized (lower : String → String) (s : Option String) : Option String :=
  (s.map fun s => lower (btrim s)).filter fun s => s ≠ ""

/-- `jsonb_build_array(…)::text`. -/
def jsonbArrayText (values : List (Option String)) : String :=
  "[" ++ ", ".intercalate (values.map fun v => (Value.ofOption v).text) ++ "]"

/-- `wallet_deposit_payment_identity`. -/
def depositPaymentIdentity (lower : String → String) (d : Value) : Option String :=
  let folded (key : String) : Option String := (textField d key).map fun s => lower (btrim s)
  let destination (account id : String) : Option String :=
    (normalized lower (textField (d.field account) "accountNumber")).or (textField d id)
  match normalized lower (textField d "reference_number") with
  | none => none
  | some reference =>
    match textField d "method" with
    | some "mobile" => some (jsonbArrayText
        [some "mobile", folded "mfs_provider", destination "mfs_account" "mfs_account_id",
          some reference])
    | some "bank" | some "bank_transfer" => some (jsonbArrayText
        [some "bank", destination "company_bank_account" "company_bank_account_id",
          textField d "deposit_date", some reference])
    | some "cheque" => some (jsonbArrayText
        [some "cheque", destination "company_bank_account" "company_bank_account_id",
          folded "cheque_issued_bank", textField d "cheque_issued_date", some reference])
    | _ => none

/-- The payment a row credits. -/
def WalletRequest.credits (lower : String → String) (r : WalletRequest) : Option String :=
  if r.kind = .deposit ∧ r.status = .approved then depositPaymentIdentity lower r.details else none

/-! ## The triggers on a request -/

/-- The approved reversals of a deposit other than `id`. -/
def reversed (requests : List WalletRequest) (deposit id : Uuid) : Int :=
  ((requests.filter fun r => r.reversalOf = some deposit ∧ r.status = .approved ∧ r.id ≠ id).map
    WalletRequest.amount).sum

/-- `INSERT … ON CONFLICT DO NOTHING` and the comparison of the claimant. -/
def claimPayment (claims : List PaymentClaim) (identity : Option String) (request : Uuid) :
    Except DbError (List PaymentClaim) :=
  match identity with
  | none => .ok claims
  | some identity =>
    match lookup PaymentClaim.paymentIdentity identity claims with
    | none => .ok (claims ++ [⟨identity, request⟩])
    | some c =>
      if c.requestId = request then .ok claims
      else .error (.raised "DEPOSIT_PAYMENT_ALREADY_CREDITED")

/-- The part of the trigger that is about the deposit a request reverses. -/
def checkReversal (requests : List WalletRequest) (r : WalletRequest) : Except DbError Unit :=
  match r.reversalOf with
  | none => .ok ()
  | some deposit => do
    let wrong := DbError.raised "INVALID_DEPOSIT_REVERSAL"
    let original ← fetch (lookup WalletRequest.id deposit requests) wrong
    ensure (original.kind = .deposit ∧ original.status = .approved ∧
      original.ledgerEntryId.isSome ∧ r.kind = .adjustment ∧
      textField r.details "adjustment_type" = some "debit" ∧
      r.walletAccountId = original.walletAccountId ∧ r.currency = original.currency) wrong
    ensure (r.status ≠ .rejected → r.amount ≤ original.amount - reversed requests deposit r.id)
      (.raised "DEPOSIT_REVERSAL_EXCEEDS_CREDIT")

/-- The trigger `wallet_request_financial_controls` on the new version of a row. -/
def financialControls (lower : String → String) (db : Db) (r : WalletRequest) :
    Except DbError (List PaymentClaim) := do
  let claims ← claimPayment db.claims (r.credits lower) r.id
  checkReversal db.requests r
  return claims

/-- The type of the posting that settles a request. -/
def WalletRequest.postingType? (r : WalletRequest) : Option TransactionType :=
  match r.kind with
  | .deposit => some .deposit
  | .adjustment =>
    match (r.details.field "adjustment_type").asStr? with
    | some "credit" => some .manualCredit
    | some "debit" => some .manualDebit
    | _ => none
  | .settlement => none

/-- The key of the posting of a request. -/
def requestKey (id : Uuid) : String := "request:" ++ id.text

/-- Whether an entry is the posting of a request. -/
def posts (r : WalletRequest) (e : LedgerEntry) : Bool :=
  e.walletAccountId = r.walletAccountId && e.currency = r.currency && e.amount = r.amount &&
    e.idempotencyKey = requestKey r.id && some e.transactionType = r.postingType?

/-- The deferred trigger `wallet_request_integrity`. -/
def requestIntegrity (db : Db) (r : WalletRequest) : Bool :=
  r.status ≠ .approved ||
    (r.ledgerEntryId.bind fun id => lookup LedgerEntry.id id db.wallet.entries).any (posts r)

/-- The constraints of `wallet_requests` on a new row, and its triggers. -/
def insertRequest (desk : Desk) (db : Db) (r : WalletRequest) : Except DbError Db := do
  let claims ← financialControls desk.lower db r
  ensure (0 < r.amount) (.violated "wallet_requests_amount_check")
  ensure r.details.isObject (.violated "wallet_requests_details_check")
  ensure (∀ r' ∈ db.requests, r'.id ≠ r.id) (.unique "wallet_requests_pkey")
  ensure (∀ r' ∈ db.requests, r'.publicRef ≠ r.publicRef) (.unique "wallet_requests_public_ref_key")
  ensure (db.wallet.accounts.any fun a => a.id = r.walletAccountId)
    (.violated "wallet_requests_wallet_account_id_fkey")
  ensure (r.reversalOf.all fun id => db.requests.any fun r' => r'.id = id)
    (.violated "wallet_requests_reversal_of_fkey")
  return { db with requests := db.requests ++ [r], claims := claims }

/-- What a review writes into a row. -/
def WalletRequest.reviewed (r : WalletRequest) (status : RequestStatus) (by_ note : String)
    (entry : Option Uuid) (now : Int) : WalletRequest :=
  { r with status := status, reviewedByUserId := some by_, reviewRemarks := some note
           ledgerEntryId := entry, reviewedAt := some now }

/-- The update of a review, with the triggers and the constraints on the new row. -/
def updateRequest (desk : Desk) (db : Db) (old : WalletRequest) (status : RequestStatus)
    (by_ note : String) (entry : Option Uuid) (now : Int) : Except DbError Db := do
  let r := old.reviewed status by_ note entry now
  let claims ← financialControls desk.lower db r
  ensure (old.status = .pending) (.raised "wallet request is immutable")
  ensure (note.length ≤ 1000) (.violated "wallet_requests_review_remarks_check")
  ensure (by_ ≠ r.requestedByUserId) (.violated "wallet_requests_check1")
  ensure (status = .approved ∨ entry = none) (.violated "wallet_requests_check2")
  ensure (entry.all fun id => db.requests.all fun r' => r'.ledgerEntryId ≠ some id)
    (.unique "wallet_requests_ledger_entry_id_key")
  ensure (entry.all fun id => db.wallet.entries.any fun e => e.id = id)
    (.violated "wallet_requests_ledger_entry_id_fkey")
  return { db with
    requests := modify WalletRequest.id old.id (fun r => r.reviewed status by_ note entry now)
      db.requests
    claims := claims }

/-! ## Inputs -/

/-- `settings::Document`. -/
structure Document where
  publicId : String
  format : String
  uploadedAt : String
  version : Option Nat
  deriving DecidableEq

structure Receiver where
  id : String
  name : String
  role : String
  deriving DecidableEq

inductive Payment where
  | cash (branchId : Uuid) (receiver : Receiver)
  | bank (companyBankAccountId : Uuid) (depositDate : Int) (referenceNumber : String)
  | bankTransfer (companyBankAccountId sourceBankAccountId : Uuid) (depositDate : Int)
      (referenceNumber : String)
  | mobile (mfsAccountId : Uuid) (depositDate : Int) (transactionId : String)
  | cheque (companyBankAccountId : Uuid) (chequeNo : String) (chequeIssuedDate : Int)
      (chequeIssuedBank : String) (paymentDate : Int)
  deriving DecidableEq

/-- A deposit request, after its body is parsed. -/
structure Deposit where
  currency : String
  amount : String
  remarks : String
  attachment : Option Document
  attachmentDigest : Option String
  payment : Payment
  deriving DecidableEq

def Document.toValue (d : Document) : Value :=
  .object [("publicId", .str d.publicId), ("format", .str d.format),
    ("uploadedAt", .str d.uploadedAt), ("version", (d.version.map fun n => Value.ofInt n).getD .null)]

def Receiver.toValue (r : Receiver) : Value :=
  .object [("id", .str r.id), ("name", .str r.name), ("role", .str r.role)]

def Payment.toValue (desk : Desk) : Payment → Value
  | .cash branch receiver =>
    .object [("method", .str "cash"), ("branch_id", .str branch.text),
      ("receiver", receiver.toValue)]
  | .bank account date reference =>
    .object [("method", .str "bank"), ("company_bank_account_id", .str account.text),
      ("deposit_date", .str (desk.dateText date)), ("reference_number", .str reference)]
  | .bankTransfer account source date reference =>
    .object [("method", .str "bank_transfer"), ("company_bank_account_id", .str account.text),
      ("source_bank_account_id", .str source.text), ("deposit_date", .str (desk.dateText date)),
      ("reference_number", .str reference)]
  | .mobile account date transaction =>
    .object [("method", .str "mobile"), ("mfs_account_id", .str account.text),
      ("deposit_date", .str (desk.dateText date)), ("transaction_id", .str transaction)]
  | .cheque account no issued issuer paid =>
    .object [("method", .str "cheque"), ("company_bank_account_id", .str account.text),
      ("cheque_no", .str no), ("cheque_issued_date", .str (desk.dateText issued)),
      ("cheque_issued_bank", .str issuer), ("payment_date", .str (desk.dateText paid))]

/-- The identity of a deposit: the digest of a proof stands for its upload. -/
def Deposit.identity (desk : Desk) (d : Deposit) : Value :=
  .object <| [("currency", .str d.currency), ("amount", .str d.amount),
      ("remarks", .str d.remarks), ("payment", d.payment.toValue desk)] ++
    match d.attachmentDigest with
    | some proof => [("attachment", .object [("sha256", .str proof)]),
        ("attachmentDigest", .str proof)]
    | none => [("attachment", (d.attachment.map Document.toValue).getD .null)]

/-- `settings::text`. -/
def settingText (value : String) (least most : Nat) : Except ApiError Unit :=
  ensure (least ≤ (trim value).utf8ByteSize ∧ (trim value).utf8ByteSize ≤ most ∧
    ¬ value.toList.any isControl) (invalid "INVALID_WALLET_SETTING")

/-- `Document::validate`. -/
def Document.validate (d : Document) : Except ApiError Unit := do
  ensure (d.version.all fun v => v ≤ 9007199254740991) (invalid "INVALID_WALLET_ATTACHMENT")
  settingText d.publicId 1 500
  ensure (d.format ∈ ["jpg", "jpeg", "png", "webp", "pdf", "svg"] ∧
    ¬ containsText d.publicId ".." ∧ ¬ startsWith d.publicId "/")
    (invalid "INVALID_WALLET_ATTACHMENT")

def Payment.isCash : Payment → Bool
  | .cash .. => true
  | .bank _ _ _ | .bankTransfer _ _ _ _ | .mobile _ _ _ | .cheque _ _ _ _ _ => false

/-- `remarks`. -/
def checkRemarks (value : String) (required : Bool) : Except ApiError Unit :=
  ensure (¬ (1000 < value.utf8ByteSize ∨ (required ∧ (trim value).utf8ByteSize < 3)))
    (invalid "INVALID_WALLET_REMARKS")

/-- The amount of a request in minor units, within its bounds. -/
def requestAmount (value : String) : Except ApiError Int := do
  let amount ← majorToMinor value
  ensure (¬ (amount ≤ 0 ∨ 10000000000 < amount)) (invalid "INVALID_WALLET_AMOUNT")
  return amount

/-! ## Reads before a transaction -/

/-- `reads::owner_account`. -/
def ownerAccount (db : WalletDb) (owner : Owner) (currencyText : String) : Except ApiError Uuid := do
  let type ← owner.validate
  let c ← currency currencyText
  let w ← fetch (lookup (fun o : WalletOwner => (o.ownerType, o.ownerKey)) (type, owner.ownerKey)
    db.owners) missing
  let a ← fetch (lookup (fun a : WalletAccount => (a.ownerId, a.currency)) (w.id, c) db.accounts)
    missing
  return a.id

/-- `settings::owner`. -/
def settingsOwner (db : WalletDb) (actor : Actor) : Except ApiError Uuid := do
  let owner ← fetch actor.owner forbidden
  let w ← fetch ((OwnerType.ofText? owner.ownerType).bind fun type =>
    lookup (fun o : WalletOwner => (o.ownerType, o.ownerKey)) (type, owner.ownerKey) db.owners)
    missing
  return w.id

/-- `Actor::check_account` of a member of staff. -/
def checkAccount (db : WalletDb) (account : Uuid) : Except ApiError Unit :=
  ensure (db.accounts.any fun a => a.id = account) missing

/-- A call between its reads and its transaction. -/
inductive Prepared where
  | deposit (actor : Actor) (id : Uuid) (input : Deposit) (account owner : Uuid) (gross : Int)
  | adjustment (actor : Actor) (id account : Uuid) (amount : Int) (kind reason : String)
  deriving DecidableEq

/-- `deposit`, up to its transaction. -/
def prepareDeposit (db : WalletDb) (actor : Actor) (id : Uuid) (input : Deposit) :
    Except ApiError Prepared := do
  ensure (¬ actor.staffRead) forbidden
  let o ← fetch actor.owner forbidden
  let account ← ownerAccount db o input.currency
  let owner ← settingsOwner db actor
  let gross ← requestAmount input.amount
  checkRemarks input.remarks false
  match input.attachment with
  | some doc => do
    doc.validate
    ensure (doc.format ≠ "svg") (invalid "INVALID_WALLET_ATTACHMENT")
  | none => ensure input.payment.isCash (invalid "WALLET_ATTACHMENT_REQUIRED")
  ensure (input.attachmentDigest.all fun proof => input.attachment.isSome && isSha256 proof)
    (invalid "INVALID_WALLET_ATTACHMENT")
  return .deposit actor id input account owner gross

/-- `adjustment`, up to its transaction. -/
def prepareAdjustment (db : WalletDb) (actor : Actor) (id account : Uuid)
    (amount kind reason : String) : Except ApiError Prepared := do
  actor.finance
  checkAccount db account
  checkRemarks reason true
  ensure (kind ∈ ["credit", "debit"]) (invalid "INVALID_ADJUSTMENT_TYPE")
  let amount ← requestAmount amount
  return .adjustment actor id account amount kind reason

/-! ## Steps of a transaction -/

/-- `settings::snapshot`. -/
def snapshot (settings : List Setting) (id : Uuid) (kind : String) (owner : Option Uuid) :
    Except ApiError Value := do
  let s ← fetch (settings.find? fun s => s.id = id ∧ s.kind = kind ∧ s.ownerId = owner ∧ s.active)
    (invalid "WALLET_PAYMENT_OPTION_UNAVAILABLE")
  match s.data with
  | .obj fields => return .obj (Value.insertField "version" (.str (toString s.version))
      (Value.insertField "id" (.str s.id.text) fields))
  | v => return v

/-- The roles a receiver of cash may have. -/
def receiverRoles : List String :=
  ["superadmin", "admin", "staff_account", "staff_support", "staff_media"]

/-- What a payment adds to the details of a deposit, and the amount it credits. -/
def paymentDetails (desk : Desk) (settings : List Setting) (owner : Uuid) (gross : Int) :
    Payment → Except ApiError (List (String × Value) × Int)
  | .cash branch receiver => do
    ensure (startsWith receiver.id "user_" ∧ receiver.id.utf8ByteSize ≤ 128 ∧
      receiver.role ∈ receiverRoles) (invalid "INVALID_DEPOSIT_RECEIVER")
    settingText receiver.name 1 255
    let saved ← snapshot settings branch "branch" none
    return ([("branch", saved), ("method", .str "cash"), ("branch_id", .str branch.text),
      ("received_by_user_id", .str receiver.id), ("receiver", receiver.toValue)], gross)
  | .bank account date reference => do
    settingText reference 1 255
    let saved ← snapshot settings account "bank" none
    return ([("method", .str "bank"), ("company_bank_account_id", .str account.text),
      ("company_bank_account", saved), ("deposit_date", .str (desk.dateText date)),
      ("reference_number", .str reference)], gross)
  | .bankTransfer account source date reference => do
    settingText reference 1 255
    let saved ← snapshot settings account "bank" none
    let sender ← snapshot settings source "sender" (some owner)
    return ([("method", .str "bank_transfer"), ("company_bank_account_id", .str account.text),
      ("company_bank_account", saved), ("source_bank_account_id", .str source.text),
      ("user_bank_account", sender), ("deposit_date", .str (desk.dateText date)),
      ("reference_number", .str reference)], gross)
  | .mobile account date transaction => do
    settingText transaction 1 255
    let mfs ← snapshot settings account "mfs" none
    let bps ← fetch ((mfs.field "chargeBps").asU64?.filter fun n => n ≤ 10000)
      (invalid "INVALID_MFS_FEE")
    -- half up to one minor unit
    let net := gross - (gross * bps + 5000) / 10000
    ensure (0 < net) (invalid "INVALID_WALLET_AMOUNT")
    return ([("method", .str "mobile"), ("gateway_fee_bps", .ofInt bps),
      ("mfs_account_id", .str account.text), ("mfs_provider", mfs.field "mfsName"),
      ("mfs_payment_type", mfs.field "paymentType"), ("mfs_account", mfs),
      ("deposit_date", .str (desk.dateText date)), ("reference_number", .str transaction)], net)
  | .cheque account no issued issuer paid => do
    settingText no 1 255
    settingText issuer 1 255
    ensure (issued ≤ paid) (invalid "INVALID_DEPOSIT_DATE")
    let saved ← snapshot settings account "bank" none
    return ([("method", .str "cheque"), ("company_bank_account_id", .str account.text),
      ("company_bank_account", saved), ("reference_number", .str no),
      ("cheque_issued_date", .str (desk.dateText issued)), ("cheque_issued_bank", .str issuer),
      ("payment_date", .str (desk.dateText paid))], gross)

/-- `existing`: the request a repeated call made before. -/
def existing (db : Db) (id : Uuid) (hash : Digest) (actor : Actor) :
    Except ApiError (Option WalletRequest) :=
  match lookup WalletRequest.id id db.requests with
  | none => .ok none
  | some old =>
    if old.requestHash ≠ hash ∨ old.requestedByUserId ≠ actor.externalUserId then
      .error (conflict "IDEMPOTENCY_KEY_REUSED")
    else .ok (some old)

/-- `lpad(…,6,'0')` of a number of at most six digits. -/
def padded (n : Int) : String :=
  String.ofList (List.replicate (6 - (toString n).length) '0') ++ toString n

/-- `reference`: the public reference of a request and the counters after it. -/
def reference (desk : Desk) (db : Db) (kind : RequestKind) (now : Int) :
    Except ApiError (String × Db) := do
  let start ← match kind with
    | .deposit => .ok "STD"
    | .adjustment => .ok "STA"
    | .settlement => .error (invalid "INVALID_WALLET_REQUEST")
  let key := (kind, desk.day now)
  ensure (Tally.read key db.counters < 999999) (conflict "WALLET_REFERENCE_LIMIT")
  return (start ++ desk.dayText (desk.day now) ++ padded (Tally.read key db.counters + 1),
    { db with counters := Tally.bump key db.counters })

/-- The insertion of `enqueue` for one channel. -/
def enqueueOn (request : Uuid) (event : String) (notifications : List Notification)
    (channel : String × Uuid) : Except ApiError (List Notification) := do
  let key := event ++ ":" ++ request.text ++ ":" ++ channel.1
  if notifications.any fun n => n.eventKey = key then return notifications
  else
    ensure (∀ n ∈ notifications, n.id ≠ channel.2) (.ofDb (.unique "wallet_notifications_pkey"))
    return notifications ++ [⟨channel.2, request, event, channel.1, key⟩]

/-- `enqueue`. -/
def enqueue (db : Db) (request : Uuid) (event : String) (draw : RequestDraw) :
    Except ApiError Db := do
  let channels := if event = "deposit_rejected" then [("email", draw.email)]
    else [("email", draw.email), ("sms", draw.sms)]
  let notifications ← channels.foldlM (enqueueOn request event) db.notifications
  return { db with notifications := notifications }

/-- `portal::audit`. -/
def audit (db : Db) (actor : Actor) (action : String) (id : Uuid) (metadata : Value) : Db :=
  let event : AuditEvent :=
    { actorKind := "system", actorId := some actor.externalUserId, action := "wallet." ++ action
      resourceKind := "wallet", resourceId := id.text
      metadata := .object [("actorRole", .str actor.role), ("details", metadata)] }
  { db with wallet := { db.wallet with audit := db.wallet.audit ++ [event] } }

/-- The deferred trigger at the end of a transaction that wrote `r`. -/
def commit (db : Db) (r : WalletRequest) : Except ApiError (WalletRequest × Db) := do
  ensure (requestIntegrity db r) (.ofDb (.raised "approved wallet request requires a matching entry"))
  return (r, db)

/-! ## Requests -/

def Deposit.hash (desk : Desk) (d : Deposit) (account : Uuid) : Digest :=
  desk.pf.digest (Value.arr [.str "deposit", .str account.text, d.identity desk]).text

/-- The transaction of `deposit`. -/
def deposit (desk : Desk) (db : Db) (actor : Actor) (id : Uuid) (input : Deposit)
    (account owner : Uuid) (gross : Int) (draw : RequestDraw) :
    Except ApiError (WalletRequest × Db) := do
  match ← existing db id (input.hash desk account) actor with
  | some old => return (old, db)
  | none =>
    let (extra, net) ← paymentDetails desk db.settings owner gross input.payment
    let (publicRef, db) ← reference desk db .deposit draw.now
    let c ← fetch (Currency.ofText? input.currency)
      (.ofDb (.violated "wallet_requests_currency_check"))
    let r : WalletRequest :=
      { id := id, kind := .deposit, publicRef := publicRef, walletAccountId := account
        amount := net, currency := c
        details := .object ([("remarks", .str input.remarks),
          ("gross_amount", .str (toString gross)),
          ("attachment", (input.attachment.map Document.toValue).getD .null),
          ("gateway_fee_bps", .ofInt 0), ("attachment_digest", .ofOption input.attachmentDigest)] ++
            extra)
        requestHash := input.hash desk account, status := .pending
        requestedByUserId := actor.externalUserId, requestedByRole := actor.role
        reviewedByUserId := none, reviewRemarks := none, ledgerEntryId := none
        requestedAt := draw.now, reviewedAt := none, reversalOf := none }
    let db ← (insertRequest desk db r).mapError .ofDb
    let db ← enqueue db id "deposit_requested" draw
    commit (audit db actor "deposit.requested" id (.object [("accountId", .str account.text)])) r

/-- The row of an adjustment. -/
def adjustmentRow (actor : Actor) (id account : Uuid) (amount : Int) (c : Currency)
    (kind reason publicRef : String) (hash : Digest) (reversalOf : Option Uuid) (now : Int) :
    WalletRequest where
  id := id
  kind := .adjustment
  publicRef := publicRef
  walletAccountId := account
  amount := amount
  currency := c
  details := .object [("adjustment_type", .str kind), ("reason", .str reason)]
  requestHash := hash
  status := .pending
  requestedByUserId := actor.externalUserId
  requestedByRole := actor.role
  reviewedByUserId := none
  reviewRemarks := none
  ledgerEntryId := none
  requestedAt := now
  reviewedAt := none
  reversalOf := reversalOf

/-- The transaction of `adjustment`. -/
def adjustment (desk : Desk) (db : Db) (actor : Actor) (id account : Uuid) (amount : Int)
    (kind reason : String) (draw : RequestDraw) : Except ApiError (WalletRequest × Db) := do
  let hash := desk.pf.digest (Value.arr [.str "adjustment", .str account.text, .ofInt amount,
    .str kind, .str reason]).text
  match ← existing db id hash actor with
  | some old => return (old, db)
  | none =>
    let (publicRef, db) ← reference desk db .adjustment draw.now
    let a ← fetch (lookup WalletAccount.id account db.wallet.accounts) missing
    let r := adjustmentRow actor id account amount a.currency kind reason publicRef hash none draw.now
    let db ← (insertRequest desk db r).mapError .ofDb
    commit (audit db actor "adjustment.requested" id
      (.object [("accountId", .str account.text)])) r

/-- `reverse_deposit`. -/
def reverseDeposit (desk : Desk) (db : Db) (actor : Actor) (id source : Uuid)
    (amount reason : String) (draw : RequestDraw) : Except ApiError (WalletRequest × Db) := do
  actor.finance
  checkRemarks reason true
  let amount ← requestAmount amount
  let hash := desk.pf.digest (Value.arr [.str "reverse_deposit", .str source.text, .ofInt amount,
    .str reason]).text
  match ← existing db id hash actor with
  | some old => return (old, db)
  | none =>
    let original ← fetch ((lookup WalletRequest.id source db.requests).filter fun d =>
      d.kind = .deposit ∧ d.status = .approved ∧ d.ledgerEntryId.isSome)
      (conflict "INVALID_DEPOSIT_REVERSAL")
    let (publicRef, db) ← reference desk db .adjustment draw.now
    let r := adjustmentRow actor id original.walletAccountId amount original.currency "debit" reason
      publicRef hash (some source) draw.now
    let db ← (insertRequest desk db r).mapError dbError
    commit (audit db actor "deposit.reversal_requested" id (.object
      [("depositId", .str source.text), ("accountId", .str original.walletAccountId.text)])) r

/-! ## Reviews -/

/-- What the posting of a reversal says about the deposit. -/
def reversalMetadata (db : Db) (r : WalletRequest) : Except ApiError (List (String × Value)) :=
  match r.reversalOf with
  | none => .ok []
  | some original => do
    let entry ← fetch ((lookup WalletRequest.id original db.requests).bind
      WalletRequest.ledgerEntryId) (.ofDb .noRow)
    return [("reversalOfDepositId", .str original.text),
      ("reversalOfLedgerEntryId", .str entry.text)]

/-- The posting of an approved request. -/
def WalletRequest.posting (r : WalletRequest) (type : TransactionType) (actor : Actor)
    (note : String) (extra : List (String × Value)) : Posting where
  account := r.walletAccountId
  kind := type.text
  amount := r.amount
  operation := none
  booking := none
  key := requestKey r.id
  actor := actor.externalUserId
  role := actor.role
  remarks := note
  metadata := .object ([("requestId", .str r.id.text), ("publicRef", .str r.publicRef),
    ("requester", .str r.requestedByUserId)] ++ extra)

/-- The part of `review` that posts. -/
def postRequest (desk : Desk) (subjects : List FinancialSubject) (db : Db) (r : WalletRequest)
    (actor : Actor) (note : String) (draw : RequestDraw) : Except ApiError (Uuid × Db) := do
  let type ← fetch r.postingType? (invalid "INVALID_ADJUSTMENT_TYPE")
  let extra ← reversalMetadata db r
  let (e, wallet) ← post desk.pf subjects db.wallet (r.posting type actor note extra)
    ⟨draw.entry, draw.now⟩
  return (e.id, { db with wallet := wallet })

/-- The part of `review` after the posting. -/
def recordReview (desk : Desk) (db : Db) (r : WalletRequest) (actor : Actor)
    (status : RequestStatus) (note : String) (ledger : Option Uuid) (draw : RequestDraw) :
    Except ApiError (WalletRequest × Db) := do
  let db ← (updateRequest desk db r status actor.externalUserId note ledger draw.now).mapError dbError
  let db ← if r.kind = .deposit then enqueue db r.id ("deposit_" ++ status.text) draw else pure db
  commit (audit db actor (r.kind.text ++ "." ++ status.text) r.id
    (.object [("ledgerEntryId", idOrNull ledger)]))
    (r.reviewed status actor.externalUserId note ledger draw.now)

/-- The part of `review` about a pending request. -/
def decideRequest (desk : Desk) (subjects : List FinancialSubject) (db : Db) (r : WalletRequest)
    (actor : Actor) (status : RequestStatus) (note : String) (draw : RequestDraw) :
    Except ApiError (WalletRequest × Db) := do
  ensure (r.kind ∈ [RequestKind.deposit, .adjustment]) (conflict "TICKET_MANAGEMENT_REQUIRED")
  if status = .approved then
    let (entry, db) ← postRequest desk subjects db r actor note draw
    recordReview desk db r actor status note (some entry) draw
  else recordReview desk db r actor status note none draw

/-- `review`. -/
def review (desk : Desk) (subjects : List FinancialSubject) (db : Db) (actor : Actor) (id : Uuid)
    (decision note : String) (draw : RequestDraw) : Except ApiError (WalletRequest × Db) := do
  actor.finance
  ensure (decision ∈ ["approved", "rejected"]) (invalid "INVALID_WALLET_DECISION")
  checkRemarks note (decision = "rejected")
  let r ← fetch (lookup WalletRequest.id id db.requests) missing
  ensure (r.requestedByUserId ≠ actor.externalUserId) (conflict "WALLET_SELF_APPROVAL_FORBIDDEN")
  if r.status = .pending then
    decideRequest desk subjects db r actor
      (if decision = "approved" then .approved else .rejected) note draw
  else
    ensure (r.status.text = decision ∧ r.reviewRemarks = some note)
      (conflict "WALLET_REQUEST_ALREADY_REVIEWED")
    return (r, db)

/-! ## The system -/

structure System where
  db : Db
  prepared : List Prepared

/-- What can happen: the calls of the workflows, each behind the portal, and around them changes of the
settings, freezes, and the other calls of the wallet, whose postings have keys of their own. -/
inductive Event where
  | deposit (actor : Actor) (id : Uuid) (input : Deposit)
  | adjustment (actor : Actor) (id account : Uuid) (amount kind reason : String)
  | write (call : Prepared) (draw : RequestDraw)
  | reverseDeposit (actor : Actor) (id source : Uuid) (amount reason : String) (draw : RequestDraw)
  | review (subjects : List FinancialSubject) (actor : Actor) (id : Uuid) (decision note : String)
      (draw : RequestDraw)
  | settings (rows : List Setting)
  | status (owner : Uuid) (status : OwnerStatus)
  | wallet (subjects : List FinancialSubject) (call : Call)

/-- The transaction of a prepared call. -/
def Prepared.run (desk : Desk) (db : Db) (draw : RequestDraw) :
    Prepared → Except ApiError (WalletRequest × Db)
  | .deposit actor id input account owner gross =>
    Workflows.deposit desk db actor id input account owner gross draw
  | .adjustment actor id account amount kind reason =>
    Workflows.adjustment desk db actor id account amount kind reason draw

/-- Whether a call posts under the key of no request. -/
def ownKey : Call → Bool
  | .posting p => startsWith p.key "ticket-management:"
  | _ => true

def System.step (desk : Desk) (s : System) : Event → Except ApiError System
  | .deposit actor id input => do
    actor.validate
    let call ← prepareDeposit s.db.wallet actor id input
    return { s with prepared := call :: s.prepared }
  | .adjustment actor id account amount kind reason => do
    actor.validate
    let call ← prepareAdjustment s.db.wallet actor id account amount kind reason
    return { s with prepared := call :: s.prepared }
  | .write call draw => do
    ensure (call ∈ s.prepared) missing
    let (_, db) ← call.run desk s.db draw
    return { s with db := db }
  | .reverseDeposit actor id source amount reason draw => do
    actor.validate
    let (_, db) ← Workflows.reverseDeposit desk s.db actor id source amount reason draw
    return { s with db := db }
  | .review subjects actor id decision note draw => do
    actor.validate
    let (_, db) ← Workflows.review desk subjects s.db actor id decision note draw
    return { s with db := db }
  | .settings rows => return { s with db := { s.db with settings := rows } }
  | .status owner status =>
    let owners := modify WalletOwner.id owner (fun o => { o with status := status }) s.db.wallet.owners
    return { s with db := { s.db with wallet := { s.db.wallet with owners := owners } } }
  | .wallet subjects call => do
    ensure (ownKey call) missing
    let wallet ← call.run desk.pf subjects s.db.wallet
    return { s with db := { s.db with wallet := wallet } }

/-- The default branch of migration 0030. -/
def headOffice : Setting where
  id := 0x00000000000040008000000000000001
  kind := "branch"
  ownerId := none
  data := .object [("name", .str "Head Office"), ("address",
    .str "Shomobai Shopping Market (2nd Floor), Dhankhola Bazar, Gangni, Meherpur-7110")]
  active := true
  version := 1

/-- A fresh database. -/
def Db.fresh : Db := ⟨.empty, [headOffice], [], [], [], []⟩

/-- A step is an event that succeeds; one that fails is rolled back and is no step. -/
def machine (desk : Desk) : Machine System Event where
  init s := s = ⟨.fresh, []⟩
  step s e s' := s.step desk e = .ok s'

end ShaponTravels.Wallet.Workflows
