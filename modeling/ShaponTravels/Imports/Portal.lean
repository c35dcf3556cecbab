import ShaponTravels.Booking.Evidence
import ShaponTravels.Library.Transition
import ShaponTravels.Pricing.BigDecimal
import ShaponTravels.Wallet.History

/-!
# Portal — imported bookings and their charge

`portal_imports.rs` with migrations 0055 and 0056.  A Super Admin prepares a quote of what was issued
elsewhere, authorizes its price, and imports it; a confirmed import is paid from the wallet of its
agency in the same transaction, an import on hold when it is confirmed later.
-/

namespace ShaponTravels.Imports

open Library
open Wallet (WalletDb FinancialSubject ImportStatus AuditEvent conflict)

/-! ## Tables -/

/-- A row of `portal_import_quotes`; `expiresAt` is in microseconds, as every time here. -/
structure Quote where
  id : Uuid
  actorId : Uuid
  assignedUserId : Uuid
  agencyCode : String
  source : String
  provider : String
  supplierReference : String
  currency : String
  grossMinor : Int
  payableMinor : Int
  supplierMinor : Int
  data : Value
  fingerprint : Digest
  authorized : Bool
  expiresAt : Int

/-- A row of `portal_import_bookings`. -/
structure ImportBooking where
  id : Uuid
  publicRef : String
  quoteId : Uuid
  creatorId : Uuid
  assignedUserId : Uuid
  agencyCode : String
  source : String
  provider : String
  supplierReference : String
  currency : String
  grossMinor : Int
  payableMinor : Int
  supplierMinor : Int
  status : ImportStatus
  data : Value
  operationId : Option Uuid
  issuedAt : Option Int
  version : Int

/-- A row of `portal_import_requests`. -/
structure ImportRequest where
  actorId : Uuid
  requestId : Uuid
  fingerprint : Digest
  bookingId : Uuid

structure Db where
  wallet : WalletDb
  quotes : List Quote
  imports : List ImportBooking
  requests : List ImportRequest

/-- The columns of `flight_bookings` an import is compared with. -/
structure Flight where
  supplierId : String
  supplierBookingRef : Option String
  uniqueTransID : Option String
  publicRef : Option String

def statusText : ImportStatus → String
  | .onHold => "on-hold"
  | .confirmed => "confirmed"
  | .cancelled => "cancelled"
  | .expired => "expired"

def statusOf? : String → Option ImportStatus
  | "on-hold" => some .onHold
  | "confirmed" => some .confirmed
  | "cancelled" => some .cancelled
  | "expired" => some .expired
  | _ => none

/-- `business::Principal`, as far as imports read it. -/
structure Principal where
  id : Uuid
  subject : String
  role : String
  agencyCode : Option String

/-- What the code takes from its platform besides hashes and case mappings: the times of RFC 3339. -/
structure Desk where
  pf : Platform
  rfc3339 : String → Option Int

/-- What a command reads from its surroundings: the clocks of the process and of the database, the
users, the price of a supplier's fare, the native bookings, and whether its reply can be built. -/
structure Surroundings where
  now : Int
  clock : Int
  principal : String → Except ApiError Principal
  subjectOf : Uuid → Option String
  price : String → Value → Except ApiError Value
  flights : List Flight
  natives : List FinancialSubject
  reply : ImportBooking → Except ApiError Unit

def invalid : ApiError := ⟨.badRequest, "INVALID_IMPORT_DATA"⟩

/-! ## Validation -/

/-- `str_field`. -/
def strField (v : Value) (key : String) (max : Nat) : Except ApiError String :=
  fetch ((v.field key).asStr?.filter fun s =>
    trim s ≠ "" ∧ s.utf8ByteSize ≤ max ∧ ¬ s.toList.any isControl) invalid

/-- The number of a ticket: 10 to 16 digits. -/
def ticketNumber (v : Value) : Except ApiError String :=
  fetch (v.asStr?.filter fun s => 10 ≤ s.utf8ByteSize ∧ s.utf8ByteSize ≤ 16 ∧
    s.toList.all isAsciiDigit) invalid

def evidenceRequired : ApiError := conflict "COMPLETE_CONFIRMED_IMPORT_EVIDENCE_REQUIRED"

/-- The issue time of the data, when it is a text. -/
def issuedAt? (v : Value) : Option String := (v.field "issuedAt").asStr?

/-- `evidence`. -/
def evidence (desk : Desk) (now : Int) (data : Value) : Except ApiError Unit := do
  let travellers ← fetch ((data.field "passengers").field "travellers").asArray? invalid
  let tickets ← fetch ((data.field "ticketNumbers").asArray?.filter fun a =>
    a.length = travellers.length ∧ 0 < travellers.length) evidenceRequired
  let numbers ← tickets.mapM ticketNumber
  ensure (numbers.map fun t => desk.pf.toUppercase (trim t)).Nodup invalid
  match issuedAt? data with
  | none => return ()
  | some text =>
    let date ← fetch (desk.rfc3339 text) invalid
    ensure (date ≤ now + 300000000) invalid

/-- A non-empty list of at most `max` items. -/
def boundedArray (v : Value) (max : Nat) : Except ApiError (List Value) :=
  fetch (v.asArray?.filter fun a => a ≠ [] ∧ a.length ≤ max) invalid

/-- Three ASCII upper-case letters. -/
def isCurrencyCode (s : String) : Bool :=
  s.utf8ByteSize = 3 && s.toList.all fun c => 'A' ≤ c && c ≤ 'Z'

/-- `validate`. -/
def validate (desk : Desk) (now : Int) (data : Value) : Except ApiError Unit := do
  ensure (data.text.utf8ByteSize ≤ 180000) invalid
  let _ ← strField data "supplierReference" 120
  let _ ← strField data "pnr" 120
  let code ← strField data "currency" 3
  let _ ← Wallet.currency code
  ensure (isCurrencyCode code) invalid
  let lifecycle ← fetch ((data.field "lifecycleStatus").asStr?.bind statusOf?) invalid
  let travellers ← boundedArray ((data.field "passengers").field "travellers") 20
  travellers.forM fun p => do
    let _ ← strField p "firstName" 100
    let _ ← strField p "lastName" 100
    return ()
  let legs ← boundedArray ((data.field "itinerary").field "legs") 20
  legs.forM fun l => do
    let _ ← boundedArray (l.field "segments") 40
    return ()
  if lifecycle = .confirmed then evidence desk now data
  else ensure ((data.field "ticketNumbers").asArray?.all fun a => a = []) invalid

/-! ## The charge -/

/-- `account`. -/
def account (db : WalletDb) (agency currency : String) : Except ApiError Uuid := do
  let a ← fetch (db.accounts.find? fun a => a.currency.text = currency ∧
    db.owners.any fun o => o.id = a.ownerId ∧ o.ownerType = .agency ∧ o.ownerKey = agency)
    (conflict "WALLET_ACCOUNT_NOT_FOUND")
  return a.id

/-- What an import draws: its quote or booking, its operation, and the two entries of a charge. -/
structure Draw where
  id : Uuid
  operation : Uuid
  hold : Wallet.Draw
  confirm : Wallet.Draw

/-- The reservation of a charge. -/
def reservation (id account operation : Uuid) (currency : String) (amount : Int)
    (actor : Principal) : Wallet.Reservation where
  id := operation
  account := account
  kind := "manual_issue"
  subject := id
  booking := none
  amount := amount
  currency := currency
  actor := actor.subject
  role := actor.role

/-- `charge`. -/
def charge (desk : Desk) (subjects : List FinancialSubject) (db : WalletDb) (id : Uuid)
    (agency currency : String) (amount : Int) (actor : Principal) (draw : Draw) :
    Except ApiError (Uuid × WalletDb) := do
  let account ← account db agency currency
  let (op, db) ← Wallet.reserve desk.pf subjects db
    (reservation id account draw.operation currency amount actor) draw.hold
  let (_, db) ← Wallet.settle desk.pf subjects db op.id true actor.subject actor.role draw.confirm
  return (op.id, db)

/-- The subjects of postings: the native bookings and the imports. -/
def Db.subjects (db : Db) (natives : List FinancialSubject) : List FinancialSubject :=
  natives ++ db.imports.map fun b =>
    ⟨b.id, .imported b.publicRef (some b.publicRef) b.operationId b.status⟩

/-- `audit`. -/
def Db.logged (db : Db) (actor id : Uuid) (action : String) : Db :=
  { db with
    wallet := { db.wallet with
      audit := db.wallet.audit ++ [⟨"admin", some actor.text, action, "portal_import", id.text, .obj []⟩] } }

/-! ## Commands -/

/-- The arguments of `Command::Prepare`. -/
structure Prepare where
  assignedUser : String
  source : String
  provider : String
  data : Value
  grossMinor : Int
  payableMinor : Int
  supplierMinor : Int
  authorize : Bool

def providersOf : String → List String
  | "MANUAL" => ["MANUAL"]
  | "IMP_EXP" => ["US_BANGLA", "AIR_ASTRA", "NOVOAIR"]
  | "SUPPLIER_API" => ["firsttrip", "takeoff", "triplover"]
  | _ => []

def pricingChanged : ApiError := conflict "SUPPLIER_REFERENCE_PRICING_CHANGED"

/-- The data of a fare the platform prices, with its price. -/
def priced (env : Surroundings) (p : Prepare) : Except ApiError Value :=
  if p.source = "SUPPLIER_API" ∨ p.source = "IMP_EXP" then do
    let pricing ← env.price p.assignedUser p.data
    let payableText ← fetch (pricing.field "payable").asStr? invalid
    let payable ← Wallet.majorToMinor payableText
    ensure (payable = p.payableMinor) pricingChanged
    let grossText ← fetch (pricing.field "gross").asStr? invalid
    let gross ← Wallet.majorToMinor grossText
    ensure (gross = p.grossMinor) pricingChanged
    let supplier ← fetch (BigDecimal.parse (p.data.field "supplierPayable").text) invalid
    ensure (supplier.cmp ⟨p.supplierMinor, 2⟩ = .eq) pricingChanged
    return p.data.setField "rustPricing" pricing
  else return p.data

/-- The times at which evidence was fetched are no part of what is authorized. -/
def withoutTimes : Value → Value
  | .obj fields => .obj (fields.filter fun f => f.1 ∉
      ["importedAt", "retrievedAt", "pricingCalculatedAt", "supplierEvidenceTimestamp"])
  | v => v

/-- What is hashed into the fingerprint. -/
def Quote.identity (q : Quote) : Value :=
  .arr [.str q.assignedUserId.text, .str q.agencyCode, .str q.source, .str q.provider,
    .str q.currency, .ofInt q.grossMinor, .ofInt q.payableMinor, .ofInt q.supplierMinor, q.data]

/-- `Command::Prepare`. -/
def prepare (desk : Desk) (env : Surroundings) (db : Db) (actor : Principal) (p : Prepare)
    (draw : Draw) : Except ApiError Db := do
  ensure (p.provider ∈ providersOf p.source ∧ 0 < p.payableMinor ∧ 0 ≤ p.grossMinor ∧
    0 ≤ p.supplierMinor ∧ ∀ n ∈ [p.grossMinor, p.payableMinor, p.supplierMinor],
      n ≤ 99999999999999) invalid
  validate desk env.now p.data
  ensure (¬ (p.source ≠ "IMP_EXP" ∧ p.data.field "lifecycleStatus" = .str "confirmed" ∧
    issuedAt? p.data = none)) evidenceRequired
  let data ← priced env p
  let target ← env.principal p.assignedUser
  ensure (target.role ∈ ["b2b", "b2b_sub"]) (conflict "INVALID_IMPORT_ASSIGNEE")
  let agency ← fetch target.agencyCode (conflict "ASSIGNEE_AGENCY_REQUIRED")
  let supplierReference ← strField data "supplierReference" 120
  let currency ← strField data "currency" 3
  ensure (¬ (p.authorize ∧ data.field "lifecycleStatus" ≠ .str "confirmed"))
    (conflict "CHARGE_DECISION_NOT_APPLICABLE")
  let reference := desk.pf.toUppercase (trim supplierReference)
  let quote : Quote := {
    id := draw.id
    actorId := actor.id
    assignedUserId := target.id
    agencyCode := agency
    source := p.source
    provider := p.provider
    supplierReference := reference
    currency := currency
    grossMinor := p.grossMinor
    payableMinor := p.payableMinor
    supplierMinor := p.supplierMinor
    data := (withoutTimes data).setField "supplierReference" (.str reference)
    fingerprint := 0
    authorized := p.authorize
    expiresAt := env.clock + 600000000 }
  let quote := { quote with fingerprint := desk.pf.digest quote.identity.text }
  ensure (∀ q ∈ db.quotes, q.id ≠ quote.id) (.ofDb (.unique "portal_import_quotes_pkey"))
  return Db.logged { db with quotes := db.quotes ++ [quote] } actor.id quote.id "import.prepared"

/-- Whether a quote of the same fingerprint and actor has been imported and paid. -/
def Db.alreadyImported (db : Db) (candidate : Quote) : Bool :=
  db.imports.any fun b => b.operationId.isSome ∧ db.quotes.any fun original =>
    original.id = b.quoteId ∧ original.fingerprint = candidate.fingerprint ∧
      original.actorId = candidate.actorId

/-- `Command::Authorize`. -/
def authorize (env : Surroundings) (db : Db) (actor : Principal) (quoteId confirmationId : Uuid) :
    Except ApiError Db := do
  let a ← fetch (lookup Quote.id quoteId db.quotes) pricingChanged
  let b ← fetch (lookup Quote.id confirmationId db.quotes) pricingChanged
  ensure (b.fingerprint = a.fingerprint ∧ b.actorId = a.actorId ∧ a.actorId = actor.id ∧
    env.clock < a.expiresAt ∧ env.clock < b.expiresAt) pricingChanged
  if a.data.field "lifecycleStatus" = .str "confirmed" ∧ ¬ db.alreadyImported a then
    let wallet ← fetch (db.wallet.accounts.find? fun w => w.currency.text = a.currency ∧
      db.wallet.owners.any fun o => o.id = w.ownerId ∧ o.ownerType = .agency ∧
        o.ownerKey = a.agencyCode) (conflict "WALLET_ACCOUNT_NOT_FOUND")
    ensure (db.wallet.owners.all fun o => o.id ≠ wallet.ownerId ∨ o.status = .active)
      (conflict "WALLET_FROZEN")
    ensure (a.payableMinor ≤ wallet.availableBalance) (conflict "INSUFFICIENT_FUNDS")
  return { db with
    quotes := modify Quote.id quoteId (fun q => { q with authorized := true }) db.quotes }

/-- The arguments of `Command::Import`. -/
structure Import where
  quoteId : Uuid
  requestId : Uuid
  charge : Bool
  authorizationId : Option Uuid

/-- `booking_reference` of an import. -/
def importReference (data : Value) : Option String :=
  Booking.bookingReferenceFromEvidence (some (.object [("item2", .object [("isSuccess", .bool true)]),
    ("item1", .object [("pnr", data.field "pnr"), ("airlinesPNR", data.field "airlinesPnr")])]))
    none false

/-- The time of issue an import is saved with. -/
def issueTime (desk : Desk) (now : Int) (data : Value) : Int :=
  ((issuedAt? data).bind desk.rfc3339).getD now

/-- The constraints of `portal_import_bookings` on a new row. -/
def insertImport (db : Db) (b : ImportBooking) : Except ApiError Db := do
  ensure (∀ b' ∈ db.imports, b'.id ≠ b.id) (.ofDb (.unique "portal_import_bookings_pkey"))
  ensure (∀ b' ∈ db.imports, b'.publicRef ≠ b.publicRef)
    (.ofDb (.unique "portal_import_bookings_public_ref_key"))
  ensure (∀ b' ∈ db.imports, (b'.provider, b'.supplierReference) ≠ (b.provider, b.supplierReference))
    (.ofDb (.unique "portal_import_bookings_provider_supplier_reference_key"))
  ensure (b.status = .confirmed ↔ b.issuedAt.isSome)
    (.ofDb (.violated "portal_import_bookings_check"))
  ensure (b.status = .confirmed → b.operationId.isSome)
    (.ofDb (.violated "portal_import_bookings_check1"))
  return { db with imports := db.imports ++ [b] }

/-- The wallet and the operation of an import, paid when it is confirmed. -/
def payment (desk : Desk) (env : Surroundings) (db : Db) (actor : Principal) (q : Quote) (id : Uuid)
    (paid : Bool) (draw : Draw) : Except ApiError (Option Uuid × WalletDb) :=
  if paid then do
    let (op, wallet) ← charge desk (db.subjects env.natives) db.wallet id q.agencyCode q.currency
      q.payableMinor actor draw
    return (some op, wallet)
  else return (none, db.wallet)

/-- A charge of what the platform has priced needs an authorization of the same fingerprint. -/
def checkAuthorization (env : Surroundings) (db : Db) (actor : Principal) (q : Quote) (c : Import) :
    Except ApiError Unit :=
  ensure (c.charge ∧ q.source ≠ "MANUAL" → ∃ a ∈ db.quotes, some a.id = c.authorizationId ∧
    a.actorId = actor.id ∧ a.authorized ∧ env.clock < a.expiresAt ∧ a.fingerprint = q.fingerprint)
    (conflict "FRESH_MATCHING_CHARGE_AUTHORIZATION_REQUIRED")

/-- `Command::Import` of a request that was not made before. -/
def importFresh (desk : Desk) (env : Surroundings) (db : Db) (actor : Principal) (q : Quote)
    (c : Import) (draw : Draw) : Except ApiError Db := do
  ensure (env.now ≤ q.expiresAt) (conflict "IMPORT_QUOTE_EXPIRED")
  let subject ← fetch (env.subjectOf q.assignedUserId) (.ofDb .noRow)
  let current ← env.principal subject
  ensure (current.agencyCode = some q.agencyCode) (conflict "IMPORT_ASSIGNEE_MISMATCH")
  ensure (c.charge = decide (q.data.field "lifecycleStatus" = .str "confirmed"))
    (conflict "CONFIRMED_IMPORT_REQUIRES_CHARGE")
  checkAuthorization env db actor q c
  ensure (¬ (∃ b ∈ db.imports, b.provider = q.provider ∧ b.supplierReference = q.supplierReference) ∧
    ∀ f ∈ env.flights, ¬ (f.supplierId = q.provider ∧
      (f.supplierBookingRef = some q.supplierReference ∨ f.uniqueTransID = some q.supplierReference)))
    (conflict "BOOKING_ALREADY_IMPORTED")
  let reference ← fetch (importReference q.data) (conflict "IMPORT_REFERENCE_EVIDENCE_REQUIRED")
  ensure ((∀ f ∈ env.flights, f.publicRef ≠ some reference) ∧
    ∀ b ∈ db.imports, importReference b.data ≠ some reference) (conflict "BOOKING_ALREADY_IMPORTED")
  let (operation, wallet) ← payment desk env db actor q draw.id c.charge draw
  let status ← fetch ((q.data.field "lifecycleStatus").asStr?.bind statusOf?)
    (.ofDb (.violated "portal_import_bookings_status_check"))
  let booking : ImportBooking := {
    id := draw.id
    publicRef := reference
    quoteId := q.id
    creatorId := actor.id
    assignedUserId := q.assignedUserId
    agencyCode := q.agencyCode
    source := q.source
    provider := q.provider
    supplierReference := q.supplierReference
    currency := q.currency
    grossMinor := q.grossMinor
    payableMinor := q.payableMinor
    supplierMinor := q.supplierMinor
    status := status
    data := q.data
    operationId := operation
    issuedAt := if c.charge then some (issueTime desk env.now q.data) else none
    version := 1 }
  let db ← insertImport { db with wallet } booking
  ensure (∀ r ∈ db.requests, ¬ (r.actorId = actor.id ∧ r.requestId = c.requestId))
    (.ofDb (.unique "portal_import_requests_pkey"))
  let request : ImportRequest := ⟨actor.id, c.requestId, q.fingerprint, booking.id⟩
  env.reply booking
  return Db.logged { db with requests := db.requests ++ [request] } actor.id booking.id
    "import.created"

/-- `Command::Import`: whether it is a replay, and what it leaves. -/
def importBooking (desk : Desk) (env : Surroundings) (db : Db) (actor : Principal) (c : Import)
    (draw : Draw) : Except ApiError (Bool × Db) := do
  let q ← fetch (db.quotes.find? fun q => q.id = c.quoteId ∧ q.actorId = actor.id) invalid
  match db.requests.find? fun r => r.actorId = actor.id ∧ r.requestId = c.requestId with
  | some r =>
    ensure (r.fingerprint = q.fingerprint) (conflict "IMPORT_REQUEST_IDENTITY_MISMATCH")
    let booking ← fetch (lookup ImportBooking.id r.bookingId db.imports) (.ofDb .noRow)
    env.reply booking
    return (true, db)
  | none =>
    let db ← importFresh desk env db actor q c draw
    return (false, db)

/-- The arguments of `Command::Status`. -/
structure StatusChange where
  reference : String
  expectedVersion : Int
  status : String
  data : Value

/-- The data of an import with the evidence of its tickets. -/
def withEvidence (saved data : Value) : Value :=
  (saved.setField "ticketNumbers" (data.field "ticketNumbers")).setField "issuedAt"
    (data.field "issuedAt")

/-- The operation of a changed import, its wallet and its data. -/
def settleStatus (desk : Desk) (env : Surroundings) (db : Db) (actor : Principal) (b : ImportBooking)
    (c : StatusChange) (status : ImportStatus) (draw : Draw) :
    Except ApiError (Option Uuid × WalletDb × Value) :=
  if status = .confirmed then do
    let saved := withEvidence b.data c.data
    evidence desk env.now saved
    let (op, wallet) ← charge desk (db.subjects env.natives) db.wallet b.id b.agencyCode b.currency
      b.payableMinor actor draw
    return (some op, wallet, saved)
  else return (none, db.wallet, b.data)

/-- `Command::Status`. -/
def changeStatus (desk : Desk) (env : Surroundings) (db : Db) (actor : Principal)
    (c : StatusChange) (draw : Draw) : Except ApiError Db := do
  let b ← fetch (db.imports.find? fun b =>
    b.publicRef = c.reference ∨ importReference b.data = some c.reference) invalid
  ensure (¬ (c.status = "confirmed" ∧ b.source ≠ "IMP_EXP" ∧ issuedAt? c.data = none))
    evidenceRequired
  ensure (b.version = c.expectedVersion) (conflict "IMPORT_VERSION_CHANGED")
  let status ← fetch ((statusOf? c.status).filter fun s => b.status = .onHold ∧ s ≠ .onHold)
    (conflict "IMPORT_STATUS_NOT_ALLOWED")
  let (operation, wallet, saved) ← settleStatus desk env db actor b c status draw
  let data := saved.setField "lifecycleStatus" (.str c.status)
  let version ← (bigint (b.version + 1)).mapError .ofDb
  let changed : ImportBooking := { b with
    status := status
    data := data
    operationId := operation
    issuedAt := if status = .confirmed then some (issueTime desk env.now saved) else none
    version := version }
  env.reply changed
  return Db.logged { db with
    wallet
    imports := modify ImportBooking.id b.id (fun _ => changed) db.imports } actor.id b.id
    "import.status_changed"

/-! ## Steps -/

inductive Command where
  | prepare (p : Prepare)
  | authorize (quoteId confirmationId : Uuid)
  | importBooking (c : Import)
  | status (c : StatusChange)

/-- `execute`. -/
def execute (desk : Desk) (env : Surroundings) (db : Db) (actor : Principal) (command : Command)
    (draw : Draw) : Except ApiError Db := do
  ensure (actor.role = "superadmin") ⟨.forbidden, "IMPORT_FORBIDDEN"⟩
  match command with
  | .prepare p => prepare desk env db actor p draw
  | .authorize quoteId confirmationId => authorize env db actor quoteId confirmationId
  | .importBooking c => do
    let (_, db) ← importBooking desk env db actor c draw
    return db
  | .status c => changeStatus desk env db actor c draw

/-- Whether a call of the wallet reserves for an import; only `charge` does. -/
def reservesImport : Wallet.Call → Bool
  | .reserve r _ => r.kind = "manual_issue"
  | _ => false

/-- What can happen: a command, and around it the other calls of the wallet and new owners of it. -/
inductive Event where
  | command (env : Surroundings) (actor : Principal) (command : Command) (draw : Draw)
  | wallet (subjects : List FinancialSubject) (call : Wallet.Call)
  | status (owner : Uuid) (status : Wallet.OwnerStatus)

/-- A step; a command that fails is rolled back, and its caller sees the error. -/
def step (desk : Desk) (db : Db) : Event → Except ApiError Db
  | .command env actor command draw => execute desk env db actor command draw
  | .wallet subjects call => do
    ensure (¬ reservesImport call) (.ofDb (.raised "import charge"))
    let wallet ← call.run desk.pf subjects db.wallet
    return { db with wallet }
  | .status owner status =>
    let owners := modify Wallet.WalletOwner.id owner (fun o => { o with status := status })
      db.wallet.owners
    return { db with wallet := { db.wallet with owners } }

def Db.empty : Db := ⟨.empty, [], [], []⟩

def machine (desk : Desk) : Machine Db Event where
  init db := db = .empty
  step db e db' := step desk db e = .ok db'

end ShaponTravels.Imports
