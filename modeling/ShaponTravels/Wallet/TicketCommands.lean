import ShaponTravels.Wallet.TicketStore

/-!
# TicketCommands — what the portal and the clients may ask for, and the workflow as a machine

`handle` of `wallet/ticket_management/mod.rs` and the handlers of `client.rs`.  A command is one transaction;
between commands the other modules write their tables and the wallet.
-/

namespace ShaponTravels.Wallet.Tickets

open Library
open TicketManagement (Action RequestType Direction Quote NewTicket Allocation ReissuePreference CreateRequest
  CreateCommand Replay replay saveReplay)
open Nonissuance (Actor)

variable (desk : Desk) (db : Db) (actor : Actor) (draw : Draw)

/-! ## The rows of a caller -/

/-- Whether a client made the booking of a request, or may read it as an import. -/
def Records.clientReads (r : Records) (client booking : Uuid) : Bool :=
  r.bookings.any (fun b => b.id = booking && b.clientId = client) ||
    r.imports.any fun b => b.row.id = booking && r.agencies.any fun ag =>
      ag.agencyCode = b.row.agencyCode && r.readsImport client ag

/-- `request_scoped`. -/
def requestScoped (id : Uuid) (client : Option Uuid) : Except ApiError (Request × Db) := do
  let r ← fetch (lookup Request.id id db.requests) notFound
  let o ← fetch (ownerOf db.wallet r.walletAccountId) notFound
  ensure (Sees actor o ∧ client.all (db.records.clientReads · r.bookingId)) notFound
  expire db r draw

/-! ## Fingerprints -/

/-- The JSON of a quote. -/
def quoteJson (q : Quote) : Value :=
  .object [("direction", .str (Direction.text q.direction)), ("currency", .str q.currency),
    ("userPayableEntitlementAmountMinor", .ofInt q.userPayableEntitlementAmountMinor),
    ("fareDifferenceMinor", .ofInt q.fareDifferenceMinor), ("airlineFeeMinor", .ofInt q.airlineFeeMinor),
    ("voidFeeMinor", .ofInt q.voidFeeMinor), ("serviceFeeMinor", .ofInt q.serviceFeeMinor),
    ("customerAmountMinor", .ofInt q.customerAmountMinor),
    ("confirmationDeadlineAt", .str (desk.rfc3339 q.confirmationDeadlineAt)), ("details", .ofOption q.details),
    ("reissueFareDifferenceAllocations", .arr (q.reissueFareDifferenceAllocations.map fun a : Allocation =>
      .object [("entitlementId", .str a.entitlementId.text),
        ("fareDifferenceAmountMinor", .ofInt a.fareDifferenceAmountMinor)]))]

def newTicketJson (t : NewTicket) : Value :=
  .object [("predecessorEntitlementId", .str t.predecessorEntitlementId.text),
    ("newTicketNumber", .str t.newTicketNumber), ("fareDifferenceAmountMinor", .ofInt t.fareDifferenceAmountMinor)]

/-- The JSON of a mutation. -/
def Mutation.json : Mutation → Value
  | .review accept note => .object [("action", .str "review"),
      ("decision", .str (if accept then "accept" else "reject")), ("note", .ofOption note)]
  | .publishQuote q => .object [("action", .str "publish-quote"), ("quote", quoteJson desk q)]
  | .customerDecision quoteId approved note => .object [("action", .str "customer-decision"),
      ("quoteId", .str quoteId.text), ("decision", .str (if approved then "approved" else "rejected")),
      ("note", .ofOption note)]
  | .requote reason => .object [("action", .str "requote"), ("reason", .str reason)]
  | .assign assignee reason => .object [("action", .str "assign"), ("assigneeUserId", .str assignee),
      ("reason", .ofOption reason)]
  | .completeRefund note => .object [("action", .str "complete-refund"), ("note", .ofOption note)]
  | .completeReissue tickets note => .object [("action", .str "complete-reissue"),
      ("newTickets", .arr (tickets.map newTicketJson)), ("note", .ofOption note)]
  | .completeVoid note => .object [("action", .str "complete-void"), ("note", .ofOption note)]
  | .releaseReissue reason => .object [("action", .str "release-reissue"), ("reason", .str reason)]
  | .releaseVoid reason => .object [("action", .str "release-void"), ("reason", .str reason)]

/-- `Command::Mutate`. -/
structure MutateCommand where
  requestId : Uuid
  expectedVersion : Int
  requestKey : Uuid
  input : Mutation

/-- The hash of a mutation from the portal. -/
def MutateCommand.fingerprint (c : MutateCommand) : Digest :=
  desk.pf.digest (Value.object [("actor", .str actor.externalUserId), ("command", .object [("action", .str "mutate"),
    ("requestId", .str c.requestId.text), ("expectedVersion", .ofInt c.expectedVersion),
    ("requestKey", .str c.requestKey.text), ("input", c.input.json desk)])]).text

/-- `QuoteDecision`, with the request it is about. -/
structure DecisionCommand where
  requestId : Uuid
  requestKey : Uuid
  expectedVersion : Int
  quoteId : Uuid
  approved : Bool
  note : Option String

/-- The hash of a client's decision. -/
def DecisionCommand.fingerprint (c : DecisionCommand) : Digest :=
  desk.pf.digest (Value.object [("operation", .str "decision"), ("requestId", .str c.requestId.text),
    ("input", .object [("requestKey", .str c.requestKey.text), ("expectedVersion", .ofInt c.expectedVersion),
      ("quoteId", .str c.quoteId.text), ("decision", .str (if c.approved then "approved" else "rejected")),
      ("note", .ofOption c.note)])]).text

def DecisionCommand.mutation (c : DecisionCommand) : Mutation := .customerDecision c.quoteId c.approved c.note

/-! ## Replays -/

/-- A new result is saved under its key. -/
def remember (key request : Uuid) (hash : Digest) (done : Value × Db) : Except ApiError (Value × Db) := do
  let rows ← saveReplay done.2.replays ⟨actor.externalUserId, key, hash, request, done.1⟩
  return (done.1, { done.2 with replays := rows })

/-! ## Commands of the portal -/

/-- `Command::Create`. -/
def portalCreate (c : CreateCommand) : Except ApiError (Value × Db) := do
  let c := c.sorted
  owner actor.role
  match ← replay db.replays actor.externalUserId c.requestId (c.fingerprint desk.pf.digest actor.externalUserId) with
  | some saved => do
    let (_, db) ← requestScoped db actor draw c.requestId none
    return (saved, db)
  | none => do
    let b ← bookingScoped db actor c.bookingReference none
    let done ← create desk.cs db actor b
      ⟨c.requestId, c.kind, c.requestType, c.passengerIndexes, c.routeIndexes, c.note, []⟩ draw
    remember actor c.requestId c.requestId (c.fingerprint desk.pf.digest actor.externalUserId) done

/-- What a mutation does once its request is found, and possibly expired. -/
def mutateFound (found : Request × Db) (key : Uuid) (expected : Int) (hash : Digest) (input : Mutation) :
    Except ApiError (Value × Db) := do
  match ← replay found.2.replays actor.externalUserId key hash with
  | some saved => return (saved, found.2)
  | none => do
    ensure (found.1.version = expected) (conflict "TICKET_VERSION_CONFLICT")
    let done ← mutate desk found.2 actor found.1 input draw
    remember actor key found.1.id hash done

/-- `Command::Mutate`. -/
def portalMutate (c : MutateCommand) : Except ApiError (Value × Db) := do
  ensure (1 ≤ c.expectedVersion) (invalid "INVALID_TICKET_VERSION")
  let found ← requestScoped db actor draw c.requestId none
  mutateFound desk actor draw found c.requestKey c.expectedVersion (c.fingerprint desk actor) c.input

/-! ## Commands of a client -/

/-- The actor that `Client::begin` makes of a client and the owner it is linked to. -/
def clientActor (client : Uuid) (own : Owner) (display : Value) : Actor := ⟨client.text, "client", some own, display⟩

/-- The date in Dhaka at a time. -/
def dhakaDate (now : Int) : Int := (now + 6 * 3600 * 1000000) / 86400000000

/-- `CreateRequest::validate_dates`. -/
def validateDates (r : CreateRequest) : Except ApiError Unit := do
  let dates ← r.reissuePreferences.mapM fun p => fetch (desk.dateOf p.departureDate) TicketManagement.unwrapped
  ensure ((∀ d ∈ dates, dhakaDate draw.now ≤ d) ∧ dates.IsChain (· ≤ ·)) (invalid "INVALID_REISSUE_DATE")

/-- The line of a preference. -/
def preferenceLine (p : ReissuePreference) : String :=
  "Route " ++ toString (p.routeIndex + 1) ++ ": preferred " ++ p.departureDate ++
    ((p.preferredFlight.map fun f => " (" ++ f ++ ")").getD "")

/-- `CreateRequest::staff_note`. -/
def staffNote (r : CreateRequest) : Except ApiError String := do
  let note := "\n".intercalate (r.reissuePreferences.map preferenceLine ++ r.note.toList)
  TicketManagement.text (some note) 2000 false
  return note

/-- `create` of `client.rs`. -/
def clientCreate (client : Uuid) (input : CreateRequest) : Except ApiError (Value × Db) := do
  let input ← input.normalize fun s => (desk.dateOf s).isSome
  match ← replay db.replays actor.externalUserId input.requestId (input.fingerprint desk.pf.digest) with
  | some saved => do
    let (_, db) ← requestScoped db actor draw input.requestId (some client)
    return (saved, db)
  | none => do
    ensure (∀ r ∈ db.requests, r.id ≠ input.requestId) (conflict "TICKET_REQUEST_ID_CONFLICT")
    validateDates desk draw input
    let b ← bookingScoped db actor input.bookingReference (some client)
    let note ← staffNote input
    let done ← create desk.cs db actor b ⟨input.requestId, input.action, input.requestType, input.passengerIndexes,
      input.routeIndexes, some note, input.reissuePreferences⟩ draw
    remember actor input.requestId input.requestId (input.fingerprint desk.pf.digest) done

/-- `decision` of `client.rs`. -/
def clientDecision (client : Uuid) (c : DecisionCommand) : Except ApiError (Value × Db) := do
  ensure (1 ≤ c.expectedVersion) (invalid "INVALID_TICKET_VERSION")
  let found ← requestScoped db actor draw c.requestId (some client)
  mutateFound desk actor draw found c.requestKey c.expectedVersion (c.fingerprint desk) c.mutation

/-! ## Reads -/

/-- `detail` and `list` read every request in its scope, which may expire it. -/
def readRequests (client : Option Uuid) (ids : List Uuid) : Except ApiError Db :=
  ids.foldlM (fun db id => (requestScoped db actor draw id client).map Prod.snd) db

/-- `availability`, up to its reply. -/
def availability (reference : String) (client : Option Uuid) : Except ApiError Db := do
  let b ← bookingScoped db actor reference client
  let db ← initializeEntitlements desk.cs db b draw
  let db ← expireBooking db b.id draw
  let _ ← routes b
  return db

/-! ## The machine -/

/-- The calls that other modules make on the wallet: they post no refund and leave the holds of ticket
management alone. -/
def Elsewhere (wallet : WalletDb) : Call → Prop
  | .provision _ _ _ _ _ => True
  | .posting p => p.type ∈ ["deposit", "manual_credit", "manual_debit"]
  | .reserve r _ => r.kind ≠ "ticket_management"
  | .settle id _ _ _ _ => ∀ o ∈ wallet.operations, o.id = id → o.subjectKind ≠ .ticketManagement
  | .markReconciliation id => ∀ o ∈ wallet.operations, o.id = id → o.subjectKind ≠ .ticketManagement

instance (wallet : WalletDb) (call : Call) : Decidable (Elsewhere wallet call) := by
  cases call <;> unfold Elsewhere <;> infer_instance

inductive Command where
  | create (actor : Actor) (c : CreateCommand) (draw : Draw)
  | mutate (actor : Actor) (c : MutateCommand) (draw : Draw)
  | clientCreate (client : Uuid) (own : Owner) (display : Value) (input : CreateRequest) (draw : Draw)
  | decide (client : Uuid) (own : Owner) (display : Value) (c : DecisionCommand) (draw : Draw)
  | read (actor : Actor) (client : Option Uuid) (ids : List Uuid) (draw : Draw)
  | availability (actor : Actor) (reference : String) (client : Option Uuid) (draw : Draw)
  | records (records : Records)
  | wallet (call : Call)
  | status (owner : Uuid) (status : OwnerStatus)

/-- One transaction that commits. -/
def Db.step : Command → Except ApiError Db
  | .create actor c draw => (portalCreate desk db actor draw c).map Prod.snd
  | .mutate actor c draw => (portalMutate desk db actor draw c).map Prod.snd
  | .clientCreate client own display input draw =>
    (clientCreate desk db (clientActor client own display) draw client input).map Prod.snd
  | .decide client own display c draw =>
    (clientDecision desk db (clientActor client own display) draw client c).map Prod.snd
  | .read actor client ids draw => readRequests db actor draw client ids
  | .availability actor reference client draw => availability desk db actor draw reference client
  | .records records => .ok { db with records := records }
  | .wallet call => do
    ensure (Elsewhere db.wallet call) forbidden
    let wallet ← call.run desk.pf db.records.subjects db.wallet
    return { db with wallet := wallet }
  | .status owner status => .ok { db with wallet := { db.wallet with
      owners := modify WalletOwner.id owner (fun o => { o with status := status }) db.wallet.owners } }

/-- The tables before anything is asked for. -/
def Db.start (records : Records) : Db := ⟨records, .empty, [], [], [], [], [], [], []⟩

/-- A step is a transaction that commits, or one that fails and is rolled back. -/
def machine : Machine Db Command where
  init db := ∃ records, db = .start records
  step db command db' := db.step desk command = .ok db' ∨ (∃ e, db.step desk command = .error e) ∧ db' = db

end ShaponTravels.Wallet.Tickets
