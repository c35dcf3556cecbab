import ShaponTravels.Errors
import ShaponTravels.Library.Outcome
import ShaponTravels.Library.Tally
import ShaponTravels.Library.Transition
import ShaponTravels.Wallet.Schema

/-!
# Controls — daily search budgets

`search_controls.rs` and migration 0053.  A claim is a transaction of several statements: it takes
the lock of its actor, reads the control of the user, takes the row of its supplier, reads the day and
both counters, and commits.  What it has read so far is its phase; every statement is a step of its
own, and so are the edits of administrators.
-/

namespace ShaponTravels.Search.Controls

open Library
open Wallet (AuditEvent)

/-! ## Tables -/

/-- `search_supplier_limits`. -/
structure SupplierLimit where
  supplier : String
  dailyLimit : Option Int
  version : Int

/-- `search_user_controls`. -/
structure UserControl where
  subject : String
  searchEnabled : Bool
  dailyLimit : Option Int
  version : Int

/-- `search_daily_hits.kind`. -/
inductive HitKind where
  | actor
  | supplier
  deriving DecidableEq, Repr

/-- The primary key of `search_daily_hits`. -/
structure HitKey where
  day : Int
  kind : HitKind
  key : String
  deriving DecidableEq

/-- `search_usage`, as far as claims need it; `subject` is the portal user a search is charged to. -/
structure Usage where
  id : Uuid
  clientId : Uuid
  subject : Option String
  deriving DecidableEq

/-- `actor_key`: the user, or the machine client of no user. -/
def Usage.actorKey (u : Usage) : String := u.subject.getD ("client:" ++ u.clientId.text)

/-- `search_supplier_usage.outcome`. -/
inductive Outcome where
  | pending
  | success
  | failed
  | blocked
  deriving DecidableEq, Repr

/-- `search_supplier_usage`. -/
structure SupplierUsage where
  searchId : Uuid
  supplier : String
  dispatched : Bool
  outcome : Outcome
  deriving DecidableEq

structure Db where
  limits : List SupplierLimit
  controls : List UserControl
  /-- `search_daily_hits` -/
  hits : List (Tally HitKey)
  usages : List Usage
  supplierUsages : List SupplierUsage
  /-- `portal_users.clerk_user_id` -/
  portalUsers : List String
  audit : List AuditEvent

/-- The recorded hits of an actor or a supplier on a day. -/
def Db.hitsOf (db : Db) (day : Int) (kind : HitKind) (key : String) : Int :=
  Tally.read ⟨day, kind, key⟩ db.hits

/-- The switch and the limit of a user, when there is a row. -/
def Db.control (db : Db) (subject : Option String) : Option (Bool × Option Int) :=
  (subject.bind fun s => lookup UserControl.subject s db.controls).map fun c =>
    (c.searchEnabled, c.dailyLimit)

/-- The limit of a supplier; there is always a row. -/
def Db.limit (db : Db) (supplier : String) : Option (Option Int) :=
  (lookup SupplierLimit.supplier supplier db.limits).map SupplierLimit.dailyLimit

/-! ## Claims -/

/-- What a claim has read. -/
inductive Phase where
  /-- the lock of the actor is taken -/
  | locked
  | controlled (control : Option (Bool × Option Int))
  /-- the row of the supplier is taken -/
  | limited (control : Option (Bool × Option Int)) (limit : Option Int)
  | dated (control : Option (Bool × Option Int)) (limit : Option Int) (day : Int)
  | counted (control : Option (Bool × Option Int)) (limit : Option Int) (day : Int)
      (userHits supplierHits : Int)
  deriving DecidableEq

/-- An open transaction of `claim`. -/
structure Claim where
  usage : Usage
  supplier : String
  phase : Phase
  deriving DecidableEq

/-- Whether a phase holds the row of the supplier. -/
def Phase.holdsSupplier : Phase → Bool
  | .locked | .controlled _ => false
  | .limited .. | .dated .. | .counted .. => true

/-- The refusal of a claim: a disabled user, the limit of the user, the limit of the supplier. -/
def refusal (control : Option (Bool × Option Int)) (limit : Option Int)
    (userHits supplierHits : Int) : Option String :=
  if control.any fun c => !c.1 then some "USER_SEARCH_DISABLED"
  else if (control.bind Prod.snd).any fun limit => limit ≤ userHits then
    some "USER_DAILY_LIMIT_REACHED"
  else if limit.any fun limit => limit ≤ supplierHits then some "SUPPLIER_DAILY_LIMIT_REACHED"
  else none

/-- What a claim that has read everything is going to do: its day, and its refusal if there is one. -/
def Claim.verdict (c : Claim) : Option (Int × Option String) :=
  match c.phase with
  | .counted control limit day userHits supplierHits =>
    some (day, refusal control limit userHits supplierHits)
  | _ => none

structure System where
  db : Db
  claims : List Claim

/-- A lock or a row another transaction holds. -/
def busy : ApiError := .ofDb (.raised "lock not available")

/-- `actor_lock`. -/
def System.actorFree (s : System) (key : String) : Bool :=
  s.claims.all fun c => c.usage.actorKey ≠ key

/-- No transaction holds the row of the supplier. -/
def System.supplierFree (s : System) (supplier : String) : Bool :=
  s.claims.all fun c => !(c.phase.holdsSupplier && c.supplier = supplier)

/-- The next statement of a claim that only reads. -/
def System.advance (s : System) (c : Claim) (phase : Phase) : System :=
  { s with claims := s.claims.map fun c' => if c' = c then { c with phase := phase } else c' }

def System.close (s : System) (c : Claim) : System := { s with claims := s.claims.erase c }

/-- The writes of a claim. -/
def Db.settleClaim (db : Db) (c : Claim) (day : Int) (code : Option String) : Except DbError Db := do
  ensure (db.usages.any fun u => u.id = c.usage.id)
    (.violated "search_supplier_usage_search_id_fkey")
  ensure (∀ u ∈ db.supplierUsages, ¬ (u.searchId = c.usage.id ∧ u.supplier = c.supplier))
    (.unique "search_supplier_usage_pkey")
  let usages := db.supplierUsages ++ [⟨c.usage.id, c.supplier, code.isNone,
    if code.isSome then .blocked else .pending⟩]
  if code.isSome then return { db with supplierUsages := usages }
  else
    let _ ← bigint (db.hitsOf day .actor c.usage.actorKey + 1)
    let _ ← bigint (db.hitsOf day .supplier c.supplier + 1)
    return { db with
      supplierUsages := usages
      hits := Tally.bump ⟨day, .supplier, c.supplier⟩
        (Tally.bump ⟨day, .actor, c.usage.actorKey⟩ db.hits) }

/-! ## Edits -/

/-- `auth::Admin`. -/
structure Admin where
  id : Uuid
  role : String

/-- `Admin::super_admin`. -/
def Admin.superAdmin (a : Admin) : Except ApiError Unit :=
  ensure (a.role = "super_admin") ⟨.forbidden, "FORBIDDEN"⟩

/-- The commands that write. -/
inductive Command where
  | supplier (supplier : String) (dailyLimit : Option Int) (expectedVersion : Int)
  | user (subject : String) (searchEnabled : Bool) (dailyLimit : Option Int) (expectedVersion : Int)

def invalid : ApiError := ⟨.badRequest, "INVALID_SEARCH_CONTROL"⟩

def changed : ApiError := ⟨.conflict, "SEARCH_CONTROL_CHANGED"⟩

def Db.saved (db : Db) (admin : Admin) (kind key : String) (details : Value) : Db :=
  { db with
    audit := db.audit ++ [⟨"admin", some admin.id.text, "search.control.saved", kind, key, details⟩] }

def limitValue (limit : Option Int) : Value := (limit.map Value.ofInt).getD .null

/-- `SearchControlCommand::Supplier`. -/
def editSupplier (db : Db) (admin : Admin) (supplier : String) (dailyLimit : Option Int)
    (expectedVersion : Int) : Except ApiError Db := do
  ensure (supplier ∈ ["firsttrip", "takeoff", "triplover"] ∧
    dailyLimit.all (fun v => 0 ≤ v && v ≤ 1000000) ∧ 1 ≤ expectedVersion) invalid
  ensure (db.limits.any fun l => l.supplier = supplier ∧ l.version = expectedVersion) changed
  let edited : Db := { db with
    limits := modify SupplierLimit.supplier supplier (fun l =>
      if l.version = expectedVersion then
        { l with dailyLimit := dailyLimit, version := l.version + 1 }
      else l) db.limits }
  return edited.saved admin "supplier" supplier
    (.object [("dailyLimit", limitValue dailyLimit), ("version", .ofInt (expectedVersion + 1))])

/-- `SearchControlCommand::User`. -/
def editUser (db : Db) (admin : Admin) (subject : String) (searchEnabled : Bool)
    (dailyLimit : Option Int) (expectedVersion : Int) : Except ApiError Db := do
  ensure (dailyLimit.all (fun v => 1 ≤ v && v ≤ 1000000) ∧ 0 ≤ expectedVersion ∧
    subject.utf8ByteSize ≤ 128) invalid
  ensure (subject ∈ db.portalUsers) invalid
  let edited : Db ←
    if expectedVersion = 0 then do
      ensure (∀ c ∈ db.controls, c.subject ≠ subject) changed
      pure { db with controls := db.controls ++ [⟨subject, searchEnabled, dailyLimit, 1⟩] }
    else do
      ensure (db.controls.any fun c => c.subject = subject ∧ c.version = expectedVersion) changed
      pure { db with
        controls := modify UserControl.subject subject (fun c =>
          if c.version = expectedVersion then
            { c with
              searchEnabled := searchEnabled
              dailyLimit := dailyLimit
              version := c.version + 1 }
          else c) db.controls }
  return edited.saved admin "user" subject
    (.object [("searchEnabled", .bool searchEnabled), ("dailyLimit", limitValue dailyLimit),
      ("version", .ofInt (expectedVersion + 1))])

/-! ## Steps -/

inductive Event where
  /-- `start` -/
  | start (u : Usage)
  | begin (u : Usage) (supplier : String)
  | readControl (c : Claim)
  | lockSupplier (c : Claim)
  /-- the clock, as a date in Dhaka -/
  | readDay (c : Claim) (day : Int)
  | readHits (c : Claim)
  | commit (c : Claim)
  /-- the transaction ends without a commit -/
  | abort (c : Claim)
  /-- `supplier_finished` -/
  | finished (search : Uuid) (supplier : String) (success : Bool)
  | edit (admin : Admin) (command : Command)
  | portalUser (subject : String)

def System.step (s : System) : Event → Except ApiError System
  | .start u => do
    ensure (∀ u' ∈ s.db.usages, u'.id ≠ u.id) (.ofDb (.unique "search_usage_pkey"))
    return { s with db := { s.db with usages := s.db.usages ++ [u] } }
  | .begin u supplier => do
    ensure (s.actorFree u.actorKey) busy
    return { s with claims := s.claims ++ [⟨u, supplier, .locked⟩] }
  | .readControl c => do
    ensure (c ∈ s.claims ∧ c.phase = .locked) busy
    return s.advance c (.controlled (s.db.control c.usage.subject))
  | .lockSupplier c => do
    ensure (c ∈ s.claims) busy
    match c.phase with
    | .controlled control =>
      ensure (s.supplierFree c.supplier) busy
      let limit ← fetch (s.db.limit c.supplier) (.ofDb .noRow)
      return s.advance c (.limited control limit)
    | _ => .error busy
  | .readDay c day => do
    ensure (c ∈ s.claims) busy
    match c.phase with
    | .limited control limit => return s.advance c (.dated control limit day)
    | _ => .error busy
  | .readHits c => do
    ensure (c ∈ s.claims) busy
    match c.phase with
    | .dated control limit day =>
      return s.advance c (.counted control limit day (s.db.hitsOf day .actor c.usage.actorKey)
        (s.db.hitsOf day .supplier c.supplier))
    | _ => .error busy
  | .commit c => do
    ensure (c ∈ s.claims) busy
    let (day, code) ← fetch c.verdict busy
    let db ← (s.db.settleClaim c day code).mapError .ofDb
    return { s.close c with db := db }
  | .abort c => .ok (s.close c)
  | .finished search supplier success =>
    .ok { s with db := { s.db with
      supplierUsages := s.db.supplierUsages.map fun u =>
        if u.searchId = search ∧ u.supplier = supplier ∧ u.dispatched then
          { u with outcome := if success then .success else .failed }
        else u } }
  | .edit admin (.supplier supplier dailyLimit expectedVersion) => do
    admin.superAdmin
    ensure (s.supplierFree supplier) busy
    let db ← editSupplier s.db admin supplier dailyLimit expectedVersion
    return { s with db := db }
  | .edit admin (.user subject searchEnabled dailyLimit expectedVersion) => do
    admin.superAdmin
    ensure (s.actorFree subject) busy
    let db ← editUser s.db admin subject searchEnabled dailyLimit expectedVersion
    return { s with db := db }
  | .portalUser subject =>
    .ok { s with db := { s.db with portalUsers := s.db.portalUsers ++ [subject] } }

/-- The system before its first search. -/
structure Initial (s : System) : Prop where
  limits : KeyUnique SupplierLimit.supplier s.db.limits
  controls : KeyUnique UserControl.subject s.db.controls
  hits : s.db.hits = []
  claims : s.claims = []

def machine : Library.Machine System Event where
  init := Initial
  step s e s' := s.step e = .ok s'

end ShaponTravels.Search.Controls
