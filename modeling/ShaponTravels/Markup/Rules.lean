import ShaponTravels.Library.Table
import ShaponTravels.Search.Context
import ShaponTravels.Search.Controls

/-!
# Rules — the markup rules administrators keep

`markup.rs` with migrations 0004, 0005, 0047 and 0048.  Every command is one transaction: it reads
the row it changes, writes it, and records the row it wrote as a version.
-/

namespace ShaponTravels.Markup

open Library
open Search.Controls (Admin)
open Wallet (AuditEvent)

/-! ## Rules -/

/-- `RuleInput`: the columns an administrator chooses. -/
structure RuleInput where
  name : String
  audience : String
  agentId : Option Uuid
  airline : Option String
  origin : Option String
  destination : Option String
  kind : String
  amount : String
  currency : String
  deriving DecidableEq

/-- Three ASCII upper-case letters. -/
def airport (s : String) : Bool :=
  s.utf8ByteSize = 3 && s.toList.all fun c => 'A' ≤ c && c ≤ 'Z'

/-- A decimal without sign or exponent. -/
def validAmount (s : String) : Bool :=
  s.utf8ByteSize ≤ 60 && s ≠ "" && (s.toList.all fun c => isAsciiDigit c || c = '.') &&
    s.toList.count '.' ≤ 1 && s.toList.any isAsciiDigit

/-- What `RuleInput::validate` lets through. -/
structure RuleInput.Valid (r : RuleInput) : Prop where
  name : trim r.name ≠ "" ∧ r.name.length ≤ 200
  audience : r.audience ∈ ["b2b", "b2c", "specific_agent"]
  agent : r.audience = "specific_agent" ↔ r.agentId.isSome
  airline : r.airline.all Search.isCarrierCode
  ends : r.origin.isSome = r.destination.isSome
  airports : r.origin.all airport ∧ r.destination.all airport
  distinct : ¬ (r.origin.isSome ∧ r.origin = r.destination)
  kind : r.kind ∈ ["fixed", "percentage"]
  amount : validAmount r.amount
  currency : airport r.currency

instance (r : RuleInput) : Decidable r.Valid :=
  decidable_of_iff
    ((trim r.name ≠ "" ∧ r.name.length ≤ 200) ∧ r.audience ∈ ["b2b", "b2c", "specific_agent"] ∧
      (r.audience = "specific_agent" ↔ r.agentId.isSome) ∧ r.airline.all Search.isCarrierCode ∧
      r.origin.isSome = r.destination.isSome ∧ (r.origin.all airport ∧ r.destination.all airport) ∧
      ¬ (r.origin.isSome ∧ r.origin = r.destination) ∧ r.kind ∈ ["fixed", "percentage"] ∧
      validAmount r.amount ∧ airport r.currency)
    ⟨fun ⟨h₁, h₂, h₃, h₄, h₅, h₆, h₇, h₈, h₉, h₁₀⟩ => ⟨h₁, h₂, h₃, h₄, h₅, h₆, h₇, h₈, h₉, h₁₀⟩,
      fun h => ⟨h.name, h.audience, h.agent, h.airline, h.ends, h.airports, h.distinct, h.kind,
        h.amount, h.currency⟩⟩

/-- `RuleInput::validate`. -/
def RuleInput.validate (r : RuleInput) : Except ApiError Unit :=
  ensure r.Valid ⟨.badRequest, "INVALID_MARKUP_RULE"⟩

/-- `RuleRecord`; `input` holds the columns of `RuleInput`. -/
structure RuleRecord where
  id : Uuid
  input : RuleInput
  active : Bool
  version : Nat
  deriving DecidableEq

/-- A row of `markup_rules`; `archived` says whether `archived_at` is set. -/
structure RuleRow where
  record : RuleRecord
  archived : Bool
  deriving DecidableEq

def RuleRow.id (r : RuleRow) : Uuid := r.record.id

/-- A row of `markup_rule_versions`. -/
structure RuleVersion where
  ruleId : Uuid
  version : Nat
  definition : RuleRecord
  changedBy : Option Uuid
  changedByUserId : Option Uuid
  deriving DecidableEq

/-- The tables the commands write. -/
structure Rulebook where
  rules : List RuleRow
  versions : List RuleVersion
  audit : List AuditEvent

/-! ## Constraints -/

/-- The columns of `markup_one_active_scope`. -/
structure Scope where
  audience : String
  agentId : Option Uuid
  airline : Option String
  origin : Option String
  destination : Option String
  deriving DecidableEq

def RuleInput.scope (r : RuleInput) : Scope :=
  ⟨r.audience, r.agentId, r.airline, r.origin, r.destination⟩

/-- The scopes of the active rows. -/
def activeScopes (rules : List RuleRow) : List Scope :=
  (rules.filter fun r => r.record.active).map fun r => r.record.input.scope

/-- `rule_error` on the unique index. -/
def scopeConflict : ApiError := ⟨.conflict, "ACTIVE_MARKUP_SCOPE_CONFLICT"⟩

/-- The rules a statement leaves, checked against `markup_one_active_scope`. -/
def Rulebook.write (db : Rulebook) (rules : List RuleRow) : Except ApiError Rulebook := do
  ensure (activeScopes rules).Nodup scopeConflict
  return { db with rules := rules }

/-- The primary key of `markup_rule_versions`. -/
def Rulebook.recorded (db : Rulebook) (id : Uuid) (version : Nat) : Prop :=
  ∃ v ∈ db.versions, v.ruleId = id ∧ v.version = version

instance (db : Rulebook) (id : Uuid) (version : Nat) : Decidable (db.recorded id version) :=
  inferInstanceAs (Decidable (∃ v ∈ db.versions, v.ruleId = id ∧ v.version = version))

/-! ## Commands -/

/-- Who gives a command; `canonical` says whether it comes from the dashboard of portal users. -/
structure Author where
  admin : Admin
  canonical : Bool

/-- The audit row of a command. -/
def Rulebook.logged (db : Rulebook) (who : Author) (action : String) (id : Uuid) : Rulebook :=
  { db with
    audit := db.audit ++ [⟨"admin", some who.admin.id.text, action, "markup_rule", id.text, .obj []⟩] }

/-- `record`. -/
def record (db : Rulebook) (who : Author) (row : RuleRecord) (action : String) :
    Except ApiError Rulebook := do
  ensure (¬ db.recorded row.id row.version) (.ofDb (.unique "markup_rule_versions_pkey"))
  let version : RuleVersion := {
    ruleId := row.id
    version := row.version
    definition := row
    changedBy := if who.canonical then none else some who.admin.id
    changedByUserId := if who.canonical then some who.admin.id else none }
  return Rulebook.logged { db with versions := db.versions ++ [version] } who action row.id

/-- `validate_agent`; `agents` is the number of active clients the query counts for the agent. -/
def validateAgent (who : Author) (agents : Uuid → Nat) (agentId : Option Uuid) :
    Except ApiError Unit :=
  ensure (who.canonical → ∀ id ∈ agentId, agents id = 1) ⟨.badRequest, "INVALID_MARKUP_AGENT"⟩

/-- What the commands take from their surroundings: the text of a `numeric` value. -/
structure Numeric where
  text : String → String

/-- The columns as they read back. -/
def Numeric.stored (n : Numeric) (r : RuleInput) : RuleInput := { r with amount := n.text r.amount }

/-- `create`; `id` is drawn by the command. -/
def create (n : Numeric) (db : Rulebook) (who : Author) (agents : Uuid → Nat) (id : Uuid)
    (input : RuleInput) : Except ApiError (RuleRecord × Rulebook) := do
  input.validate
  validateAgent who agents input.agentId
  ensure (∀ r ∈ db.rules, r.id ≠ id) (.ofDb (.unique "markup_rules_pkey"))
  let row : RuleRecord := ⟨id, n.stored input, false, 1⟩
  let db ← db.write (db.rules ++ [⟨row, false⟩])
  let db ← record db who row "markup.create"
  return (row, db)

/-- The row a command changes, at the version its author saw. -/
def Rulebook.current (db : Rulebook) (id : Uuid) (expectedVersion : Int) : Except ApiError RuleRow := do
  let row ← fetch (db.rules.find? fun r => r.id = id ∧ ¬ r.archived) ⟨.notFound, "NOT_FOUND"⟩
  ensure (row.record.version = expectedVersion) ⟨.conflict, "RULE_VERSION_CONFLICT"⟩
  return row

/-- Writes the row in the place of the one with its id, and records it. -/
def Rulebook.revise (db : Rulebook) (who : Author) (row : RuleRow) (action : String) :
    Except ApiError Rulebook := do
  ensure ((row.record.version : Int) ≤ bigintMax) (.ofDb .outOfRange)
  let db ← db.write (modify RuleRow.id row.id (fun _ => row) db.rules)
  record db who row.record action

/-- `update`. -/
def update (n : Numeric) (db : Rulebook) (who : Author) (agents : Uuid → Nat) (id : Uuid)
    (expectedVersion : Int) (rule : RuleInput) : Except ApiError (RuleRecord × Rulebook) := do
  rule.validate
  let current ← db.current id expectedVersion
  validateAgent who agents rule.agentId
  let row : RuleRecord := { current.record with
    input := n.stored rule
    version := current.record.version + 1 }
  let db ← db.revise who ⟨row, false⟩ "markup.update"
  return (row, db)

/-- `status`. -/
def status (db : Rulebook) (who : Author) (agents : Uuid → Nat) (id : Uuid) (expectedVersion : Int)
    (active : Bool) : Except ApiError (RuleRecord × Rulebook) := do
  let current ← db.current id expectedVersion
  validateAgent who agents (if active then current.record.input.agentId else none)
  let row : RuleRecord := { current.record with
    active := active
    version := current.record.version + 1 }
  let db ← db.revise who ⟨row, false⟩ (if active then "markup.activate" else "markup.deactivate")
  return (row, db)

/-- `remove`; `used` is the answer of its query for offers and prices with the rule. -/
def remove (db : Rulebook) (who : Author) (id : Uuid) (expectedVersion : Int) (used : Bool) :
    Except ApiError (String × Rulebook) := do
  who.admin.superAdmin
  let current ← db.current id expectedVersion
  if used then do
    let row : RuleRecord := { current.record with
      active := false
      version := current.record.version + 1 }
    let db ← db.revise who ⟨row, true⟩ "markup.archive"
    return ("archived", db)
  else
    return ("deleted", Rulebook.logged { db with rules := db.rules.filter fun r => r.id ≠ id }
      who "markup.delete" id)

end ShaponTravels.Markup
