import ShaponTravels.Errors
import ShaponTravels.Library.Outcome
import ShaponTravels.Library.Table
import ShaponTravels.Library.Transition
import ShaponTravels.Pricing.Rules
import ShaponTravels.Pricing.Tier
import ShaponTravels.Search.Controls

/-!
# Clients — API clients, their credentials and their tokens

`auth.rs`, `api_management.rs`, the tier of a client in `tier.rs` and `revoke_clients` of
`identity/operations.rs`, with migrations 0002, 0021, 0023 and 0024.  Whether a secret matches its
hash is a function of the desk; audit rows and rate limits are left out.
-/

namespace ShaponTravels.Access

open Library
open Pricing (Audience Tier)
open Search.Controls (Admin)

/-! ## Tables -/

/-- A row of `api_clients`. -/
structure ApiClient where
  id : Uuid
  name : String
  audience : Audience
  agentId : Option Uuid
  active : Bool
  permissions : List String
  rateLimitPerMinute : Int
  tier : Tier
  externalUserId : Option String
  apiManagementEnabled : Bool
  managementVersion : Int
  deriving DecidableEq

/-- A row of `client_credentials`. -/
structure ClientCredential where
  id : Uuid
  clientId : Uuid
  secretHash : String
  active : Bool
  deriving DecidableEq

/-- A row of `machine_tokens`; times are in microseconds. -/
structure MachineToken where
  tokenHash : Digest
  clientId : Uuid
  credentialId : Uuid
  createdAt : Int
  expiresAt : Int
  deriving DecidableEq

/-- A row of `portal_prebooking_sessions`. -/
structure PrebookingSession where
  tokenHash : Digest
  clientId : Uuid
  issuerId : Uuid
  staffPricing : Bool
  expiresAt : Int
  deriving DecidableEq

/-- A row of `portal_staff_clients`. -/
structure StaffClient where
  externalUserId : String
  clientId : Uuid
  deriving DecidableEq

/-- The shares of `b2b_tier_policy`. -/
structure TierPolicy where
  basic : Int
  professional : Int
  enterprise : Int
  deriving DecidableEq

/-- `TierPolicy::share`. -/
def TierPolicy.share (p : TierPolicy) : Tier → Int
  | .basic => p.basic
  | .professional => p.professional
  | .enterprise => p.enterprise

structure Db where
  clients : List ApiClient
  credentials : List ClientCredential
  tokens : List MachineToken
  sessions : List PrebookingSession
  staffClients : List StaffClient
  policy : TierPolicy
  deriving DecidableEq

def Db.client (db : Db) (id : Uuid) : Option ApiClient := lookup ApiClient.id id db.clients

/-- The client is one of `portal_staff_clients`. -/
def Db.isStaff (db : Db) (id : Uuid) : Bool := db.staffClients.any fun s => s.clientId = id

/-- The condition every statement puts on a client that holds or is given a token: it is active, and
a managed one has API access and the enterprise tier. -/
def ApiClient.admitted (c : ApiClient) : Bool :=
  c.active && (c.externalUserId.isNone || (c.apiManagementEnabled && c.tier = .enterprise))

def notFound : ApiError := ⟨.notFound, "NOT_FOUND"⟩

def unauthorized : ApiError := ⟨.unauthorized, "INVALID_CREDENTIALS"⟩

def invalid : ApiError := ⟨.badRequest, "INVALID_REQUEST"⟩

/-- The permissions a client can have. -/
def allowedPermissions : List String :=
  ["search:read", "booking", "cancellation", "ticketing", "wallet:read", "ticket-management:read",
    "ticket-management:write"]

/-! ## Writing a client -/

/-- The checks of `api_clients` that name more than one column. -/
def ApiClient.checked (c : ApiClient) : Except DbError Unit := do
  ensure (c.audience = .b2b ∨ c.agentId = none) (.violated "api_clients_check")
  ensure (c.externalUserId = none ∨ c.audience = .b2b) (.violated "managed_client_b2b")

/-- `enforce_managed_client_access`: the row an update stores. -/
def enforceManagedClientAccess (old new : ApiClient) : Except DbError ApiClient := do
  ensure (old.externalUserId = none ∨ new.externalUserId = old.externalUserId)
    (.raised "external client identity is immutable")
  let version ← bigint (old.managementVersion + 1)
  return { new with
    apiManagementEnabled :=
      new.apiManagementEnabled && (new.externalUserId.isNone || new.tier = .enterprise)
    managementVersion := version }

/-- What the triggers of an update leave of the tokens. -/
def Db.remainingTokens (db : Db) (row : ApiClient) : List MachineToken :=
  if row.externalUserId.isSome ∧
      ¬ (row.active ∧ row.apiManagementEnabled ∧ row.tier = .enterprise) then
    db.tokens.filter fun t => t.clientId ≠ row.id
  else db.tokens

/-- What `revoke_portal_prebooking_sessions` leaves of the sessions. -/
def Db.remainingSessions (db : Db) (row : ApiClient) : List PrebookingSession :=
  if ¬ row.active ∨ "search:read" ∉ row.permissions then
    db.sessions.filter fun s => s.clientId ≠ row.id
  else db.sessions

/-- `UPDATE api_clients … WHERE id = old.id`, with its triggers. -/
def Db.updateRow (db : Db) (old new : ApiClient) : Except DbError Db := do
  let row ← enforceManagedClientAccess old new
  row.checked
  return { db with
    clients := modify ApiClient.id old.id (fun _ => row) db.clients
    tokens := db.remainingTokens row
    sessions := db.remainingSessions row }

/-- `INSERT INTO api_clients`. -/
def Db.insertClient (db : Db) (c : ApiClient) : Except DbError Db := do
  ensure (∀ c' ∈ db.clients, c'.id ≠ c.id) (.unique "api_clients_pkey")
  ensure (c.externalUserId = none ∨ ∀ c' ∈ db.clients, c'.externalUserId ≠ c.externalUserId)
    (.unique "api_clients_external_user_id_key")
  c.checked
  return { db with clients := db.clients ++ [c] }

/-- `INSERT INTO client_credentials`, active as every new one. -/
def Db.insertCredential (db : Db) (id client : Uuid) (hash : String) : Except DbError Db := do
  ensure (∀ k ∈ db.credentials, k.id ≠ id) (.unique "client_credentials_pkey")
  ensure (∀ k ∈ db.credentials, ¬ (k.clientId = client ∧ k.active))
    (.unique "client_one_active_credential_idx")
  ensure (∃ c ∈ db.clients, c.id = client) (.violated "client_credentials_client_id_fkey")
  return { db with credentials := db.credentials ++ [⟨id, client, hash, true⟩] }

/-- `UPDATE client_credentials SET active=FALSE WHERE client_id = ANY($1)`. -/
def Db.deactivate (db : Db) (ids : List Uuid) : Db :=
  { db with
    credentials := db.credentials.map fun k => if k.clientId ∈ ids then { k with active := false } else k }

/-- `DELETE FROM machine_tokens WHERE client_id = ANY($1)`. -/
def Db.deleteTokens (db : Db) (ids : List Uuid) : Db :=
  { db with tokens := db.tokens.filter fun t => t.clientId ∉ ids }

/-- `DELETE FROM portal_prebooking_sessions WHERE client_id = ANY($1)`. -/
def Db.deleteSessions (db : Db) (ids : List Uuid) : Db :=
  { db with sessions := db.sessions.filter fun s => s.clientId ∉ ids }

/-! ## Clients of administrators -/

/-- `ClientInput`. -/
structure ClientInput where
  name : String
  audience : Audience
  agentId : Option Uuid
  permissions : List String
  active : Bool
  rateLimitPerMinute : Int
  deriving DecidableEq

/-- `ClientInput::validate`. -/
def ClientInput.validate (i : ClientInput) : Except ApiError Unit :=
  ensure (trim i.name ≠ "" ∧ i.name.utf8ByteSize ≤ 200 ∧ i.audience ∈ [Audience.b2b, Audience.b2c] ∧
    (i.audience = .b2c → i.agentId = none) ∧ 1 ≤ i.rateLimitPerMinute ∧
    i.rateLimitPerMinute ≤ 10000 ∧ ∀ p ∈ i.permissions, p ∈ allowedPermissions) invalid

/-- `create_client`. -/
def createClient (db : Db) (input : ClientInput) (id credential : Uuid) (hash : String) :
    Except ApiError Db := do
  input.validate
  let row : ApiClient := {
    id := id
    name := input.name
    audience := input.audience
    agentId := input.agentId
    active := input.active
    permissions := input.permissions
    rateLimitPerMinute := input.rateLimitPerMinute
    tier := .basic
    externalUserId := none
    apiManagementEnabled := false
    managementVersion := 1 }
  let db ← (db.insertClient row).mapError .ofDb
  (db.insertCredential credential id hash).mapError .ofDb

/-- `update_client`. -/
def updateClient (db : Db) (id : Uuid) (input : ClientInput) : Except ApiError Db := do
  input.validate
  let old ← fetch (db.client id) notFound
  let db ← (db.updateRow old { old with
    name := input.name
    audience := input.audience
    agentId := input.agentId
    permissions := input.permissions
    active := input.active
    rateLimitPerMinute := input.rateLimitPerMinute }).mapError .ofDb
  return if input.active then db else db.deleteTokens [id]

/-- `reset_secret`. -/
def resetSecret (db : Db) (id credential : Uuid) (hash : String) : Except ApiError Db := do
  let _ ← fetch (db.client id) notFound
  ((db.deactivate [id]).insertCredential credential id hash).mapError .ofDb

/-- `revoke_secret`. -/
def revokeSecret (db : Db) (id : Uuid) : Except ApiError Db := do
  let _ ← fetch (db.client id) notFound
  return db.deactivate [id]

/-! ## Managed clients -/

/-- `api_management::create`. -/
def create (db : Db) (admin : Admin) (externalUserId name : String) (id : Uuid) :
    Except ApiError Db := do
  admin.superAdmin
  ensure (startsWith externalUserId "user_" ∧ externalUserId.utf8ByteSize ≤ 128 ∧
    externalUserId.toList.all (fun c => c.isAlphanum || c = '_') ∧ trim name ≠ "" ∧
    name.utf8ByteSize ≤ 200) ⟨.badRequest, "INVALID_CLIENT"⟩
  ensure (∀ c ∈ db.clients, c.externalUserId ≠ some externalUserId) ⟨.conflict, "USER_ALREADY_LINKED"⟩
  let row : ApiClient := {
    id := id
    name := name
    audience := .b2b
    agentId := none
    active := true
    permissions := ["search:read"]
    rateLimitPerMinute := 60
    tier := .basic
    externalUserId := some externalUserId
    apiManagementEnabled := false
    managementVersion := 1 }
  (db.insertClient row).mapError .ofDb

/-- `UpdateInput`. -/
structure UpdateInput where
  expectedVersion : Int
  tier : Tier
  active : Bool
  apiManagementEnabled : Bool
  permissions : List String
  rateLimitPerMinute : Int
  deriving DecidableEq

/-- `api_management::update`. -/
def update (db : Db) (admin : Admin) (id : Uuid) (input : UpdateInput) : Except ApiError Db := do
  ensure (1 ≤ input.rateLimitPerMinute ∧ input.rateLimitPerMinute ≤ 10000 ∧
    (∀ p ∈ input.permissions, p ∈ allowedPermissions) ∧
    ¬ (input.apiManagementEnabled ∧ input.tier ≠ .enterprise)) ⟨.badRequest, "INVALID_API_ACCESS"⟩
  let old ← fetch ((db.client id).filter fun c => c.externalUserId.isSome) notFound
  ensure (old.managementVersion = input.expectedVersion) ⟨.conflict, "CLIENT_VERSION_CONFLICT"⟩
  if old.tier ≠ input.tier ∨ old.apiManagementEnabled ≠ input.apiManagementEnabled then
    admin.superAdmin
  (db.updateRow old { old with
    tier := input.tier
    active := input.active
    apiManagementEnabled := input.apiManagementEnabled
    permissions := input.permissions
    rateLimitPerMinute := input.rateLimitPerMinute }).mapError .ofDb

/-- `tier::set_tier`. -/
def setTier (db : Db) (admin : Admin) (id : Uuid) (tier : Tier) : Except ApiError Db := do
  admin.superAdmin
  let old ← fetch ((db.client id).filter fun c => c.audience = .b2b) notFound
  (db.updateRow old { old with tier := tier }).mapError .ofDb

/-! ## Revocation by identity -/

/-- The update of one row in `revoke_clients`. -/
def revokeRow (db : Db) (id : Uuid) : Except DbError Db :=
  match db.client id with
  | none => return db
  | some old => db.updateRow old { old with active := false, apiManagementEnabled := false }

/-- `revoke_clients`, for the clients its first statement selects. -/
def revokeClients (db : Db) (ids : List Uuid) : Except DbError Db := do
  let db ← ids.foldlM revokeRow db
  return ((db.deactivate ids).deleteTokens ids).deleteSessions ids

/-! ## Sessions of the portal -/

/-- The staff client of a subject, made at its first use. -/
def staffClient (db : Db) (subject : String) (fresh : Uuid) : Except DbError (Uuid × Db) :=
  match db.staffClients.find? fun s => s.externalUserId = subject with
  | some s => return (s.clientId, db)
  | none => do
    let row : ApiClient := {
      id := fresh
      name := "Portal staff fare review"
      audience := .b2b
      agentId := none
      active := true
      permissions := ["search:read"]
      rateLimitPerMinute := 60
      tier := .basic
      externalUserId := none
      apiManagementEnabled := false
      managementVersion := 1 }
    let db ← db.insertClient row
    ensure (∀ s ∈ db.staffClients, s.clientId ≠ fresh) (.unique "portal_staff_clients_client_id_key")
    return (fresh, { db with staffClients := db.staffClients ++ [⟨subject, fresh⟩] })

/-- The client may be searched with. -/
def ApiClient.searches (c : ApiClient) : Bool := c.active && "search:read" ∈ c.permissions

/-- The client a session is for: the one of the staff, or the one the user is linked with. -/
def sessionClient (db : Db) (subject : String) (staffPricing : Bool) (fresh : Uuid) :
    Except ApiError (Uuid × Db) :=
  if staffPricing then do
    let (id, db) ← (staffClient db subject fresh).mapError .ofDb
    let c ← fetch ((db.client id).filter ApiClient.searches) ⟨.notFound, "PORTAL_CLIENT_UNAVAILABLE"⟩
    return (c.id, db)
  else do
    let c ← fetch (db.clients.find? fun c => c.externalUserId = some subject ∧ c.audience = .b2b ∧
      c.searches ∧ ¬ db.isStaff c.id) ⟨.notFound, "PORTAL_CLIENT_UNAVAILABLE"⟩
    return (c.id, db)

/-- `portal::session`. -/
def session (db : Db) (now : Int) (admin : Admin) (subject : String) (staffPricing : Bool)
    (fresh : Uuid) (hash : Digest) : Except ApiError Db := do
  ensure (subject.utf8ByteSize ≤ 128 ∧ startsWith subject "user_") ⟨.badRequest, "INVALID_CLIENT"⟩
  ensure (admin.role = "super_admin") unauthorized
  let (client, db) ← sessionClient db subject staffPricing fresh
  ensure (∀ s ∈ db.sessions, s.tokenHash ≠ hash) (.ofDb (.unique "portal_prebooking_sessions_pkey"))
  return { db with
    sessions := db.sessions ++ [⟨hash, client, admin.id, staffPricing, now + 300000000⟩] }

/-! ## Tokens -/

/-- What the code takes from its platform: the digest of a token and the check of a secret. -/
structure Desk where
  digest : String → Digest
  verify : String → String → Bool

/-- A request for a token whose secret was checked: its client and the credential read for it. -/
structure Login where
  clientId : Uuid
  credentialId : Uuid
  deriving DecidableEq

/-- The first part of `token`: the active credential is read and the secret checked. -/
def login (desk : Desk) (db : Db) (client : Uuid) (secret : String) : Except ApiError Login := do
  ensure (secret ≠ "" ∧ secret.utf8ByteSize ≤ 256) unauthorized
  let c ← fetch ((db.client client).filter fun c => c.admitted && !db.isStaff c.id) unauthorized
  let k ← fetch (db.credentials.find? fun k => k.clientId = c.id ∧ k.active) unauthorized
  ensure (desk.verify secret k.secretHash) unauthorized
  return ⟨client, k.id⟩

/-- The second part of `token`: the transaction that stores the token. -/
def token (desk : Desk) (db : Db) (now : Int) (l : Login) (accessToken : String) :
    Except ApiError Db := do
  let k ← fetch ((lookup ClientCredential.id l.credentialId db.credentials).filter
    ClientCredential.active) unauthorized
  let _ ← fetch ((db.client k.clientId).filter fun c => c.admitted && !db.isStaff c.id) unauthorized
  ensure (∀ t ∈ db.tokens, t.tokenHash ≠ desk.digest accessToken)
    (.ofDb (.unique "machine_tokens_pkey"))
  return { db with
    tokens := db.tokens ++
      [⟨desk.digest accessToken, l.clientId, l.credentialId, now, now + 1800000000⟩] }

/-- `Machine`, with the limit its requests are counted against. -/
structure Machine where
  clientId : Uuid
  audience : Audience
  agentId : Option Uuid
  permissions : List String
  rateLimitPerMinute : Int
  tier : Option Tier
  commissionSharePercent : Int
  deriving DecidableEq

/-- `Machine::from_request_parts` for the tokens of clients. -/
def authenticate (desk : Desk) (db : Db) (now : Int) (accessToken : String) :
    Except ApiError Machine := do
  ensure (startsWith accessToken "stm_" ∧ accessToken.utf8ByteSize = 47) unauthorized
  let t ← fetch ((lookup MachineToken.tokenHash (desk.digest accessToken) db.tokens).filter
    fun t => now < t.expiresAt) unauthorized
  let c ← fetch ((db.client t.clientId).filter fun c => c.admitted && !db.isStaff c.id) unauthorized
  let _ ← fetch ((lookup ClientCredential.id t.credentialId db.credentials).filter
    fun k => k.clientId = c.id && k.active) unauthorized
  return {
    clientId := c.id
    audience := c.audience
    agentId := if c.audience = .b2b then some (c.agentId.getD c.id) else c.agentId
    permissions := c.permissions
    rateLimitPerMinute := c.rateLimitPerMinute
    tier := if c.audience = .b2b then some c.tier else none
    commissionSharePercent := if c.audience = .b2c then 0 else db.policy.share c.tier }

/-! ## Steps -/

/-- The database and the requests for tokens between their two transactions. -/
structure System where
  db : Db
  logins : List Login
  deriving DecidableEq

inductive Event where
  | createClient (input : ClientInput) (id credential : Uuid) (hash : String)
  | updateClient (id : Uuid) (input : ClientInput)
  | resetSecret (id credential : Uuid) (hash : String)
  | revokeSecret (id : Uuid)
  | create (admin : Admin) (externalUserId name : String) (id : Uuid)
  | update (admin : Admin) (id : Uuid) (input : UpdateInput)
  | setTier (admin : Admin) (id : Uuid) (tier : Tier)
  /-- an identity operation revokes the clients of its subjects -/
  | revokeClients (ids : List Uuid)
  | session (now : Int) (admin : Admin) (subject : String) (staffPricing : Bool) (fresh : Uuid)
      (hash : Digest)
  | login (client : Uuid) (secret : String)
  | token (now : Int) (l : Login) (accessToken : String)

/-- The writes of an event, a transaction each; one that is refused changes nothing and is no step. -/
def Db.step (desk : Desk) (db : Db) : Event → Except ApiError Db
  | .createClient input id credential hash => Access.createClient db input id credential hash
  | .updateClient id input => Access.updateClient db id input
  | .resetSecret id credential hash => Access.resetSecret db id credential hash
  | .revokeSecret id => Access.revokeSecret db id
  | .create admin externalUserId name id => Access.create db admin externalUserId name id
  | .update admin id input => Access.update db admin id input
  | .setTier admin id tier => Access.setTier db admin id tier
  | .revokeClients ids => (Access.revokeClients db ids).mapError .ofDb
  | .session now admin subject staffPricing fresh hash =>
    Access.session db now admin subject staffPricing fresh hash
  | .login _ _ => .ok db
  | .token now l accessToken => Access.token desk db now l accessToken

/-- The requests between their transactions: one is opened by a login and used once. -/
def System.requests (desk : Desk) (s : System) : Event → Except ApiError (List Login)
  | .login client secret => do
    let l ← Access.login desk s.db client secret
    return s.logins ++ [l]
  | .token _ l _ => do
    ensure (l ∈ s.logins) unauthorized
    return s.logins.erase l
  | _ => .ok s.logins

def System.step (desk : Desk) (s : System) (e : Event) : Except ApiError System := do
  let logins ← s.requests desk e
  let db ← s.db.step desk e
  return ⟨db, logins⟩

/-- The system before its first client. -/
def System.start (policy : TierPolicy) : System := ⟨⟨[], [], [], [], [], policy⟩, []⟩

def machine (desk : Desk) : Library.Machine System Event where
  init s := ∃ policy, s = .start policy
  step s e s' := s.step desk e = .ok s'

end ShaponTravels.Access
