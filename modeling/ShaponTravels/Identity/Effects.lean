import Mathlib.Data.List.Sort
import ShaponTravels.Identity.Directory

/-!
# Effects — the outbox of provider effects

`effects.rs` with migration 0036: an operation enqueues effects, a worker claims the head of a
user's queue under a lease and finishes it with what the provider answered.  A transaction reads
the clock once.
-/

namespace ShaponTravels.Identity

open Library

/-- The states the outbox has nothing left to do in. -/
def EffectState.terminal : EffectState → Bool
  | .confirmed | .superseded => true
  | _ => false

/-- The states a worker may claim to deliver from. -/
def EffectState.ready : EffectState → Bool
  | .pending | .retryable => true
  | _ => false

/-- The states whose outcome is still to be read. -/
def EffectState.unresolved : EffectState → Bool
  | .needsReconciliation | .reconciling _ => true
  | _ => false

def EffectState.lease? : EffectState → Option Lease
  | .dispatching l | .reconciling l => some l
  | _ => none

namespace Effects

/-! ## Enqueueing -/

/-- `INSERT INTO portal_identity_operations`. -/
def insertOperation (e : Effects) (o : Operation) : Except DbError Effects := do
  ensure (∀ o' ∈ e.operations, o'.id ≠ o.id) (.unique "portal_identity_operations_pkey")
  return { e with operations := e.operations ++ [o] }

/-- `INSERT INTO portal_identity_effects … FROM portal_users`. -/
def insertEffect (e : Effects) (now : Int) (operation id : Uuid) (kind : EffectKind) (u : User) :
    Except DbError Effects := do
  ensure (∀ r ∈ e.rows, r.id ≠ id) (.unique "portal_identity_effects_pkey")
  ensure (∀ r ∈ e.rows,
      ¬ (r.operationId = operation ∧ r.targetUserId = u.id ∧ r.kind = kind))
    (.unique "portal_identity_effects_operation_id_target_user_id_kind_key")
  let row : Effect := {
    id := id
    sequence := e.sequence
    operationId := operation
    targetUserId := u.id
    kind := kind
    authorizationVersion := u.authorizationVersion
    role := u.role
    status := u.status
    state := .pending
    fence := 0
    attempts := 0
    nextAttemptAt := now
    errorCode := none }
  return { e with rows := e.rows ++ [row], sequence := e.sequence + 1 }

/-- One effect to insert: its id, its kind and its user. -/
structure Order where
  id : Uuid
  kind : EffectKind
  user : User

/-- The effects of one operation, in order. -/
def enqueue (e : Effects) (now : Int) (operation : Uuid) (orders : List Order) :
    Except DbError Effects :=
  orders.foldlM (fun e o => e.insertEffect now operation o.id o.kind o.user) e

/-! ## Leases -/

/-- The state `refresh` gives an operation. -/
def stateOf (e : Effects) (operation : Uuid) : OperationState :=
  let rows := e.rows.filter fun r => r.operationId = operation
  if rows.any fun r => r.state.unresolved then .needsReconciliation
  else if rows.all fun r => r.state.terminal then .completed
  else .pendingEffects

/-- `refresh`. -/
def refresh (e : Effects) (operation : Uuid) : Effects :=
  { e with
    operations := modify Operation.id operation (fun o => { o with state := e.stateOf operation })
      e.operations }

/-- `UPDATE portal_identity_effects SET state = … WHERE id = $1`. -/
def setState (e : Effects) (id : Uuid) (state : EffectState) (errorCode : Option String) : Effects :=
  { e with
    rows := modify Effect.id id (fun r => { r with state := state, errorCode := errorCode }) e.rows }

/-- The outcome of an attempt that has none is set. -/
def record (e : Effects) (token : Uuid) (outcome : AttemptOutcome) : Effects :=
  { e with
    attempts := modify Attempt.claimToken token
      (fun a => if a.outcome = none then { a with outcome := some outcome } else a) e.attempts }

/-- The leases that ran out, oldest first. -/
def expired (e : Effects) (now : Int) : List (Effect × Lease) :=
  let leased := e.rows.filterMap fun r =>
    (r.state.lease?.filter fun l => l.leaseUntil ≤ now).map fun l => (r, l)
  (leased.insertionSort fun a b => a.2.leaseUntil < b.2.leaseUntil ∨
    a.2.leaseUntil = b.2.leaseUntil ∧ a.1.sequence ≤ b.1.sequence).take 25

/-- The body of the loop of `recover_expired`. -/
def recoverOne (e : Effects) (x : Effect × Lease) : Effects :=
  ((e.setState x.1.id .needsReconciliation (some "IDENTITY_PROVIDER_OUTCOME_UNKNOWN")).record
    x.2.token .unknown).refresh x.1.operationId

/-- `recover_expired`. -/
def recoverExpired (e : Effects) (now : Int) : Effects := (e.expired now).foldl recoverOne e

end Effects

/-! ## Claims -/

/-- `effects::Delivery`. -/
structure Delivery where
  effectId : Uuid
  operationId : Uuid
  targetUserId : Uuid
  clerkUserId : String
  kind : EffectKind
  role : Role
  status : Status
  authorizationVersion : Int
  firstName : Option String
  lastName : Option String
  deriving DecidableEq

/-- `effects::Claim`. -/
structure EffectClaim where
  delivery : Delivery
  token : Uuid
  fence : Int
  worker : String
  reconcile : Bool
  deriving DecidableEq

/-- `worker_id`. -/
def workerId (worker : String) : Except ApiError Unit :=
  ensure (worker ≠ "" ∧ worker.utf8ByteSize ≤ 128 ∧
    worker.toList.all fun c => c.isAlphanum || c = '_' || c = '.' || c = ':' || c = '-')
    ⟨.badRequest, "IDENTITY_INVALID_WORKER"⟩

namespace Effects

/-- `delivery`. -/
def delivery (e : Effects) (d : Directory) (r : Effect) : Except ApiError Delivery := do
  let u ← fetch (d.user r.targetUserId) (.ofDb .noRow)
  let names := e.names.find? fun n => n.effectId = r.id
  return {
    effectId := r.id
    operationId := r.operationId
    targetUserId := r.targetUserId
    clerkUserId := u.subject
    kind := r.kind
    role := r.role
    status := r.status
    authorizationVersion := r.authorizationVersion
    firstName := names.map NameEffect.firstName
    lastName := names.map NameEffect.lastName }

/-- `take`. -/
def takeEffect (e : Effects) (d : Directory) (now : Int) (r : Effect) (worker : String)
    (reconcile : Bool) (token : Uuid) : Except ApiError (Effects × EffectClaim) := do
  let lease : Lease := ⟨token, now + 30000000⟩
  let fence := r.fence + 1
  ensure (∀ a ∈ e.attempts, a.claimToken ≠ token)
    (.ofDb (.unique "portal_identity_effect_attempts_pkey"))
  let attempt : Attempt :=
    ⟨token, r.id, fence, if reconcile then .reconcile else .dispatch, none⟩
  let e := { e with
    rows := modify Effect.id r.id (fun r => { r with
      state := if reconcile then .reconciling lease else .dispatching lease
      fence := fence
      attempts := if reconcile then r.attempts else r.attempts + 1
      errorCode := none }) e.rows
    attempts := e.attempts ++ [attempt] }
  let delivery ← e.delivery d r
  return (e, ⟨delivery, token, fence, worker, reconcile⟩)

/-- The effect `claim` selects: one that is due and has no unresolved effect of its user before
it.  The rows are in the order of their sequence. -/
def next (e : Effects) (now : Int) : Option Effect :=
  e.rows.find? fun r => r.state.ready ∧ r.nextAttemptAt ≤ now ∧ r.attempts < 5 ∧
    ∀ prior ∈ e.rows, prior.targetUserId = r.targetUserId → prior.sequence < r.sequence →
      prior.state.terminal

/-- The loop of `claim`. -/
def claimLoop (d : Directory) (now : Int) (worker : String) (token : Uuid) :
    Nat → Effects → Except ApiError (Effects × Option EffectClaim)
  | 0, e => return (e, none)
  | n + 1, e =>
    match e.next now with
    | none => return (e, none)
    | some r => do
      let work ← e.delivery d r
      let current ← fetch (d.user work.targetUserId) (.ofDb .noRow)
      if work.kind = .mirrorMetadata ∧ current.authorizationVersion ≠ work.authorizationVersion then
        claimLoop d now worker token n ((e.setState r.id .superseded none).refresh work.operationId)
      else do
        let (e, claim) ← e.takeEffect d now r worker false token
        return (e, some claim)

/-- `claim`. -/
def claim (e : Effects) (d : Directory) (now : Int) (worker : String) (token : Uuid) :
    Except ApiError (Effects × Option EffectClaim) := do
  workerId worker
  claimLoop d now worker token 25 (e.recoverExpired now)

/-- `reconcile`, up to the read at the provider. -/
def reconcile (e : Effects) (d : Directory) (now : Int) (worker : String) (id : Uuid)
    (expectedFence : Int) (token : Uuid) : Except ApiError (Effects × EffectClaim) := do
  workerId worker
  let e := e.recoverExpired now
  let r ← fetch (lookup Effect.id id e.rows) ⟨.notFound, "IDENTITY_EFFECT_NOT_FOUND"⟩
  ensure (r.state = .needsReconciliation ∧ r.fence = expectedFence)
    (conflict "IDENTITY_EFFECT_CLAIM_STALE")
  e.takeEffect d now r worker true token

/-- The outcome a result is recorded with: a read never proves that nothing was sent. -/
def outcomeOf (claim : EffectClaim) (result : AttemptOutcome) : AttemptOutcome :=
  if claim.reconcile ∧ result = .notSent then .unknown else result

/-- The state and the error a result leaves an effect in. -/
def resultState (attempts : Nat) : AttemptOutcome → EffectState × Option String
  | .confirmed => (.confirmed, none)
  | .notSent =>
    if attempts < 5 then (.retryable, some "IDENTITY_PROVIDER_NOT_SENT")
    else (.needsReconciliation, some "IDENTITY_PROVIDER_RETRY_LIMIT")
  | .unknown => (.needsReconciliation, some "IDENTITY_PROVIDER_OUTCOME_UNKNOWN")

/-- The claim is the current one of the row and its lease has not run out. -/
def holds (claim : EffectClaim) (r : Effect) (now : Int) : Bool :=
  r.fence = claim.fence &&
    match r.state with
    | .dispatching l => !claim.reconcile && l.token = claim.token && now < l.leaseUntil
    | .reconciling l => claim.reconcile && l.token = claim.token && now < l.leaseUntil
    | _ => false

/-- `finish`. -/
def finish (e : Effects) (now : Int) (claim : EffectClaim) (result : AttemptOutcome) :
    Except ApiError Effects := do
  let outcome := outcomeOf claim result
  let r ← fetch (lookup Effect.id claim.delivery.effectId e.rows) (.ofDb .noRow)
  let attempt ← fetch (e.attempts.find? fun a => a.claimToken = claim.token ∧
    a.parentId = claim.delivery.effectId ∧ a.fence = claim.fence) (.ofDb .noRow)
  if r.fence = claim.fence ∧ attempt.outcome = some outcome then return e
  else do
    ensure (holds claim r now) (conflict "IDENTITY_EFFECT_CLAIM_STALE")
    let (state, errorCode) := resultState r.attempts outcome
    let rows := modify Effect.id r.id (fun r => { r with
      state := state
      errorCode := errorCode
      nextAttemptAt := now + 30000000 }) e.rows
    return (({ e with rows := rows }).record claim.token outcome).refresh
      claim.delivery.operationId

end Effects

end ShaponTravels.Identity
