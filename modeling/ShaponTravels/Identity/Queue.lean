import Mathlib.Logic.Relation
import ShaponTravels.Identity.Lanes

/-!
# Queue — what the outbox of effects keeps

The effects of one user form a queue: finished ones, at most one that is worked on, and pending
ones.  `Move` lists what a transaction does to the outbox short of finishing a claim; each move and
each finish keeps `Sound`, and `Extends` says what no transaction ever takes back.
-/

namespace ShaponTravels.Identity

open Library
open Library.Fenced (Phase Agrees)

/-- What the state of an effect says about its attempts. -/
def EffectState.phase : EffectState → Phase Uuid
  | .pending | .retryable | .superseded => .idle
  | .dispatching l => .writing l.token
  | .reconciling l => .reading l.token
  | .needsReconciliation | .confirmed => .closed

/-- The columns of an effect that no update writes. -/
def Effect.fixed (r : Effect) : Effect :=
  { r with state := .pending, fence := 0, attempts := 0, nextAttemptAt := 0, errorCode := none }

theorem Effect.of_fixed {r r' : Effect} (h : r.fixed = r'.fixed) :
    r.id = r'.id ∧ r.sequence = r'.sequence ∧ r.operationId = r'.operationId ∧
      r.targetUserId = r'.targetUserId ∧ r.kind = r'.kind ∧
      r.authorizationVersion = r'.authorizationVersion ∧ r.role = r'.role ∧ r.status = r'.status := by
  simp only [Effect.fixed, Effect.mk.injEq] at h
  tauto

namespace Effects

/-- The keys, the logs and the order of the outbox. -/
structure Core (e : Effects) : Prop where
  lanes : Lanes Effect.id (fun r => r.state.phase) Effect.attempts e.rows e.attempts
  order : e.rows.Pairwise fun a b => a.sequence < b.sequence
  below : ∀ r ∈ e.rows, r.sequence < e.sequence
  queue : ∀ a ∈ e.rows, ∀ b ∈ e.rows, a.targetUserId = b.targetUserId → a.sequence < b.sequence →
    a.state.terminal ∨ b.state = .pending
  untried : ∀ r ∈ e.rows, r.state = .pending → ∀ a ∈ e.attempts, a.parentId ≠ r.id
  operationIds : KeyUnique Operation.id e.operations
  known : ∀ r ∈ e.rows, ∃ o ∈ e.operations, o.id = r.operationId

/-- The state of an operation is the one its effects stand for. -/
def Settled (e : Effects) (operation : Uuid) : Prop :=
  ∀ o ∈ e.operations, o.id = operation → o.state = e.stateOf operation

/-- What every transaction keeps of the outbox. -/
structure Sound (e : Effects) : Prop extends Core e where
  settled : ∀ id, e.Settled id

/-- An effect that may be worked on: it is not finished, and all before it in its queue are. -/
structure Head (e : Effects) (r : Effect) : Prop where
  mem : r ∈ e.rows
  live : ¬ r.state.terminal
  prior : ∀ a ∈ e.rows, a.targetUserId = r.targetUserId → a.sequence < r.sequence → a.state.terminal

variable {e e' : Effects} {r : Effect}

theorem sound_empty : Sound ⟨[], [], [], [], 0⟩ where
  lanes := .empty
  order := .nil
  below := by simp
  queue := by simp
  untried := by simp
  operationIds := .nil
  known := by simp
  settled := by simp [Settled]

/-- An effect that a worker has touched and not finished is at the head of its queue. -/
theorem Core.head (h : e.Core) (hr : r ∈ e.rows) (hlive : ¬ r.state.terminal)
    (hpending : r.state ≠ .pending) : e.Head r := by
  refine ⟨hr, hlive, ?_⟩
  intro a ha huser hseq
  rcases h.queue a ha r hr huser hseq with hterminal | hp
  · exact hterminal
  · exact absurd hp hpending

/-- The effect a worker claims is at the head of its queue. -/
theorem head_of_next {now : Int} (h : e.next now = some r) :
    e.Head r ∧ r.state.ready ∧ r.attempts < 5 := by
  have hfound := List.find?_some h
  simp only [decide_eq_true_eq] at hfound
  obtain ⟨hready, -, hlt, hprior⟩ := hfound
  refine ⟨⟨List.mem_of_find?_eq_some h, ?_, hprior⟩, hready, hlt⟩
  intro hterminal
  cases hs : r.state <;> rw [hs] at hready hterminal <;> simp_all [EffectState.ready, EffectState.terminal]

/-! ## The states of operations -/

theorem stateOf_congr {rows : List Effect} {operation : Uuid}
    (h : (rows.filter fun r => r.operationId = operation).map
        (fun r => (r.state.unresolved, r.state.terminal)) =
      (e.rows.filter fun r => r.operationId = operation).map
        (fun r => (r.state.unresolved, r.state.terminal))) :
    stateOf { e with rows := rows } operation = e.stateOf operation := by
  have hany : ∀ rows : List Effect, (rows.any fun r => r.state.unresolved) =
      (rows.map fun r => (r.state.unresolved, r.state.terminal)).any Prod.fst := fun rows => by
    rw [List.any_map]; rfl
  have hall : ∀ rows : List Effect, (rows.all fun r => r.state.terminal) =
      (rows.map fun r => (r.state.unresolved, r.state.terminal)).all Prod.snd := fun rows => by
    rw [List.all_map]; rfl
  simp only [stateOf, hany, hall, h]

/-- A rewrite of one effect shows in the state of its own operation only, and there only when it
resolves or finishes the effect. -/
theorem stateOf_modify {id : Uuid} {f : Effect → Effect} {operation : Uuid}
    (hop : ∀ r, (f r).operationId = r.operationId)
    (hsame : ∀ r ∈ e.rows, r.id = id → r.operationId = operation →
      (f r).state.unresolved = r.state.unresolved ∧ (f r).state.terminal = r.state.terminal) :
    stateOf { e with rows := Library.modify Effect.id id f e.rows } operation =
      e.stateOf operation := by
  apply stateOf_congr
  have hfilter : (Library.modify Effect.id id f e.rows).filter (fun r => r.operationId = operation) =
      (e.rows.filter fun r => r.operationId = operation).map
        (fun r => if r.id = id then f r else r) := by
    rw [Library.modify, List.filter_map]
    congr 1
    apply List.filter_congr
    intro r _
    simp only [Function.comp]
    split
    · rw [hop]
    · rfl
  rw [hfilter, List.map_map]
  apply List.map_congr_left
  intro r hr
  obtain ⟨hmem, heq⟩ := List.mem_filter.mp hr
  simp only [Function.comp]
  split
  · rename_i hid
    obtain ⟨hu, ht⟩ := hsame r hmem hid (by simpa using heq)
    rw [hu, ht]
  · rfl

@[simp] theorem refresh_rows (id : Uuid) : (e.refresh id).rows = e.rows := rfl
@[simp] theorem refresh_attempts (id : Uuid) : (e.refresh id).attempts = e.attempts := rfl
@[simp] theorem refresh_sequence (id : Uuid) : (e.refresh id).sequence = e.sequence := rfl
@[simp] theorem refresh_names (id : Uuid) : (e.refresh id).names = e.names := rfl

/-- After a refresh the operation is settled, and so is every one that was. -/
theorem settled_refresh {id operation : Uuid} (h : operation ≠ id → e.Settled operation) :
    (e.refresh id).Settled operation := by
  intro o ho heq
  rcases modify_cases ho with ⟨hmem, hne⟩ | ⟨o', -, hid, rfl⟩
  · exact h (fun hid => hne (heq.trans hid)) o hmem heq
  · show e.stateOf id = e.stateOf operation
    rw [← hid, show o'.id = operation from heq]

theorem Core.refresh (h : e.Core) (id : Uuid) : (e.refresh id).Core where
  lanes := h.lanes
  order := h.order
  below := h.below
  queue := h.queue
  untried := h.untried
  operationIds := h.operationIds.modify fun _ => rfl
  known r hr := by
    obtain ⟨o, ho, hid⟩ := h.known r hr
    refine ⟨_, mem_modify.mpr ⟨o, ho, rfl⟩, ?_⟩
    split <;> exact hid

/-! ## Rewriting one effect -/

/-- The effect at the head of a queue can be rewritten: the queue keeps its shape. -/
theorem Core.rewrite (h : e.Core) (hhead : e.Head r) {f : Effect → Effect} {attempts : List Attempt}
    (hfixed : ∀ r, (f r).fixed = r.fixed) (hpending : (f r).state ≠ .pending)
    (htokens : ∀ a ∈ attempts, a.parentId ≠ r.id → ∃ b ∈ e.attempts, b.parentId = a.parentId)
    (hlanes : Lanes Effect.id (fun r => r.state.phase) Effect.attempts
      (Library.modify Effect.id r.id f e.rows) attempts) :
    Core { e with rows := Library.modify Effect.id r.id f e.rows, attempts := attempts } := by
  have hseq : ∀ r, (f r).sequence = r.sequence := fun r => (Effect.of_fixed (hfixed r)).2.1
  have hop : ∀ r, (f r).operationId = r.operationId := fun r => (Effect.of_fixed (hfixed r)).2.2.1
  have huser : ∀ r, (f r).targetUserId = r.targetUserId :=
    fun r => (Effect.of_fixed (hfixed r)).2.2.2.1
  have hrow : ∀ r', r' ∈ e.rows → r'.id = r.id → r' = r :=
    fun r' hr' hid => h.lanes.keys.eq_of_key hr' hhead.mem hid
  refine ⟨hlanes, ?_, ?_, ?_, ?_, h.operationIds, ?_⟩
  · have hmap : (Library.modify Effect.id r.id f e.rows).map Effect.sequence =
        e.rows.map Effect.sequence := map_modify hseq e.rows
    have horder := List.pairwise_map.mpr h.order
    rw [← hmap] at horder
    exact List.pairwise_map.mp horder
  · intro r' hr'
    rcases modify_cases hr' with ⟨hmem, -⟩ | ⟨r₀, hmem, -, rfl⟩
    · exact h.below r' hmem
    · rw [hseq]
      exact h.below r₀ hmem
  · intro a ha b hb hsame hlt
    rcases modify_cases ha with ⟨hmema, -⟩ | ⟨a₀, hmema, haid, rfl⟩
    · rcases modify_cases hb with ⟨hmemb, -⟩ | ⟨b₀, hmemb, hbid, rfl⟩
      · exact h.queue a hmema b hmemb hsame hlt
      · obtain rfl := hrow b₀ hmemb hbid
        rw [huser] at hsame
        rw [hseq] at hlt
        exact .inl (hhead.prior a hmema hsame hlt)
    · obtain rfl := hrow a₀ hmema haid
      rw [huser] at hsame
      rw [hseq] at hlt
      rcases modify_cases hb with ⟨hmemb, -⟩ | ⟨b₀, hmemb, hbid, rfl⟩
      · rcases h.queue a₀ hmema b hmemb hsame hlt with hterminal | hp
        · exact absurd hterminal hhead.live
        · exact .inr hp
      · obtain rfl := hrow b₀ hmemb hbid
        rw [hseq] at hlt
        omega
  · intro r' hr' hp a ha heq
    rcases modify_cases hr' with ⟨hmem, hne⟩ | ⟨r₀, hmem, hid, rfl⟩
    · obtain ⟨b, hb, hparent⟩ := htokens a ha (fun hr => hne (heq.symm.trans hr))
      exact h.untried r' hmem hp b hb (hparent.trans heq)
    · obtain rfl := hrow r₀ hmem hid
      exact hpending hp
  · intro r' hr'
    rcases modify_cases hr' with ⟨hmem, -⟩ | ⟨r₀, hmem, -, rfl⟩
    · exact h.known r' hmem
    · rw [hop]
      exact h.known r₀ hmem

/-- The operations other than the one of a rewritten effect stay settled. -/
theorem Sound.settled_modify (h : e.Sound) (hr : r ∈ e.rows) {f : Effect → Effect}
    (attempts : List Attempt) (hop : ∀ r, (f r).operationId = r.operationId) {operation : Uuid}
    (hne : operation ≠ r.operationId) :
    Settled { e with rows := Library.modify Effect.id r.id f e.rows, attempts := attempts }
      operation := by
  intro o ho hid
  have hstate : stateOf { e with rows := Library.modify Effect.id r.id f e.rows } operation =
      e.stateOf operation := by
    apply stateOf_modify hop
    intro r' hr' hkey heq
    obtain rfl := h.lanes.keys.eq_of_key hr' hr hkey
    exact absurd heq.symm hne
  rw [h.settled operation o ho hid, ← hstate]
  rfl

/-! ## Moves -/

/-- The rows and the attempts after a claim of the effect `r`. -/
def taken (e : Effects) (now : Int) (r : Effect) (reconcile : Bool) (token : Uuid) : Effects :=
  let lease : Lease := ⟨token, now + 30000000⟩
  { e with
    rows := Library.modify Effect.id r.id (fun r' => { r' with
      state := if reconcile then .reconciling lease else .dispatching lease
      fence := r.fence + 1
      attempts := if reconcile then r'.attempts else r'.attempts + 1
      errorCode := none }) e.rows
    attempts := e.attempts ++
      [⟨token, r.id, r.fence + 1, if reconcile then .reconcile else .dispatch, none⟩] }

theorem takeEffect_ok {d : Directory} {now : Int} {worker : String} {reconcile : Bool} {token : Uuid}
    {c : EffectClaim} (h : e.takeEffect d now r worker reconcile token = .ok (e', c)) :
    (∀ a ∈ e.attempts, a.claimToken ≠ token) ∧ e' = e.taken now r reconcile token ∧
      c.delivery.effectId = r.id ∧ c.delivery.operationId = r.operationId ∧ c.token = token ∧
      c.fence = r.fence + 1 ∧ c.reconcile = reconcile := by
  simp only [takeEffect, delivery, bind_eq_ok, ensure_eq_ok, fetch_eq_ok, pure_eq_ok,
    Prod.mk.injEq] at h
  obtain ⟨-, hfresh, d', ⟨u, -, rfl⟩, rfl, rfl⟩ := h
  exact ⟨hfresh, rfl, rfl, rfl, rfl, rfl, rfl⟩

/-- What a worker does to an effect before it reports on it. -/
inductive Work (d : Directory) (e : Effects) : Effects → Prop where
  /-- a lease ran out -/
  | expire (x : Effect × Lease) (r : Effect) (hr : r ∈ e.rows) (hid : r.id = x.1.id)
      (hop : r.operationId = x.1.operationId) (hlease : r.state.lease? = some x.2) :
      Work d e (e.recoverOne x)
  /-- the metadata were to be mirrored for an authority that is gone -/
  | supersede (r : Effect) (u : User) (hhead : e.Head r) (hready : r.state.ready)
      (hkind : r.kind = .mirrorMetadata) (huser : d.user r.targetUserId = some u)
      (hstale : u.authorizationVersion ≠ r.authorizationVersion) :
      Work d e ((e.setState r.id .superseded none).refresh r.operationId)
  | take (r : Effect) (now : Int) (reconcile : Bool) (token : Uuid) (hhead : e.Head r)
      (hstate : if reconcile then r.state = .needsReconciliation
        else r.state.ready ∧ r.attempts < 5)
      (hfresh : ∀ a ∈ e.attempts, a.claimToken ≠ token) :
      Work d e (e.taken now r reconcile token)

/-- What a transaction does to the outbox, short of finishing a claim. -/
inductive Move (d : Directory) (e : Effects) : Effects → Prop where
  | work {e' : Effects} (h : Work d e e') : Move d e e'
  /-- an operation enqueues its effects -/
  | submit (o : Operation) (now : Int) (orders : List Order) (e₁ e₂ : Effects)
      (names : List NameEffect) (horders : orders ≠ []) (hstate : o.state = .pendingEffects)
      (hoperation : e.insertOperation o = .ok e₁) (henqueue : e₁.enqueue now o.id orders = .ok e₂) :
      Move d e { e₂ with names := names }

/-! ### A lease that runs out -/

theorem lease?_phase {s : EffectState} {l : Lease} (h : s.lease? = some l) :
    (s.phase = .writing l.token ∨ s.phase = .reading l.token) ∧ ¬ s.terminal ∧ s ≠ .pending := by
  cases s <;> cases h <;> simp [EffectState.phase, EffectState.terminal]

/-- A leased effect leaves its lease: an attempt ends with an outcome. -/
theorem Sound.close (h : e.Sound) (hr : r ∈ e.rows) {l : Lease} (hlease : r.state.lease? = some l)
    {f : Effect → Effect} {outcome : AttemptOutcome} (hfixed : ∀ r, (f r).fixed = r.fixed)
    (hattempts : (f r).attempts = r.attempts) (hpending : (f r).state ≠ .pending)
    (hphase : (f r).state.phase = .closed ∨
      (f r).state.phase = .idle ∧ r.state.phase = .writing l.token ∧ outcome = .notSent) :
    Sound ((Effects.record { e with rows := Library.modify Effect.id r.id f e.rows } l.token
      outcome).refresh r.operationId) := by
  obtain ⟨hwork, hlive, hnot⟩ := lease?_phase hlease
  have hlanes := h.lanes.settle hr (f := f) (fun r => (Effect.of_fixed (hfixed r)).1) hattempts hwork hphase
  have hcore := @Core.rewrite _ _ h.toCore (h.toCore.head hr hlive hnot) _
    (recordOutcome l.token outcome e.attempts) hfixed hpending ?_ hlanes
  · refine ⟨hcore.refresh _, fun id => settled_refresh fun hne => ?_⟩
    exact h.settled_modify hr _ (fun r => (Effect.of_fixed (hfixed r)).2.2.1) hne
  · intro a ha _
    obtain ⟨b, hb, rfl⟩ := mem_modify.mp ha
    refine ⟨b, hb, ?_⟩
    split
    · split <;> rfl
    · rfl

theorem Sound.expire (h : e.Sound) {x : Effect × Lease} (hr : r ∈ e.rows) (hid : r.id = x.1.id)
    (hop : r.operationId = x.1.operationId) (hlease : r.state.lease? = some x.2) :
    (e.recoverOne x).Sound := by
  have hclose := @Sound.close _ _ h hr _ hlease (fun r => { r with
    state := .needsReconciliation, errorCode := some "IDENTITY_PROVIDER_OUTCOME_UNKNOWN" })
    .unknown (fun _ => rfl) rfl (by simp) (.inl rfl)
  rw [hid, hop] at hclose
  exact hclose

/-! ### Superseding and claiming -/

theorem ready_phase {s : EffectState} (h : s.ready) : s.phase = .idle ∧ ¬ s.terminal := by
  cases s <;> simp_all [EffectState.ready, EffectState.phase, EffectState.terminal]

theorem Sound.supersede (h : e.Sound) (hhead : e.Head r) (hready : r.state.ready) :
    ((e.setState r.id .superseded none).refresh r.operationId).Sound := by
  have hcore : (e.setState r.id .superseded none).Core := by
    refine h.toCore.rewrite hhead ?_ ?_ (fun a ha _ => ⟨a, ha, rfl⟩) ?_
    · intro _; rfl
    · exact nofun
    · refine h.lanes.relabel ?_ ?_
      · intro _; rfl
      · intro r' hr' hid
        obtain rfl := h.lanes.keys.eq_of_key hr' hhead.mem hid
        exact ⟨rfl, .inl (ready_phase hready).1.symm⟩
  refine ⟨hcore.refresh _, fun id => settled_refresh fun hne => ?_⟩
  refine h.settled_modify hhead.mem e.attempts ?_ hne
  intro _; rfl

theorem Sound.take (h : e.Sound) (hhead : e.Head r) {now : Int} {reconcile : Bool} {token : Uuid}
    (hstate : if reconcile then r.state = .needsReconciliation else r.state.ready ∧ r.attempts < 5)
    (hfresh : ∀ a ∈ e.attempts, a.claimToken ≠ token) : (e.taken now r reconcile token).Sound := by
  have hsame : ∀ id, e.Settled id → (e.taken now r reconcile token).Settled id := by
    intro id hid o ho heq
    rw [hid o ho heq]
    refine (stateOf_modify (e := e) ?_ ?_).symm
    · intro _; rfl
    · intro r' hr' hkey _
      obtain rfl := h.lanes.keys.eq_of_key hr' hhead.mem hkey
      cases reconcile with
      | true => simp_all [EffectState.unresolved, EffectState.terminal]
      | false =>
        have hready := hstate.1
        cases hs : r'.state <;>
          simp_all [EffectState.unresolved, EffectState.terminal, EffectState.ready]
  refine ⟨h.toCore.rewrite hhead ?_ ?_ ?_ ?_, fun id => hsame id (h.settled id)⟩
  · intro _; rfl
  · cases reconcile <;> exact nofun
  · intro a ha hne
    rcases List.mem_append.mp ha with ha | ha
    · exact ⟨a, ha, rfl⟩
    · rw [List.mem_singleton.mp ha] at hne
      exact absurd rfl hne
  · refine h.lanes.claim hhead.mem ?_ hfresh ?_
    · intro _; rfl
    cases reconcile with
    | true =>
      refine .inr ⟨rfl, ?_, rfl, rfl⟩
      rw [if_pos rfl] at hstate
      rw [hstate]
      rfl
    | false => exact .inl ⟨rfl, (ready_phase hstate.1).1, hstate.2, rfl, rfl⟩

/-! ### Enqueueing -/

/-- The row an order inserts. -/
def Order.row (o : Order) (e : Effects) (now : Int) (operation : Uuid) : Effect where
  id := o.id
  sequence := e.sequence
  operationId := operation
  targetUserId := o.user.id
  kind := o.kind
  authorizationVersion := o.user.authorizationVersion
  role := o.user.role
  status := o.user.status
  state := .pending
  fence := 0
  attempts := 0
  nextAttemptAt := now
  errorCode := none

theorem insertEffect_ok {now : Int} {operation : Uuid} {o : Order}
    (h : e.insertEffect now operation o.id o.kind o.user = .ok e') :
    (∀ r ∈ e.rows, r.id ≠ o.id) ∧
      e' = { e with rows := e.rows ++ [o.row e now operation], sequence := e.sequence + 1 } := by
  simp only [insertEffect, bind_eq_ok, ensure_eq_ok, pure_eq_ok] at h
  obtain ⟨-, hid, -, -, rfl⟩ := h
  exact ⟨hid, rfl⟩

theorem insertOperation_ok {o : Operation} (h : e.insertOperation o = .ok e') :
    (∀ o' ∈ e.operations, o'.id ≠ o.id) ∧ e' = { e with operations := e.operations ++ [o] } := by
  simp only [insertOperation, bind_eq_ok, ensure_eq_ok, pure_eq_ok] at h
  obtain ⟨-, hid, rfl⟩ := h
  exact ⟨hid, rfl⟩

theorem Core.insert (h : e.Core) {now : Int} {operation : Uuid} {o : Order}
    (hknown : ∃ o' ∈ e.operations, o'.id = operation) (hid : ∀ r ∈ e.rows, r.id ≠ o.id) :
    Core { e with rows := e.rows ++ [o.row e now operation], sequence := e.sequence + 1 } := by
  refine ⟨h.lanes.insert hid rfl rfl, ?_, ?_, ?_, ?_, h.operationIds, ?_⟩
  · rw [List.pairwise_append]
    refine ⟨h.order, List.pairwise_singleton _ _, ?_⟩
    intro a ha b hb
    rw [List.mem_singleton.mp hb]
    exact h.below a ha
  · intro r hr
    show r.sequence < e.sequence + 1
    rcases List.mem_append.mp hr with hr | hr
    · exact Nat.lt_succ_of_lt (h.below r hr)
    · rw [List.mem_singleton.mp hr]
      exact Nat.lt_succ_self _
  · intro a ha b hb huser hlt
    rcases List.mem_append.mp hb with hmemb | hmemb
    · rcases List.mem_append.mp ha with hmema | hmema
      · exact h.queue a hmema b hmemb huser hlt
      · have hbelow := h.below b hmemb
        rw [List.mem_singleton.mp hmema] at hlt
        have hlt' : e.sequence < b.sequence := hlt
        omega
    · rw [List.mem_singleton.mp hmemb]
      exact .inr rfl
  · intro r hr hp a ha
    rcases List.mem_append.mp hr with hmem | hmem
    · exact h.untried r hmem hp a ha
    · rw [List.mem_singleton.mp hmem]
      obtain ⟨r', hr', hkey⟩ := h.lanes.parents a ha
      rw [← hkey]
      exact hid r' hr'
  · intro r hr
    rcases List.mem_append.mp hr with hmem | hmem
    · exact h.known r hmem
    · rw [List.mem_singleton.mp hmem]
      exact hknown

/-- The outbox while an operation enqueues its effects. -/
structure Enqueueing (operations : List Operation) (operation : Uuid) (e : Effects) : Prop
    extends Core e where
  same : e.operations = operations
  others : ∀ id, id ≠ operation → e.Settled id
  pending : ∀ r ∈ e.rows, r.operationId = operation → r.state = .pending

theorem Enqueueing.insert {operations : List Operation} {operation : Uuid}
    (h : Enqueueing operations operation e) {now : Int} {o : Order} (hknown : ∃ o' ∈ e.operations, o'.id = operation) (hid : ∀ r ∈ e.rows, r.id ≠ o.id) :
    Enqueueing operations operation
      { e with rows := e.rows ++ [o.row e now operation], sequence := e.sequence + 1 } := by
  refine ⟨h.toCore.insert hknown hid, h.same, ?_, ?_⟩
  · intro id hne o' ho' heq
    rw [h.others id hne o' ho' heq]
    refine (stateOf_congr (e := e) ?_).symm
    have hop : ¬ (o.row e now operation).operationId = id := fun hop => hne hop.symm
    simp [List.filter_append, hop]
  · intro r hr heq
    rcases List.mem_append.mp hr with hmem | hmem
    · exact h.pending r hmem heq
    · rw [List.mem_singleton.mp hmem]
      rfl

theorem Enqueueing.enqueue {operations : List Operation} {now : Int} {operation : Uuid}
    {orders : List Order} (h : Enqueueing operations operation e) (hknown : ∃ o' ∈ e.operations, o'.id = operation)
    (henqueue : e.enqueue now operation orders = .ok e') :
    Enqueueing operations operation e' ∧ (orders ≠ [] ∨ (∃ r ∈ e.rows, r.operationId = operation) →
      ∃ r ∈ e'.rows, r.operationId = operation) := by
  induction orders generalizing e with
  | nil =>
    obtain rfl := pure_eq_ok.mp henqueue
    exact ⟨h, fun hsome => hsome.resolve_left (fun hne => hne rfl)⟩
  | cons o orders ih =>
    rw [Effects.enqueue, List.foldlM_cons, bind_eq_ok] at henqueue
    obtain ⟨e₁, hinsert, hrest⟩ := henqueue
    obtain ⟨hid, rfl⟩ := insertEffect_ok hinsert
    obtain ⟨hfinal, hsome⟩ := ih (h.insert hknown hid) hknown hrest
    refine ⟨hfinal, fun _ => hsome (.inr ⟨o.row e now operation, by simp, rfl⟩)⟩

theorem Sound.submit (h : e.Sound) {o : Operation} {now : Int} {orders : List Order}
    {e₁ e₂ : Effects} (horders : orders ≠ []) (hstate : o.state = .pendingEffects)
    (hoperation : e.insertOperation o = .ok e₁) (henqueue : e₁.enqueue now o.id orders = .ok e₂) :
    e₂.Sound := by
  obtain ⟨hnew, rfl⟩ := insertOperation_ok hoperation
  have hforeign : ∀ r ∈ e.rows, r.operationId ≠ o.id := by
    intro r hr heq
    obtain ⟨o', ho', hid⟩ := h.known r hr
    exact hnew o' ho' (hid.trans heq)
  have hstart : Enqueueing (e.operations ++ [o]) o.id
      { e with operations := e.operations ++ [o] } := by
    refine ⟨⟨h.lanes, h.order, h.below, h.queue, h.untried,
      keyUnique_concat.mpr ⟨h.operationIds, hnew⟩, ?_⟩, rfl, ?_, ?_⟩
    · intro r hr
      obtain ⟨o', ho', hid⟩ := h.known r hr
      exact ⟨o', List.mem_append_left _ ho', hid⟩
    · intro id hne o' ho' heq
      rcases List.mem_append.mp ho' with hmem | hmem
      · exact h.settled id o' hmem heq
      · rw [List.mem_singleton.mp hmem] at heq
        exact absurd heq.symm hne
    · intro r hr heq
      exact absurd heq (hforeign r hr)
  obtain ⟨hend, hsome⟩ := hstart.enqueue ⟨o, by simp, rfl⟩ henqueue
  obtain ⟨r, hr, hop⟩ := hsome (.inl horders)
  refine ⟨hend.toCore, fun id => ?_⟩
  by_cases hid : id = o.id
  · subst hid
    intro o' ho' heq
    rw [hend.same] at ho'
    obtain rfl : o' = o := (keyUnique_concat.mpr ⟨h.operationIds, hnew⟩).eq_of_key ho' (by simp) heq
    rw [hstate, stateOf]
    have hfilter : ∀ r' ∈ e₂.rows.filter (fun r => r.operationId = o'.id), r'.state = .pending := by
      intro r' hr'
      obtain ⟨hmem, heq'⟩ := List.mem_filter.mp hr'
      exact hend.pending r' hmem (by simpa using heq')
    have hin : r ∈ e₂.rows.filter fun r => r.operationId = o'.id := by simp [hr, hop]
    have hunresolved : (e₂.rows.filter fun r => r.operationId = o'.id).any
        (fun r => r.state.unresolved) = false := by
      rw [List.any_eq_false]
      intro r' hr'
      rw [hfilter r' hr']
      exact Bool.false_ne_true
    have hterminal : (e₂.rows.filter fun r => r.operationId = o'.id).all
        (fun r => r.state.terminal) = false := by
      rw [List.all_eq_false]
      refine ⟨r, hin, ?_⟩
      rw [hfilter r hin]
      exact Bool.false_ne_true
    simp only [hunresolved, hterminal]
    rfl
  · exact hend.others id hid

theorem Work.sound {d : Directory} (hwork : Work d e e') (h : e.Sound) : e'.Sound := by
  cases hwork with
  | expire x r hr hid hop hlease => exact h.expire hr hid hop hlease
  | supersede r u hhead hready hkind huser hstale => exact h.supersede hhead hready
  | take r now reconcile token hhead hstate hfresh => exact h.take hhead hstate hfresh

/-- Every move keeps the outbox sound. -/
theorem Move.sound {d : Directory} (hmove : Move d e e') (h : e.Sound) : e'.Sound := by
  cases hmove with
  | work hwork => exact hwork.sound h
  | submit o now orders e₁ e₂ names horders hstate hoperation henqueue =>
    have hsound := h.submit horders hstate hoperation henqueue
    exact ⟨⟨hsound.lanes, hsound.order, hsound.below, hsound.queue, hsound.untried,
      hsound.operationIds, hsound.known⟩, hsound.settled⟩

end Effects

end ShaponTravels.Identity
