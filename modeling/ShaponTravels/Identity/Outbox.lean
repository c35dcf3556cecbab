import ShaponTravels.Identity.Queue
import ShaponTravels.Identity.System

/-!
# Outbox — the transactions on effects as moves of the queue

What a claim, a reconciliation and a finish do to the outbox, and that every other transaction of
the system leaves it alone or enqueues an operation.
-/

namespace ShaponTravels.Identity

open Library
open Library.Fenced (Phase)

namespace Effects

/-! ## What is never taken back -/

/-- Rows and attempts stay, and a finished effect stays finished. -/
structure Extends (e e' : Effects) : Prop where
  rows : ∀ r ∈ e.rows, ∃ r' ∈ e'.rows, r'.fixed = r.fixed ∧ (r.state.terminal → r'.state = r.state)
  attempts : AttemptsExtend e.attempts e'.attempts

variable {e e' e'' : Effects} {r : Effect}

theorem Extends.refl (e : Effects) : Extends e e where
  rows r hr := ⟨r, hr, rfl, fun _ => rfl⟩
  attempts := .refl _

theorem Extends.trans (h : Extends e e') (h' : Extends e' e'') : Extends e e'' := by
  refine ⟨fun r hr => ?_, h.attempts.trans h'.attempts⟩
  obtain ⟨r₁, hr₁, hfixed₁, hstate₁⟩ := h.rows r hr
  obtain ⟨r₂, hr₂, hfixed₂, hstate₂⟩ := h'.rows r₁ hr₁
  refine ⟨r₂, hr₂, hfixed₂.trans hfixed₁, fun ht => ?_⟩
  have hsame := hstate₁ ht
  rw [hstate₂ (by rw [hsame]; exact ht), hsame]

/-- A rewrite of an effect that is not finished. -/
theorem Extends.rewrite {id : Uuid} {f : Effect → Effect} {attempts : List Attempt}
    (hfixed : ∀ r, (f r).fixed = r.fixed) (hlive : ∀ r ∈ e.rows, r.id = id → ¬ r.state.terminal)
    (hattempts : AttemptsExtend e.attempts attempts) {operations : List Operation} :
    Extends e { e with
      operations := operations, rows := Library.modify Effect.id id f e.rows, attempts := attempts } := by
  refine ⟨fun r hr => ?_, hattempts⟩
  refine ⟨_, mem_modify.mpr ⟨r, hr, rfl⟩, ?_⟩
  split
  · rename_i hid
    exact ⟨hfixed r, fun ht => absurd ht (hlive r hr hid)⟩
  · exact ⟨rfl, fun _ => rfl⟩

/-- Enqueueing only adds. -/
theorem enqueue_ok {now : Int} {operation : Uuid} {orders : List Order}
    (h : e.enqueue now operation orders = .ok e') :
    ∃ new, e'.rows = e.rows ++ new ∧ e'.attempts = e.attempts ∧ e'.operations = e.operations ∧
      new.map (fun r => (r.id, r.kind, r.targetUserId, r.operationId, r.state, r.authorizationVersion,
          r.role, r.status)) =
        orders.map (fun o => (o.id, o.kind, o.user.id, operation, EffectState.pending,
          o.user.authorizationVersion, o.user.role, o.user.status)) := by
  induction orders generalizing e with
  | nil =>
    obtain rfl := pure_eq_ok.mp h
    exact ⟨[], by simp, rfl, rfl, rfl⟩
  | cons o orders ih =>
    rw [enqueue, List.foldlM_cons, bind_eq_ok] at h
    obtain ⟨e₁, hinsert, hrest⟩ := h
    obtain ⟨-, rfl⟩ := insertEffect_ok hinsert
    obtain ⟨new, hrows, hattempts, hoperations, hmap⟩ := ih hrest
    refine ⟨o.row e now operation :: new, ?_, hattempts, hoperations, ?_⟩
    · rw [hrows]
      simp
    · rw [List.map_cons, List.map_cons, hmap]
      rfl

theorem Work.extends {d : Directory} (h : Work d e e') (hsound : e.Sound) : Extends e e' := by
  cases h with
  | expire x r hr hid hop hlease =>
    refine Extends.rewrite ?_ ?_ (.record _ _ _)
    · intro _; rfl
    · intro r' hr' hid'
      obtain rfl := hsound.lanes.keys.eq_of_key hr' hr (hid'.trans hid.symm)
      exact (lease?_phase hlease).2.1
  | supersede r u hhead hready hkind huser hstale =>
    refine Extends.rewrite ?_ ?_ (.refl _)
    · intro _; rfl
    · intro r' hr' hid'
      obtain rfl := hsound.lanes.keys.eq_of_key hr' hhead.mem hid'
      exact hhead.live
  | take r now reconcile token hhead hstate hfresh =>
    refine Extends.rewrite ?_ ?_ (.concat fun hkind b hb hparent => ?_)
    · intro _; rfl
    · intro r' hr' hid'
      obtain rfl := hsound.lanes.keys.eq_of_key hr' hhead.mem hid'
      exact hhead.live
    · -- a new dispatch is of an effect whose attempts were all spent
      cases reconcile with
      | true => cases hkind
      | false =>
        exact (hsound.lanes.spent_of_idle hhead.mem (ready_phase hstate.1).1 hb hparent).2

theorem Move.extends {d : Directory} (h : Move d e e') (hsound : e.Sound) : Extends e e' := by
  cases h with
  | work hwork => exact hwork.extends hsound
  | submit o now orders e₁ e₂ names horders hstate hoperation henqueue =>
    obtain ⟨-, rfl⟩ := insertOperation_ok hoperation
    obtain ⟨new, hrows, hattempts, -, -⟩ := enqueue_ok henqueue
    refine ⟨fun r hr => ⟨r, ?_, rfl, fun _ => rfl⟩, ?_⟩
    · show r ∈ e₂.rows
      rw [hrows]
      exact List.mem_append_left _ hr
    · show AttemptsExtend e.attempts e₂.attempts
      rw [hattempts]
      exact .refl _

/-- No work says of an attempt that nothing was sent. -/
theorem Work.traced {d : Directory} (h : Work d e e') {a' : Attempt} (ha' : a' ∈ e'.attempts)
    (hspent : a'.outcome = some .notSent) :
    ∃ a ∈ e.attempts, a'.fixed = a.fixed ∧ a.outcome = some .notSent := by
  cases h with
  | expire x r hr hid hop hlease => 
    obtain ⟨a, ha, hfixed, hsame | ⟨-, -, hunknown⟩⟩ := recordOutcome_traced ha' hspent
    · exact ⟨a, ha, hfixed, hsame⟩
    · cases hunknown
  | supersede r u hhead hready hkind huser hstale => exact ⟨a', ha', rfl, hspent⟩
  | take r now reconcile token hhead hstate hfresh =>
    rcases List.mem_append.mp ha' with ha | ha
    · exact ⟨a', ha, rfl, hspent⟩
    · rw [List.mem_singleton.mp ha] at hspent
      cases hspent

theorem Move.traced {d : Directory} (h : Move d e e') {a' : Attempt} (ha' : a' ∈ e'.attempts)
    (hspent : a'.outcome = some .notSent) :
    ∃ a ∈ e.attempts, a'.fixed = a.fixed ∧ a.outcome = some .notSent := by
  cases h with
  | work hwork => exact hwork.traced ha' hspent
  | submit o now orders e₁ e₂ names horders hstate hoperation henqueue =>
    obtain ⟨-, rfl⟩ := insertOperation_ok hoperation
    obtain ⟨new, -, hattempts, -, -⟩ := enqueue_ok henqueue
    have hmem : a' ∈ e₂.attempts := ha'
    rw [hattempts] at hmem
    exact ⟨a', hmem, rfl, hspent⟩

/-! ## Moves of a transaction -/

/-- The moves of one transaction. -/
abbrev Moves (d : Directory) : Effects → Effects → Prop := Relation.ReflTransGen (Move d)

/-- The work of one transaction. -/
abbrev Works (d : Directory) : Effects → Effects → Prop := Relation.ReflTransGen (Work d)

variable {d : Directory}

theorem Works.moves (h : Works d e e') : Moves d e e' := by
  induction h with
  | refl => exact .refl
  | tail _ hwork ih => exact ih.tail (.work hwork)

theorem Moves.sound (h : Moves d e e') (hsound : e.Sound) : e'.Sound := by
  induction h with
  | refl => exact hsound
  | tail _ hmove ih => exact hmove.sound ih

theorem Moves.extends (h : Moves d e e') (hsound : e.Sound) : Extends e e' := by
  induction h with
  | refl => exact .refl e
  | tail hmoves hmove ih => exact ih.trans (hmove.extends (Moves.sound hmoves hsound))

theorem Moves.traced (h : Moves d e e') {a' : Attempt} (ha' : a' ∈ e'.attempts)
    (hspent : a'.outcome = some .notSent) :
    ∃ a ∈ e.attempts, a'.fixed = a.fixed ∧ a.outcome = some .notSent := by
  induction h generalizing a' with
  | refl => exact ⟨a', ha', rfl, hspent⟩
  | tail _ hmove ih =>
    obtain ⟨a₁, ha₁, hfixed₁, hspent₁⟩ := hmove.traced ha' hspent
    obtain ⟨a, ha, hfixed, hspent⟩ := ih ha₁ hspent₁
    exact ⟨a, ha, hfixed₁.trans hfixed, hspent⟩

/-! ### Recovery -/

/-- The effect is the row of `e` that holds the lease. -/
def Leased (e : Effects) (x : Effect × Lease) : Prop :=
  ∃ r ∈ e.rows, r.id = x.1.id ∧ r.operationId = x.1.operationId ∧ r.state.lease? = some x.2

/-- The recovery of one effect leaves the leases of the others. -/
theorem Leased.recoverOne {x y : Effect × Lease} (h : e.Leased y) (hne : y.1.id ≠ x.1.id) :
    (e.recoverOne x).Leased y := by
  obtain ⟨r, hr, hid, hop, hlease⟩ := h
  exact ⟨r, mem_modify_of_ne hr (by rw [hid]; exact hne), hid, hop, hlease⟩

theorem foldl_recoverOne {xs : List (Effect × Lease)} (hleased : ∀ x ∈ xs, e.Leased x)
    (hdistinct : xs.Pairwise fun x y => x.1.id ≠ y.1.id) : Works d e (xs.foldl recoverOne e) := by
  induction xs generalizing e with
  | nil => exact .refl
  | cons x xs ih =>
    obtain ⟨hx, hrest⟩ := List.pairwise_cons.mp hdistinct
    obtain ⟨r, hr, hid, hop, hlease⟩ := hleased x List.mem_cons_self
    refine (ih ?_ hrest).head (.expire x r hr hid hop hlease)
    intro y hy
    exact (hleased y (List.mem_cons_of_mem _ hy)).recoverOne (hx y hy).symm

theorem expired_leased {now : Int} {x : Effect × Lease} (hx : x ∈ e.expired now) : e.Leased x := by
  have hmem := (List.mem_insertionSort _).mp (List.mem_of_mem_take hx)
  obtain ⟨r, hr, hsome⟩ := List.mem_filterMap.mp hmem
  obtain ⟨l, hl, rfl⟩ := Option.map_eq_some_iff.mp hsome
  exact ⟨r, hr, rfl, rfl, (Option.filter_eq_some_iff.mp hl).1⟩

theorem expired_distinct (h : KeyUnique Effect.id e.rows) (now : Int) :
    (e.expired now).Pairwise fun x y => x.1.id ≠ y.1.id := by
  unfold expired
  refine List.Pairwise.take ?_
  refine (List.Perm.pairwise_iff (fun hne => Ne.symm hne) (List.perm_insertionSort _ _)).mpr ?_
  have hpair : e.rows.Pairwise fun a b => a.id ≠ b.id := List.pairwise_map.mp h
  refine hpair.filterMap _ ?_
  intro a b hne x hx y hy
  obtain ⟨-, -, rfl⟩ := Option.map_eq_some_iff.mp hx
  obtain ⟨-, -, rfl⟩ := Option.map_eq_some_iff.mp hy
  exact hne

/-- The recovery of the leases that ran out. -/
theorem works_recoverExpired (h : e.Sound) (now : Int) : Works d e (e.recoverExpired now) :=
  foldl_recoverOne (fun _ hx => expired_leased hx) (expired_distinct h.lanes.keys now)

/-! ### Claims -/

/-- The claim is of an attempt on an effect. -/
structure Holder (e : Effects) (c : EffectClaim) : Prop where
  attempt : ∃ a ∈ e.attempts, a.claimToken = c.token ∧ a.parentId = c.delivery.effectId ∧
    a.fence = c.fence ∧ a.kind = if c.reconcile then .reconcile else .dispatch
  row : ∃ r ∈ e.rows, r.id = c.delivery.effectId ∧ r.operationId = c.delivery.operationId

theorem Holder.extends {c : EffectClaim} (h : e.Holder c) (hext : Extends e e') : e'.Holder c := by
  obtain ⟨⟨a, ha, htoken, hparent, hfence, hkind⟩, r, hr, hid, hop⟩ := h
  obtain ⟨a', ha', hfixed, -⟩ := hext.attempts.kept a ha
  obtain ⟨r', hr', hfixed', -⟩ := hext.rows r hr
  obtain ⟨htoken', hparent', hfence', hkind'⟩ := Attempt.of_fixed hfixed
  obtain ⟨hid', -, hop', -⟩ := Effect.of_fixed hfixed'
  exact ⟨⟨a', ha', htoken'.trans htoken, hparent'.trans hparent, hfence'.trans hfence,
    hkind'.trans hkind⟩, r', hr', hid'.trans hid, hop'.trans hop⟩

theorem holder_of_take {now : Int} {worker : String} {reconcile : Bool} {token : Uuid}
    {c : EffectClaim} (hr : r ∈ e.rows)
    (h : e.takeEffect d now r worker reconcile token = .ok (e', c)) :
    e'.Holder c ∧ (∀ a ∈ e.attempts, a.claimToken ≠ c.token) := by
  obtain ⟨hfresh, rfl, hid, hop, htoken, hfence, hreconcile⟩ := takeEffect_ok h
  refine ⟨⟨⟨_, List.mem_append_right _ (List.mem_singleton_self _), htoken.symm, hid.symm,
    hfence.symm, by rw [hreconcile]⟩, _, mem_modify_of_mem hr rfl, hid.symm, hop.symm⟩, ?_⟩
  rw [htoken]
  exact hfresh

theorem delivery_ok {w : Delivery} (h : e.delivery d r = .ok w) :
    w.effectId = r.id ∧ w.operationId = r.operationId ∧ w.targetUserId = r.targetUserId ∧
      w.kind = r.kind ∧ w.authorizationVersion = r.authorizationVersion := by
  simp only [delivery, bind_eq_ok, fetch_eq_ok, pure_eq_ok] at h
  obtain ⟨u, -, rfl⟩ := h
  exact ⟨rfl, rfl, rfl, rfl, rfl⟩

/-- The loop supersedes some effects and claims at most one. -/
theorem claimLoop_ok {now : Int} {worker : String} {token : Uuid} {n : Nat} {c : Option EffectClaim}
    (h : claimLoop d now worker token n e = .ok (e', c)) :
    Works d e e' ∧ ∀ c' ∈ c, e'.Holder c' ∧ c'.reconcile = false ∧
      ∀ a ∈ e.attempts, a.claimToken ≠ c'.token := by
  induction n generalizing e with
  | zero =>
    rw [claimLoop, pure_eq_ok, Prod.mk.injEq] at h
    obtain ⟨rfl, rfl⟩ := h
    exact ⟨.refl, fun _ hc' => absurd hc' (Option.not_mem_none _)⟩
  | succ n ih =>
    rw [claimLoop] at h
    revert h
    cases hnext : e.next now with
    | none =>
      intro h
      rw [pure_eq_ok, Prod.mk.injEq] at h
      obtain ⟨rfl, rfl⟩ := h
      exact ⟨.refl, fun _ hc' => absurd hc' (Option.not_mem_none _)⟩
    | some r =>
      intro h
      obtain ⟨hhead, hready, hlimit⟩ := head_of_next hnext
      simp only [bind_eq_ok, fetch_eq_ok] at h
      obtain ⟨work, hwork, current, hcurrent, h⟩ := h
      obtain ⟨-, hop, huser, hkind, hversion⟩ := delivery_ok hwork
      split at h
      · rename_i hstale
        rw [huser] at hcurrent
        rw [hkind, hversion] at hstale
        rw [hop] at h
        obtain ⟨hworks, hclaim⟩ := ih h
        exact ⟨hworks.head (.supersede r current hhead hready hstale.1 hcurrent hstale.2), hclaim⟩
      · obtain ⟨x, htake, hresult⟩ := bind_eq_ok.mp h
        obtain ⟨rfl, rfl⟩ := Prod.mk.inj (pure_eq_ok.mp hresult)
        obtain ⟨hholder, hfresh'⟩ := holder_of_take hhead.mem htake
        obtain ⟨hfresh, he, -, -, -, -, hreconcile⟩ := takeEffect_ok htake
        refine ⟨.single ?_, ?_⟩
        · rw [he]
          exact .take r now false token hhead ⟨hready, hlimit⟩ hfresh
        · intro c' hc'
          obtain rfl := Option.some.inj hc'
          exact ⟨hholder, hreconcile, hfresh'⟩

/-- `claim` recovers, supersedes and hands out at most one claim, to deliver. -/
theorem claim_ok (hsound : e.Sound) {now : Int} {worker : String} {token : Uuid}
    {c : Option EffectClaim} (h : e.claim d now worker token = .ok (e', c)) :
    Works d e e' ∧ ∀ c' ∈ c, e'.Holder c' ∧ c'.reconcile = false ∧
      ∀ a ∈ e.attempts, a.claimToken ≠ c'.token := by
  obtain ⟨-, -, hloop⟩ := bind_eq_ok.mp h
  have hrecover := works_recoverExpired (d := d) hsound now
  obtain ⟨hworks, hclaim⟩ := claimLoop_ok hloop
  refine ⟨hrecover.trans hworks, fun c' hc' => ?_⟩
  obtain ⟨hholder, hreconcile, hfresh⟩ := hclaim c' hc'
  refine ⟨hholder, hreconcile, fun a ha => ?_⟩
  obtain ⟨a', ha', hfixed, -⟩ := (hrecover.moves.extends hsound).attempts.kept a ha
  rw [← (Attempt.of_fixed hfixed).1]
  exact hfresh a' ha'

/-- `reconcile` hands out a claim to read at the provider. -/
theorem reconcile_ok (hsound : e.Sound) {now : Int} {worker : String} {id : Uuid} {fence : Int}
    {token : Uuid} {c : EffectClaim} (h : e.reconcile d now worker id fence token = .ok (e', c)) :
    Works d e e' ∧ e'.Holder c ∧ c.reconcile = true ∧ ∀ a ∈ e.attempts, a.claimToken ≠ c.token := by
  simp only [reconcile, bind_eq_ok, fetch_eq_ok, ensure_eq_ok] at h
  obtain ⟨-, -, r, hlookup, -, ⟨hstate, -⟩, htake⟩ := h
  have hrecover := works_recoverExpired (d := d) hsound now
  have hr := lookup_mem hlookup
  have hhead : (e.recoverExpired now).Head r :=
    (hrecover.moves.sound hsound).head hr (by rw [hstate]; decide) (by rw [hstate]; exact nofun)
  obtain ⟨hholder, hfresh'⟩ := holder_of_take hr htake
  obtain ⟨hfresh, he, -, -, -, -, hreconcile⟩ := takeEffect_ok htake
  refine ⟨hrecover.tail ?_, hholder, hreconcile, fun a ha => ?_⟩
  · rw [he]
    exact .take r now true token hhead hstate hfresh
  · obtain ⟨a', ha', hfixed, -⟩ := (hrecover.moves.extends hsound).attempts.kept a ha
    rw [← (Attempt.of_fixed hfixed).1]
    exact hfresh' a' ha'

/-! ### Results -/

theorem holds_lease {c : EffectClaim} {now : Int} (h : holds c r now) :
    ∃ l, r.state.lease? = some l ∧ l.token = c.token ∧
      (c.reconcile = false → r.state.phase = .writing c.token) := by
  simp only [holds, Bool.and_eq_true] at h
  obtain ⟨-, h⟩ := h
  cases hs : r.state with
  | dispatching l =>
    rw [hs] at h
    simp only [Bool.and_eq_true, decide_eq_true_eq] at h
    exact ⟨l, rfl, h.1.2, fun _ => congrArg Phase.writing h.1.2⟩
  | reconciling l =>
    rw [hs] at h
    simp only [Bool.and_eq_true, decide_eq_true_eq] at h
    exact ⟨l, rfl, h.1.2, fun hreconcile => absurd h.1.1 (by rw [hreconcile]; decide)⟩
  | pending | retryable | needsReconciliation | confirmed | superseded =>
    rw [hs] at h
    cases h

/-- A result closes an effect, or gives it back when nothing was sent. -/
theorem resultState_phase (attempts : Nat) (outcome : AttemptOutcome) :
    (resultState attempts outcome).1 ≠ .pending ∧
      ((resultState attempts outcome).1.phase = .closed ∨
        (resultState attempts outcome).1.phase = .idle ∧ outcome = .notSent) := by
  cases outcome with
  | confirmed => exact ⟨nofun, .inl rfl⟩
  | unknown => exact ⟨nofun, .inl rfl⟩
  | notSent =>
    rw [resultState]
    split
    · exact ⟨nofun, .inr ⟨rfl, rfl⟩⟩
    · exact ⟨nofun, .inl rfl⟩

/-- Only a claim to deliver is told that nothing was sent. -/
theorem reconcile_of_notSent {c : EffectClaim} {result : AttemptOutcome}
    (h : outcomeOf c result = .notSent) : c.reconcile = false := by
  rw [outcomeOf] at h
  split at h
  · cases h
  · rename_i hnot
    cases hreconcile : c.reconcile with
    | false => rfl
    | true => exact absurd ⟨hreconcile, h⟩ hnot

/-- A finish changes nothing, or its claim is the live one of an effect. -/
theorem finish_ok {now : Int} {c : EffectClaim} {result : AttemptOutcome}
    (h : e.finish now c result = .ok e') :
    e' = e ∨ ∃ r ∈ e.rows, r.id = c.delivery.effectId ∧ holds c r now ∧
      e' = (Effects.record { e with rows := Library.modify Effect.id r.id (fun r' => { r' with
          state := (resultState r.attempts (outcomeOf c result)).1
          errorCode := (resultState r.attempts (outcomeOf c result)).2
          nextAttemptAt := now + 30000000 }) e.rows } c.token (outcomeOf c result)).refresh
        c.delivery.operationId := by
  simp only [finish, bind_eq_ok, fetch_eq_ok] at h
  obtain ⟨r, hlookup, attempt, -, h⟩ := h
  split at h
  · exact .inl (pure_eq_ok.mp h).symm
  · simp only [bind_eq_ok, ensure_eq_ok, pure_eq_ok] at h
    obtain ⟨-, hholds, rfl⟩ := h
    exact .inr ⟨r, lookup_mem hlookup, lookup_key hlookup, hholds, rfl⟩

/-- What a finish of a live claim keeps and what it records. -/
theorem finish_live (hsound : e.Sound) {now : Int} {c : EffectClaim} {result : AttemptOutcome}
    (hholder : e.Holder c) (h : e.finish now c result = .ok e') :
    e'.Sound ∧ Extends e e' ∧ ∀ a' ∈ e'.attempts, a'.outcome = some .notSent →
      ∃ a ∈ e.attempts, a'.fixed = a.fixed ∧ (a.outcome = some .notSent ∨ a.claimToken = c.token) := by
  obtain rfl | ⟨r, hr, hid, hholds, rfl⟩ := finish_ok h
  · exact ⟨hsound, .refl _, fun a' ha' hspent => ⟨a', ha', rfl, .inl hspent⟩⟩
  obtain ⟨l, hlease, htoken, hwriting⟩ := holds_lease hholds
  obtain ⟨r', hr', hid', hop⟩ := hholder.row
  obtain rfl := hsound.lanes.keys.eq_of_key hr' hr (hid'.trans hid.symm)
  rw [← hop, ← htoken]
  refine ⟨?_, ?_, ?_⟩
  · refine hsound.close hr hlease ?_ rfl ?_ ?_
    · intro _; rfl
    · exact (resultState_phase r'.attempts _).1
    · rcases (resultState_phase r'.attempts (outcomeOf c result)).2 with hclosed | ⟨hidle, hspent⟩
      · exact .inl hclosed
      · refine .inr ⟨hidle, ?_, hspent⟩
        rw [htoken]
        exact hwriting (reconcile_of_notSent hspent)
  · refine Extends.rewrite ?_ ?_ (.record _ _ _)
    · intro _; rfl
    · intro r₁ hr₁ hid₁
      obtain rfl := hsound.lanes.keys.eq_of_key hr₁ hr hid₁
      exact (lease?_phase hlease).2.1
  · intro a' ha' hspent
    obtain ⟨a, ha, hfixed, hsame | ⟨htoken', -, -⟩⟩ := recordOutcome_traced ha' hspent
    · exact ⟨a, ha, hfixed, .inl hsame⟩
    · exact ⟨a, ha, hfixed, .inr htoken'⟩

end Effects

end ShaponTravels.Identity
