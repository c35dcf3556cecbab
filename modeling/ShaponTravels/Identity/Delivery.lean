import ShaponTravels.Identity.Frames
import ShaponTravels.Identity.Outbox

/-!
# Delivery — effects in order, and each delivered at most once

What every event of the system does to the outbox and to the claims on it, the invariant that runs
keep, and what follows for the deliveries.
-/

namespace ShaponTravels.Identity

open Library
open Effects (Moves Holder Extends)

variable {desk : Desk} {d : Directory} {db db' : Db} {now : Int}

/-! ## Requests -/

theorem moves_submit {e e₁ e₂ : Effects} {o : Operation} {orders : List Effects.Order}
    {names : List NameEffect} (horders : orders ≠ []) (hstate : o.state = .pendingEffects)
    (hoperation : e.insertOperation o = .ok e₁) (henqueue : e₁.enqueue now o.id orders = .ok e₂) :
    Moves d e { e₂ with names := names } :=
  .single (.submit o now orders e₁ e₂ names horders hstate hoperation henqueue)

theorem changeOrders_ne_nil {draw : Draw} {target : Uuid} {u : User} (hu : d.user target = some u)
    (subs : List Uuid) : changeOrders d draw target (target :: subs) ≠ [] := by
  have hkinds : changeKinds target u ≠ [] := by
    rw [changeKinds]
    split <;> simp
  simp [changeOrders, hu, hkinds]

theorem commitChange_effects {actor target : User} {input : ChangeRequest} {fingerprint : Digest}
    {draw : Draw} {role : Role} {status : Status}
    (h : commitChange db now actor target input fingerprint draw role status = .ok db') :
    Moves d db.effects db'.effects := by
  obtain ⟨db₁, affected, access, updated, e₁, e₂, happly, -, hupdated, hinsert, henqueue, rfl, -⟩ :=
    commitChange_ok h
  obtain ⟨-, subs, rfl⟩ := applyChange_frame happly
  exact moves_submit (changeOrders_ne_nil hupdated subs) rfl hinsert henqueue

theorem provisioningCommit_effects {u : ProviderUser} {grant : Grant} {draw : Draw}
    (h : provisioningCommit db now u grant draw = .ok db') : Moves d db.effects db'.effects := by
  obtain ⟨-, -, db₁, target, e₁, e₂, m, -, -, hinsert, henqueue, rfl⟩ := provisioningCommit_ok h
  exact moves_submit (List.cons_ne_nil _ _) rfl hinsert henqueue

theorem commandEffects_effects {id : Uuid} {actor target : User} {action : Action} {hash : Digest}
    {names : Option (String × String)} {draw : Draw}
    (h : commandEffects db now id actor target action hash names draw = .ok db') :
    Moves d db.effects db'.effects := by
  obtain ⟨current, e₁, e₂, mirrored, -, hinsert, henqueue, rfl⟩ := commandEffects_ok h
  refine moves_submit ?_ rfl hinsert henqueue
  rw [commandOrders]
  split
  · exact List.cons_ne_nil _ _
  · exact List.cons_ne_nil _ _

theorem decideApplication_effects {actor target : User} {fields : ApplicationFields}
    {input : ReviewApplication} {draw : Draw}
    (h : decideApplication db now actor target fields input draw = .ok db') :
    Moves d db.effects db'.effects := by
  rw [decideApplication] at h
  split at h
  · obtain ⟨db₁, current, p, access, db₂, hprovision, -, -, heffects, rfl⟩ := acceptApplication_ok h
    obtain ⟨d₁, b, rfl⟩ := provision_frame hprovision
    have hmoves := commandEffects_effects (d := d) heffects
    exact hmoves
  · obtain rfl := pure_eq_ok.mp h
    exact .refl

/-- Every request leaves the outbox alone, recovers leases or enqueues an operation. -/
theorem request_effects (hsound : db.effects.Sound) {r : Request} (h : r.run desk db now = .ok db') :
    Moves d db.effects db'.effects := by
  cases r with
  | change input draw =>
    obtain rfl | ⟨a, target, role, status, -, -, -, -, -, -, hcommit⟩ := change_ok h
    · exact .refl
    · exact commitChange_effects hcommit
  | operationQuery subject id =>
    simp only [Request.run, operationQuery, bind_eq_ok, pure_eq_ok] at h
    obtain ⟨-, -, -, -, -, -, -, -, -, -, rfl⟩ := h
    exact (Effects.works_recoverExpired hsound now).moves
  | finalizeCreate subject id clerk verified draw =>
    obtain rfl | ⟨r, a, db₁, -, -, -, -, -, hcommit, rfl, -⟩ := finalizeCreate_ok h
    · exact .refl
    · have hmoves := provisioningCommit_effects (d := d) hcommit
      exact hmoves
  | review input draw =>
    obtain rfl | ⟨a, target, application, db₁, p, -, hdecide, -, rfl, -⟩ := review_ok h
    · exact .refl
    · have hmoves := decideApplication_effects (d := d) hdecide
      exact hmoves
  | rename input draw =>
    obtain rfl | ⟨a, target, d', db₁, names, c, -, -, -, -, -, heffects, rfl⟩ := rename_ok h
    · exact .refl
    · have hmoves := commandEffects_effects (d := d) heffects
      exact hmoves
  | _ => rw [(request_frame h).effects (by simp [Request.writes])]

/-! ## The system -/

/-- The attempt of a claim was recorded as not sent. -/
def Effects.Spent (e : Effects) (token : Uuid) : Prop :=
  ∃ a ∈ e.attempts, a.claimToken = token ∧ a.outcome = some .notSent

theorem Effects.Spent.extends {e e' : Effects} {token : Uuid} (h : e.Spent token)
    (hext : Extends e e') : e'.Spent token := by
  obtain ⟨a, ha, htoken, houtcome⟩ := h
  obtain ⟨a', ha', hfixed, hkept⟩ := hext.attempts.kept a ha
  exact ⟨a', ha', (Attempt.of_fixed hfixed).1.trans htoken, hkept _ houtcome⟩

/-- What a run keeps of the claims on the outbox and of their deliveries. -/
structure Delivering (s : System) : Prop where
  sound : s.db.effects.Sound
  claims : ∀ c ∈ s.effectClaims, s.db.effects.Holder c
  tokens : KeyUnique EffectClaim.token s.effectClaims
  delivered : ∀ c ∈ s.delivered, c ∈ s.effectClaims ∧ c.reconcile = false
  reported : ∀ c ∈ s.reported, c ∈ s.effectClaims
  once : s.delivered.Nodup
  spent : ∀ a ∈ s.db.effects.attempts, a.outcome = some .notSent →
    ∃ c ∈ s.reported, c.token = a.claimToken
  order : s.delivered.Pairwise fun c c' => c.delivery.effectId = c'.delivery.effectId →
    s.db.effects.Spent c.token

/-- A later state of a run: what happened to the outbox stays, and new claims have new tokens. -/
structure Later (s s' : System) : Prop where
  outbox : Extends s.db.effects s'.db.effects
  fresh : ∀ c ∈ s'.effectClaims, c ∉ s.effectClaims →
    ∀ a ∈ s.db.effects.attempts, a.claimToken ≠ c.token

theorem Later.refl (s : System) : Later s s := ⟨.refl _, fun _ hc hnot => absurd hc hnot⟩

theorem Later.trans {s s' s'' : System} (h : Later s s') (h' : Later s' s'') : Later s s'' := by
  refine ⟨h.outbox.trans h'.outbox, ?_⟩
  intro c hc hnot a ha
  by_cases hmem : c ∈ s'.effectClaims
  · exact h.fresh c hmem hnot a ha
  · obtain ⟨a', ha', hfixed, -⟩ := h.outbox.attempts.kept a ha
    rw [← (Attempt.of_fixed hfixed).1]
    exact h'.fresh c hc hmem a' ha'

variable {s s' : System}

/-- Moves of the outbox, under which at most one claim is handed out. -/
theorem Delivering.moves (h : Delivering s) {c : Option EffectClaim}
    (hmoves : Moves d s.db.effects s'.db.effects)
    (hclaims : s'.effectClaims = s.effectClaims ++ c.toList)
    (hheld : ∀ c' ∈ c, s'.db.effects.Holder c' ∧ ∀ a ∈ s.db.effects.attempts, a.claimToken ≠ c'.token)
    (hdelivered : s'.delivered = s.delivered) (hreported : s'.reported = s.reported) :
    Delivering s' ∧ Later s s' := by
  have hext := hmoves.extends h.sound
  have hnew : ∀ c' ∈ c, ∀ c₀ ∈ s.effectClaims, c₀.token ≠ c'.token := by
    intro c' hc' c₀ hc₀
    obtain ⟨a, ha, htoken, -⟩ := (h.claims c₀ hc₀).attempt
    rw [← htoken]
    exact (hheld c' hc').2 a ha
  refine ⟨⟨hmoves.sound h.sound, ?_, ?_, ?_, ?_, ?_, ?_, ?_⟩, hext, ?_⟩
  · intro c' hc'
    rw [hclaims] at hc'
    rcases List.mem_append.mp hc' with hc' | hc'
    · exact (h.claims c' hc').extends hext
    · exact (hheld c' (Option.mem_toList.mp hc')).1
  · rw [hclaims]
    cases c with
    | none =>
      rw [Option.toList_none, List.append_nil]
      exact h.tokens
    | some c => exact keyUnique_concat.mpr ⟨h.tokens, hnew c rfl⟩
  · intro c' hc'
    rw [hdelivered] at hc'
    rw [hclaims]
    exact ⟨List.mem_append_left _ (h.delivered c' hc').1, (h.delivered c' hc').2⟩
  · intro c' hc'
    rw [hreported] at hc'
    rw [hclaims]
    exact List.mem_append_left _ (h.reported c' hc')
  · rw [hdelivered]
    exact h.once
  · intro a' ha' hspent
    obtain ⟨a, ha, hfixed, hsame⟩ := hmoves.traced ha' hspent
    rw [hreported, (Attempt.of_fixed hfixed).1]
    exact h.spent a ha hsame
  · rw [hdelivered]
    exact h.order.imp fun hspent heq => (hspent heq).extends hext
  · intro c' hc' hnot
    rw [hclaims] at hc'
    rcases List.mem_append.mp hc' with hc' | hc'
    · exact absurd hc' hnot
    · exact (hheld c' (Option.mem_toList.mp hc')).2

/-- Moves of the outbox under which no claim is handed out. -/
theorem Delivering.quiet (h : Delivering s) (hmoves : Moves d s.db.effects s'.db.effects)
    (hclaims : s'.effectClaims = s.effectClaims) (hdelivered : s'.delivered = s.delivered)
    (hreported : s'.reported = s.reported) : Delivering s' ∧ Later s s' :=
  h.moves (c := none) hmoves (by simpa using hclaims) (fun _ hc => absurd hc (Option.not_mem_none _))
    hdelivered hreported

/-- The writes on one effect: of two claims to deliver it, one was spent before the other was
handed out. -/
theorem Delivering.spent_or (h : Delivering s) {c c' : EffectClaim} (hc : c ∈ s.effectClaims)
    (hc' : c' ∈ s.effectClaims) (hne : c ≠ c') (heffect : c.delivery.effectId = c'.delivery.effectId)
    (hwrite : c.reconcile = false) (hwrite' : c'.reconcile = false) :
    s.db.effects.Spent c.token ∨ s.db.effects.Spent c'.token := by
  obtain ⟨a, ha, htoken, hparent, -, hkind⟩ := (h.claims c hc).attempt
  obtain ⟨a', ha', htoken', hparent', -, hkind'⟩ := (h.claims c' hc').attempt
  rw [hwrite] at hkind
  rw [hwrite'] at hkind'
  obtain ⟨r, hr, hid, -⟩ := (h.claims c hc).row
  have hsound := h.sound.lanes.sound r hr
  have hmem : a.entry ∈ attemptLog s.db.effects.attempts r.id :=
    mem_attemptLog.mpr ⟨a, ha, hparent.trans hid.symm, rfl⟩
  have hmem' : a'.entry ∈ attemptLog s.db.effects.attempts r.id :=
    mem_attemptLog.mpr ⟨a', ha', hparent'.trans (heffect.symm.trans hid.symm), rfl⟩
  have hdistinct : a.entry ≠ a'.entry := by
    intro heq
    have htokens : a.claimToken = a'.claimToken := congrArg Fenced.Entry.token heq
    exact hne (h.tokens.eq_of_key hc hc' (htoken.symm.trans (htokens.trans htoken')))
  have hout : ∀ x : Attempt, x.entry.spent .notSent → x.outcome = some .notSent :=
    fun _ hx => (Fenced.Entry.spent_iff.mp hx).2
  rcases hsound.spent_or hmem hmem' hdistinct (by simp [Attempt.entry, hkind])
      (by simp [Attempt.entry, hkind']) with hspent | hspent
  · exact .inl ⟨a, ha, htoken, hout a hspent⟩
  · exact .inr ⟨a', ha', htoken', hout a' hspent⟩

/-- A worker writes at the provider under a claim that was not used before. -/
theorem Delivering.deliver (h : Delivering s) {c : EffectClaim} (hc : c ∈ s.effectClaims)
    (hwrite : c.reconcile = false) (hnew : c ∉ s.delivered) (hunreported : c ∉ s.reported) :
    Delivering { s with delivered := s.delivered ++ [c] } := by
  refine ⟨h.sound, h.claims, h.tokens, ?_, h.reported, ?_, h.spent, ?_⟩
  · intro c' hc'
    rcases List.mem_append.mp hc' with hc' | hc'
    · exact h.delivered c' hc'
    · rw [List.mem_singleton.mp hc']
      exact ⟨hc, hwrite⟩
  · exact List.nodup_append.mpr ⟨h.once, List.nodup_singleton _, fun a ha b hb heq =>
      hnew (by rw [← List.mem_singleton.mp hb, ← heq]; exact ha)⟩
  · rw [List.pairwise_append]
    refine ⟨h.order, List.pairwise_singleton _ _, ?_⟩
    intro b hb x hx
    rw [List.mem_singleton.mp hx]
    intro heffect
    obtain ⟨hbclaim, hbwrite⟩ := h.delivered b hb
    have hne : b ≠ c := fun heq => hnew (heq ▸ hb)
    rcases h.spent_or hbclaim hc hne heffect hbwrite hwrite with hspent | ⟨a, ha, htoken, hout⟩
    · exact hspent
    · -- the new one was not reported, so nothing was recorded for it
      obtain ⟨c₀, hc₀, htoken₀⟩ := h.spent a ha hout
      obtain rfl := h.tokens.eq_of_key (h.reported c₀ hc₀) hc (htoken₀.trans htoken)
      exact absurd hc₀ hunreported

/-- A worker reports what came of its claim. -/
theorem Delivering.finish (h : Delivering s) {c : EffectClaim} {result : AttemptOutcome} {e : Effects}
    (hc : c ∈ s.effectClaims) (hfinish : s.db.effects.finish now c result = .ok e) :
    Delivering { s with db := { s.db with effects := e }, reported := s.reported ++ [c] } ∧
      Later s { s with db := { s.db with effects := e }, reported := s.reported ++ [c] } := by
  obtain ⟨hsound, hext, hspent⟩ := Effects.finish_live h.sound (h.claims c hc) hfinish
  refine ⟨⟨hsound, fun c' hc' => (h.claims c' hc').extends hext, h.tokens, h.delivered, ?_, h.once, ?_,
    h.order.imp fun hs heq => (hs heq).extends hext⟩, hext, fun _ hc' hnot => absurd hc' hnot⟩
  · intro c' hc'
    rcases List.mem_append.mp hc' with hc' | hc'
    · exact h.reported c' hc'
    · rw [List.mem_singleton.mp hc']
      exact hc
  · intro a' ha' hout
    obtain ⟨a, ha, hfixed, hsame | htoken⟩ := hspent a' ha' hout
    · obtain ⟨c', hc', htoken'⟩ := h.spent a ha hsame
      exact ⟨c', List.mem_append_left _ hc', htoken'.trans (Attempt.of_fixed hfixed).1.symm⟩
    · exact ⟨c, List.mem_append_right _ (List.mem_singleton_self c),
        htoken.symm.trans (Attempt.of_fixed hfixed).1.symm⟩

theorem delivering_start (b : Business) : Delivering (.start b) where
  sound := Effects.sound_empty
  claims _ hc := absurd hc List.not_mem_nil
  tokens := .nil
  delivered _ hc := absurd hc List.not_mem_nil
  reported _ hc := absurd hc List.not_mem_nil
  once := .nil
  spent _ ha := absurd ha List.not_mem_nil
  order := .nil

theorem Delivering.step (h : Delivering s) {ev : Event} (hstep : s.step desk ev = .ok s') :
    Delivering s' ∧ Later s s' := by
  cases ev with
  | request r now =>
    obtain ⟨db, hrun, hs⟩ := bind_eq_ok.mp hstep
    obtain rfl := pure_eq_ok.mp hs
    exact h.quiet (d := s.db.directory) (request_effects h.sound hrun) rfl rfl rfl
  | claimEffect worker token now =>
    obtain ⟨x, hclaim, hs⟩ := bind_eq_ok.mp hstep
    obtain rfl := pure_eq_ok.mp hs
    obtain ⟨hworks, hheld⟩ := Effects.claim_ok h.sound hclaim
    exact h.moves hworks.moves rfl (fun c hc => ⟨(hheld c hc).1, (hheld c hc).2.2⟩) rfl rfl
  | reconcileEffect worker id fence token now =>
    obtain ⟨x, hclaim, hs⟩ := bind_eq_ok.mp hstep
    obtain rfl := pure_eq_ok.mp hs
    obtain ⟨hworks, hheld, -, hfresh⟩ := Effects.reconcile_ok h.sound hclaim
    refine h.moves (c := some x.2) hworks.moves rfl ?_ rfl rfl
    intro c hc
    obtain rfl := Option.some.inj hc
    exact ⟨hheld, hfresh⟩
  | deliver c =>
    simp only [System.step, bind_eq_ok, ensure_eq_ok, pure_eq_ok] at hstep
    obtain ⟨-, ⟨hc, hwrite, hnew, hunreported⟩, rfl⟩ := hstep
    exact ⟨h.deliver hc (by simpa using hwrite) hnew hunreported, .refl _, fun _ hc' hnot => absurd hc' hnot⟩
  | finishEffect c result now =>
    simp only [System.step, bind_eq_ok, ensure_eq_ok, pure_eq_ok] at hstep
    obtain ⟨-, hc, e, hfinish, rfl⟩ := hstep
    exact h.finish hc hfinish
  | accept o result draw now =>
    simp only [System.step, bind_eq_ok, pure_eq_ok] at hstep
    obtain ⟨-, -, db, haccept, rfl⟩ := hstep
    refine h.quiet (d := s.db.directory) ?_ rfl rfl rfl
    obtain rfl | ⟨r, u, db₁, -, -, -, hcommit, -, rfl, -⟩ := accept_ok haccept
    · exact .refl
    · have hmoves := provisioningCommit_effects (d := s.db.directory) hcommit
      exact hmoves
  | _ =>
    have hframe := step_frame hstep
    refine h.quiet (d := s.db.directory) ?_ (hframe.effectClaims (by simp [Event.writes]))
      (hframe.delivered (by simp [Event.writes])) (hframe.reported (by simp [Event.writes]))
    rw [hframe.db.effects (by simp [Event.writes])]

theorem Delivering.of_reachable (h : (machine desk).Reachable s) : Delivering s := by
  refine h.invariant ?_ fun _ _ _ hs hstep => (hs.step hstep).1
  rintro s ⟨b, -, rfl⟩
  exact delivering_start b

theorem Later.of_run {t : List (Transition System Event)} (h : Delivering s)
    (hrun : (machine desk).Run s t s') : Later s s' :=
  hrun.relates Later.refl (fun _ _ _ => Later.trans) (fun _ _ _ hs hstep => (hs.step hstep).1)
    (fun _ _ _ hs hstep => (hs.step hstep).2) h

/-! ## Queues -/

/-- The effects of a user, in the order they were enqueued. -/
def Effects.queueOf (e : Effects) (user : Uuid) : List Effect :=
  e.rows.filter fun r => r.targetUserId = user

/-- Finished ones, then at most one in any other state, then pending ones. -/
def QueueShape (states : List EffectState) : Prop :=
  ∃ done head rest, states = done ++ head ++ rest ∧ (∀ x ∈ done, x.terminal) ∧ head.length ≤ 1 ∧
    ∀ x ∈ rest, x = .pending

theorem queueShape_of_pairwise {states : List EffectState}
    (h : states.Pairwise fun a b => a.terminal ∨ b = .pending) : QueueShape states := by
  induction states with
  | nil => exact ⟨[], [], [], rfl, nofun, Nat.zero_le _, nofun⟩
  | cons x states ih =>
    obtain ⟨hx, hrest⟩ := List.pairwise_cons.mp h
    by_cases hterminal : x.terminal
    · obtain ⟨done, head, rest, rfl, hdone, hlen, hpending⟩ := ih hrest
      refine ⟨x :: done, head, rest, rfl, ?_, hlen, hpending⟩
      intro y hy
      rcases List.mem_cons.mp hy with rfl | hy
      · exact hterminal
      · exact hdone y hy
    · exact ⟨[], [x], states, rfl, nofun, Nat.le_refl _, fun y hy => (hx y hy).resolve_left hterminal⟩

theorem Effects.Core.queueOf {e : Effects} (h : e.Core) (user : Uuid) :
    ((e.queueOf user).Pairwise fun a b => a.sequence < b.sequence) ∧
      QueueShape ((e.queueOf user).map Effect.state) := by
  have horder : (e.queueOf user).Pairwise fun a b => a.sequence < b.sequence := h.order.filter _
  refine ⟨horder, queueShape_of_pairwise (List.pairwise_map.mpr (horder.imp_of_mem ?_))⟩
  intro a b ha hb hlt
  obtain ⟨hmema, husera⟩ := List.mem_filter.mp ha
  obtain ⟨hmemb, huserb⟩ := List.mem_filter.mp hb
  exact h.queue a hmema b hmemb ((of_decide_eq_true husera).trans (of_decide_eq_true huserb).symm) hlt

/-- The effect of a claim is at the head of its queue: all before it are finished. -/
theorem Delivering.prior (h : Delivering s) {c : EffectClaim} (hc : c ∈ s.effectClaims) :
    ∃ r ∈ s.db.effects.rows, r.id = c.delivery.effectId ∧ ∀ a ∈ s.db.effects.rows,
      a.targetUserId = r.targetUserId → a.sequence < r.sequence → a.state.terminal := by
  obtain ⟨⟨a, ha, -, hparent, -⟩, r, hr, hid, -⟩ := h.claims c hc
  refine ⟨r, hr, hid, fun b hb huser hseq => ?_⟩
  rcases h.sound.queue b hb r hr huser hseq with hterminal | hpending
  · exact hterminal
  · exact absurd (hparent.trans hid.symm) (h.sound.untried r hr hpending a ha)

/-- An effect is delivered at most as often as it is dispatched. -/
theorem Delivering.bound (h : Delivering s) (id : Uuid) :
    (s.delivered.filter fun c => c.delivery.effectId = id).length ≤ 5 := by
  let entries := attemptLog s.db.effects.attempts id
  by_cases hrow : ∃ r ∈ s.db.effects.rows, r.id = id
  · obtain ⟨r, hr, rfl⟩ := hrow
    have hbound := (h.sound.lanes.sound r hr).bound
    rw [List.countP_eq_length_filter] at hbound
    refine Nat.le_trans ?_ hbound
    have hnodup : ((s.delivered.filter fun c => c.delivery.effectId = r.id).map
        EffectClaim.token).Nodup := by
      refine List.Nodup.map_on ?_ (h.once.filter _)
      intro c hc c' hc' heq
      exact h.tokens.eq_of_key (h.delivered c (List.mem_filter.mp hc).1).1
        (h.delivered c' (List.mem_filter.mp hc').1).1 heq
    have hsubset : (s.delivered.filter fun c => c.delivery.effectId = r.id).map EffectClaim.token ⊆
        (entries.filter Fenced.Entry.write).map Fenced.Entry.token := by
      intro token htoken
      obtain ⟨c, hc, rfl⟩ := List.mem_map.mp htoken
      obtain ⟨hmem, heffect⟩ := List.mem_filter.mp hc
      obtain ⟨hclaim, hwrite⟩ := h.delivered c hmem
      obtain ⟨a, ha, hatoken, hparent, -, hkind⟩ := (h.claims c hclaim).attempt
      rw [hwrite] at hkind
      refine List.mem_map.mpr ⟨a.entry, List.mem_filter.mpr ⟨?_, ?_⟩, hatoken⟩
      · exact mem_attemptLog.mpr ⟨a, ha, hparent.trans (of_decide_eq_true heffect), rfl⟩
      · simp [Attempt.entry, hkind]
    have hlength := (hnodup.subperm hsubset).length_le
    simpa using hlength
  · have hnone : (s.delivered.filter fun c => c.delivery.effectId = id) = [] := by
      rw [List.filter_eq_nil_iff]
      intro c hc heq
      obtain ⟨r, hr, hid, -⟩ := (h.claims c (h.delivered c hc).1).row
      exact hrow ⟨r, hr, hid.trans (of_decide_eq_true heq)⟩
    rw [hnone]
    exact Nat.zero_le _

/-- The state of an operation, read off its effects. -/
theorem Effects.Sound.operation {e : Effects} (h : e.Sound) {o : Operation} (ho : o ∈ e.operations) :
    (o.state = .completed ↔ ∀ r ∈ e.rows, r.operationId = o.id → r.state.terminal) ∧
    (o.state = .needsReconciliation ↔ ∃ r ∈ e.rows, r.operationId = o.id ∧ r.state.unresolved) ∧
    (o.state = .pendingEffects ↔ (∃ r ∈ e.rows, r.operationId = o.id ∧ ¬ r.state.terminal) ∧
      ∀ r ∈ e.rows, r.operationId = o.id → ¬ r.state.unresolved) := by
  have hexclusive : ∀ x : EffectState, x.unresolved → ¬ x.terminal := by
    intro x hx
    cases x <;> simp_all [EffectState.unresolved, EffectState.terminal]
  rw [h.settled o.id o ho rfl, Effects.stateOf]
  by_cases hunresolved : ∃ r ∈ e.rows, r.operationId = o.id ∧ r.state.unresolved
  · obtain ⟨r, hr, hop, hu⟩ := hunresolved
    have hany : ((e.rows.filter fun r => r.operationId = o.id).any fun r => r.state.unresolved) = true :=
      List.any_eq_true.mpr ⟨r, by simp [hr, hop], hu⟩
    simp only [hany, if_true]
    refine ⟨⟨fun hs => absurd hs (by decide), fun hall => absurd (hall r hr hop) (hexclusive _ hu)⟩, ⟨fun _ => ⟨r, hr, hop, hu⟩,
      fun _ => trivial⟩, fun hs => absurd hs (by decide), fun hp => absurd hu (hp.2 r hr hop)⟩
  · have hany : ((e.rows.filter fun r => r.operationId = o.id).any fun r => r.state.unresolved) = false := by
      rw [List.any_eq_false]
      intro r hr hu
      obtain ⟨hmem, hop⟩ := List.mem_filter.mp hr
      exact hunresolved ⟨r, hmem, of_decide_eq_true hop, hu⟩
    simp only [hany, Bool.false_eq_true, if_false]
    by_cases hterminal : ∀ r ∈ e.rows, r.operationId = o.id → r.state.terminal
    · have hall : ((e.rows.filter fun r => r.operationId = o.id).all fun r => r.state.terminal) = true := by
        rw [List.all_eq_true]
        intro r hr
        obtain ⟨hmem, hop⟩ := List.mem_filter.mp hr
        exact hterminal r hmem (of_decide_eq_true hop)
      simp only [hall, if_true]
      refine ⟨⟨fun _ => hterminal, fun _ => trivial⟩, ⟨fun hs => absurd hs (by decide), fun hu => absurd hu hunresolved⟩, fun hs => absurd hs (by decide), ?_⟩
      rintro ⟨⟨r, hr, hop, hlive⟩, -⟩
      exact absurd (hterminal r hr hop) hlive
    · have hall : ((e.rows.filter fun r => r.operationId = o.id).all fun r => r.state.terminal) = false := by
        rw [Bool.eq_false_iff]
        intro hall
        rw [List.all_eq_true] at hall
        exact hterminal fun r hr hop => hall r (List.mem_filter.mpr ⟨hr, by simp [hop]⟩)
      simp only [hall, Bool.false_eq_true, if_false]
      refine ⟨⟨fun hs => absurd hs (by decide), fun ht => absurd ht hterminal⟩, ⟨fun hs => absurd hs (by decide), fun hu => absurd hu hunresolved⟩,
        fun _ => ⟨?_, fun r hr hop hu => hunresolved ⟨r, hr, hop, hu⟩⟩, fun _ => trivial⟩
      simp only [not_forall] at hterminal
      obtain ⟨r, hr, hop, hlive⟩ := hterminal
      exact ⟨r, hr, hop, hlive⟩

/-- In every reachable state the effects of a user are finished ones, at most one that is worked on,
and pending ones, so an effect is delivered only when all before it are finished; an effect is
delivered at most five times, and every time but the last the attempt was recorded as not sent; an
effect with any other outcome gets no new claim to deliver; a stale result changes nothing; and the
state of an operation is the one its effects stand for. -/
theorem effects_ordered_and_delivered_once (h : (machine desk).Reachable s) :
    (∀ user, ((s.db.effects.queueOf user).Pairwise fun a b => a.sequence < b.sequence) ∧
      QueueShape ((s.db.effects.queueOf user).map Effect.state)) ∧
    (∀ c s', s.step desk (.deliver c) = .ok s' →
      ∃ r ∈ s.db.effects.rows, r.id = c.delivery.effectId ∧ ∀ a ∈ s.db.effects.rows,
        a.targetUserId = r.targetUserId → a.sequence < r.sequence → a.state.terminal) ∧
    (∀ id, (s.delivered.filter fun c => c.delivery.effectId = id).length ≤ 5 ∧
      (s.delivered.filter fun c => c.delivery.effectId = id).Pairwise
        fun c _ => s.db.effects.Spent c.token) ∧
    (∀ t s', (machine desk).Run s t s' → ∀ a ∈ s.db.effects.attempts, ∀ o, a.outcome = some o →
      o ≠ .notSent → ∀ c ∈ s'.effectClaims, c.delivery.effectId = a.parentId → c.reconcile = false →
        c ∈ s.effectClaims) ∧
    (∀ c result now s', s.step desk (.finishEffect c result now) = .ok s' →
      (∀ r ∈ s.db.effects.rows, r.id = c.delivery.effectId → ¬ Effects.holds c r now) →
      s'.db = s.db) ∧
    (∀ o ∈ s.db.effects.operations,
      (o.state = .completed ↔ ∀ r ∈ s.db.effects.rows, r.operationId = o.id → r.state.terminal) ∧
      (o.state = .needsReconciliation ↔
        ∃ r ∈ s.db.effects.rows, r.operationId = o.id ∧ r.state.unresolved) ∧
      (o.state = .pendingEffects ↔
        (∃ r ∈ s.db.effects.rows, r.operationId = o.id ∧ ¬ r.state.terminal) ∧
        ∀ r ∈ s.db.effects.rows, r.operationId = o.id → ¬ r.state.unresolved)) := by
  have hs := Delivering.of_reachable h
  refine ⟨fun user => hs.sound.toCore.queueOf user, ?_, fun id => ⟨hs.bound id, ?_⟩, ?_, ?_,
    fun o ho => hs.sound.operation ho⟩
  · intro c s' hstep
    simp only [System.step, bind_eq_ok, ensure_eq_ok] at hstep
    obtain ⟨-, ⟨hc, -⟩, -⟩ := hstep
    exact hs.prior hc
  · refine (hs.order.filter _).imp_of_mem ?_
    intro c c' hc hc' hspent
    exact hspent ((of_decide_eq_true (List.mem_filter.mp hc).2).trans
      (of_decide_eq_true (List.mem_filter.mp hc').2).symm)
  · intro t s' hrun a ha o ho hsent c hc heffect hwrite
    have hlater := Later.of_run hs hrun
    have hs' := Delivering.of_reachable (h.run hrun)
    obtain ⟨a', ha', htoken, hparent, -, hkind⟩ := (hs'.claims c hc).attempt
    rw [hwrite] at hkind
    obtain ⟨b, hb, hfixed⟩ :=
      hlater.outbox.attempts.writes a ha o ho hsent a' ha' (hparent.trans heffect) hkind
    by_contra hnot
    exact hlater.fresh c hc hnot b hb ((Attempt.of_fixed hfixed).1.trans htoken)
  · intro c result now s' hstep hstale
    simp only [System.step, bind_eq_ok, ensure_eq_ok, pure_eq_ok] at hstep
    obtain ⟨-, -, e, hfinish, rfl⟩ := hstep
    obtain rfl | ⟨r, hr, hid, hholds, -⟩ := Effects.finish_ok hfinish
    · rfl
    · exact absurd hholds (hstale r hr hid)

/-! ### A run -/

def sampleClaim (token fence : Nat) : EffectClaim where
  delivery := ⟨310, 7, 200, "user_b", .revokeSessions, .staffSupport, .onboarding, 2, none, none⟩
  token := BitVec.ofNat 128 token
  fence := fence
  worker := "w"
  reconcile := false

def sampleEvents : List Event := [
  .request (.bootstrap (sampleUser "user_a") (sampleDraw 1)) 0,
  .request (.onboard (sampleUser "user_b") (sampleDraw 2)) 0,
  .request (.change ⟨"user_a", 7, 200, 1, .setRole .staffSupport⟩ (sampleDraw 3)) 0,
  .claimEffect "w" 50 1,
  .deliver (sampleClaim 50 1),
  .finishEffect (sampleClaim 50 1) .notSent 2,
  .claimEffect "w" 51 40000000,
  .deliver (sampleClaim 51 2)]

set_option maxRecDepth 10000 in
theorem delivered_again : ∃ s, (machine sampleDesk).Reachable s ∧ s.delivered.length = 2 ∧
    ∀ id, (s.delivered.filter fun c => c.delivery.effectId = id).length ≤ 5 ∧
      (s.delivered.filter fun c => c.delivery.effectId = id).Pairwise
        fun c _ => s.db.effects.Spent c.token := by
  have hrun : (sampleEvents.foldlM (System.step sampleDesk) (.start sampleBusiness) >>=
      fun s => .ok s.delivered.length) = .ok 2 := by
    decide +kernel
  obtain ⟨s, hs, hlength⟩ := bind_eq_ok.mp hrun
  obtain ⟨t, ht⟩ := Machine.Run.foldlM (M := machine sampleDesk) (fun _ _ _ h => h) (.nil _) hs
  have hreachable : (machine sampleDesk).Reachable s := ⟨_, t, ⟨_, sampleBusiness_valid, rfl⟩, ht⟩
  obtain ⟨-, -, hdelivered, -⟩ := effects_ordered_and_delivered_once hreachable
  exact ⟨s, hreachable, Except.ok.inj hlength, hdelivered⟩

end ShaponTravels.Identity
