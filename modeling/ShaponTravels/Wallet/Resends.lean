import ShaponTravels.Wallet.Deliveries

/-!
# Resends — when a delivery is attempted again

Every transaction moves each delivery by one step of its history, so a delivery with attempts waits for
another one only after a retry of the staff.
-/

namespace ShaponTravels.Wallet.Notifications

open Library
open Nonissuance (Actor)

variable {d d' : Delivery} {h h' : List Attempt} {before : List Attempt} {a : Attempt}
  {db db' : Db} {draw : Draw} {retry : Option Bool}

/-! ## Runs -/

theorem Db.announce_aside {r : Request} {event : String} (h : db.announce r event draw = .ok db') :
    db.Aside db' := by
  simp only [Db.announce, bind_eq_ok, pure_eq_ok] at h
  obtain ⟨events, -, rfl⟩ := h
  exact ⟨⟨rfl, rfl⟩, rfl⟩

variable {pf : Platform} {input : Input}

/-- One transaction, by the party that ran it. -/
inductive Db.Ran (pf : Platform) (db : Db) (draw : Draw) (db' : Db) : Input → Prop where
  | worker (command : Command) (reply : Reply)
      (ran : (db.recover draw).command pf command draw = .ok (db', reply)) :
      Ran pf db draw db' (.worker command)
  | retry (actor : Actor) (input : Retry) (retried : Db.Retried actor input db db') :
      Ran pf db draw db' (.retry actor input)
  | announce (r : Request) (event : String) (aside : db.Aside db') :
      Ran pf db draw db' (.announce r event)

theorem Db.step_ran (hs : db.Sound) (h : db.step pf input draw = .ok db') :
    Db.Ran pf db draw db' input := by
  cases input with
  | worker command =>
    obtain ⟨⟨db₁, reply⟩, hran, rfl⟩ := map_eq_ok.mp h
    exact .worker command reply hran
  | retry actor input =>
    obtain ⟨⟨db₁, result⟩, hran, rfl⟩ := map_eq_ok.mp h
    exact .retry actor input (Db.retry_retried hs hran)
  | announce r event => exact .announce r event (Db.announce_aside h)

theorem Db.Retried.sound {actor : Actor} {input : Retry} (hr : Db.Retried actor input db db')
    (hs : db.Sound) : db'.Sound := by
  rcases hr.effect with ⟨-, rfl⟩ | ⟨hfresh, hadvances, x, hx, hactions⟩
  · exact hs
  · refine hadvances.sound hs ?_
    rw [hactions]
    exact keyUnique_concat.mpr ⟨hs.actions, fun y hy => hx ▸ hfresh y hy⟩

theorem Db.Ran.sound (hr : Db.Ran pf db draw db' input) (hs : db.Sound) : db'.Sound := by
  cases hr with
  | worker command reply ran =>
    have hrecover := @Db.recover_sound _ draw hs
    obtain ⟨hadvances, hactions⟩ := Db.command_advances hrecover ran
    exact hadvances.sound hrecover (hactions ▸ hrecover.actions)
  | retry actor input retried => exact retried.sound hs
  | announce r event aside => exact aside.sound hs

theorem step_sound {i : Input × Draw} (hs : db.Sound) (h : (machine pf).step db i db') : db'.Sound :=
  (Db.step_ran hs h).sound hs

theorem init_sound (h : (machine pf).init db) : db.Sound := by
  obtain ⟨hdeliveries, hattempts, hactions⟩ := h
  refine ⟨?_, ?_, ?_, ?_, ?_⟩
  · rw [hdeliveries]
    exact KeyUnique.nil
  · rw [hattempts]
    exact KeyUnique.nil
  · rw [hattempts]
    exact fun a ha => absurd ha List.not_mem_nil
  · rw [hdeliveries]
    exact fun d hd => absurd hd List.not_mem_nil
  · rw [hactions]
    exact KeyUnique.nil

/-! ### What a transaction keeps -/

/-- An attempt with an outcome stays on record. -/
theorem Db.Advances.keeps (ha : Db.Advances retry db db') (hs : db.Sound) (hmem : a ∈ db.attempts)
    (hrecorded : a.outcome ≠ none) : a ∈ db'.attempts := by
  obtain ⟨d, hd, hid⟩ := hs.owners a hmem
  obtain ⟨d', -, -, hnext⟩ := ha.next d hd
  have hkept := hnext.keeps (Db.mem_history.mpr ⟨hmem, hid.symm⟩) hrecorded
  exact (Db.mem_history.mp hkept).1

theorem Db.Ran.keeps (hr : Db.Ran pf db draw db' input) (hs : db.Sound) (hmem : a ∈ db.attempts)
    (hrecorded : a.outcome ≠ none) : a ∈ db'.attempts := by
  cases hr with
  | worker command reply ran =>
    have hrecover := @Db.recover_sound _ draw hs
    have hkept := (@Db.recover_advances _ draw hs).keeps hs hmem hrecorded
    exact (Db.command_advances hrecover ran).1.keeps hrecover hkept hrecorded
  | retry actor input retried =>
    rcases retried.effect with ⟨-, rfl⟩ | ⟨-, hadvances, -⟩
    · exact hmem
    · exact hadvances.keeps hs hmem hrecorded
  | announce r event aside => exact aside.untouched.attempts ▸ hmem

/-- An operation of a retry stays on record. -/
theorem Db.Ran.operation (hr : Db.Ran pf db draw db' input) (hs : db.Sound) {x : Action}
    (hx : x ∈ db.actions) : x ∈ db'.actions := by
  cases hr with
  | worker command reply ran =>
    have hrecover := @Db.recover_sound _ draw hs
    rw [(Db.command_advances hrecover ran).2]
    exact hx
  | retry actor input retried =>
    rcases retried.effect with ⟨-, rfl⟩ | ⟨-, -, y, -, hactions⟩
    · exact hx
    · rw [hactions]
      exact List.mem_append_left _ hx
  | announce r event aside => exact aside.actions ▸ hx
/-! ### What a worker does to one delivery -/

/-- A worker's transaction starts an attempt of a delivery, or leaves its attempts and generation. -/
inductive Worked (d : Delivery) (h : List Attempt) (d' : Delivery) (h' : List Attempt) : Prop where
  | quiet (length : h'.length = h.length) (generation : d'.generation = d.generation)
      (pending : d'.state = .pending → d' = d ∧ h' = h)
  | started (a : Attempt) (new : h' = h ++ [a]) (starts : Starts d d' a)

theorem Outcome.state_ne_pending (o : Outcome) : o.state ≠ .pending := by
  cases o <;> decide

theorem Next.worked (hn : Next none d h d' h') : Worked d h d' h' := by
  cases hn with
  | same row attempts =>
    subst row attempts
    exact .quiet rfl rfl fun _ => ⟨rfl, rfl⟩
  | ended o before a a' old new ends =>
    subst old new
    refine .quiet (by rw [List.length_append, List.length_append]; rfl) ends.generation fun hpending => ?_
    rw [ends.state] at hpending
    exact absurd hpending o.state_ne_pending
  | started a new starts => exact .started a new starts
  | requeued acknowledged asked attempts requeues => cases asked

/-- The recovery leaves a delivery, or ends its attempt in an unknown state. -/
theorem Db.recover_next (hs : db.Sound) (hd : d ∈ db.deliveries) :
    ∃ d₁ ∈ (db.recover draw).deliveries, d₁.id = d.id ∧
      ((d₁ = d ∧ (db.recover draw).history d.id = db.history d.id) ∨
        (d₁.state = .unknown ∧ d₁.generation = d.generation ∧
          ((db.recover draw).history d.id).length = (db.history d.id).length)) := by
  obtain ⟨d₁, hd₁, hid, hnext⟩ := (@Db.recover_advances _ draw hs).next d hd
  refine ⟨d₁, hd₁, hid, ?_⟩
  have habandoned : d₁ = d ∨ d₁.state = .unknown := by
    obtain ⟨x, hx, rfl⟩ := List.mem_map.mp hd₁
    have hxid : (Db.abandoned draw x).id = x.id := by
      unfold Db.abandoned
      split <;> rfl
    obtain rfl := hs.deliveries.eq_of_key hx hd (hxid.symm.trans hid)
    unfold Db.abandoned
    split
    · exact .inr rfl
    · exact .inl rfl
  cases hnext with
  | same row attempts => exact .inl ⟨row, attempts⟩
  | ended o before a a' old new ends =>
    rcases habandoned with rfl | hunknown
    · have hstate := ends.state
      rw [ends.sending] at hstate
      cases o <;> cases hstate
    · refine .inr ⟨hunknown, ends.generation, ?_⟩
      rw [old, new, List.length_append, List.length_append]
      rfl
  | started a new starts =>
    rcases habandoned with rfl | hunknown
    · rcases starts.ready with hready | ⟨hready, -⟩
      · rw [starts.state] at hready
        cases hready
      · rw [starts.state] at hready
        cases hready
    · rw [starts.state] at hunknown
      cases hunknown
  | requeued acknowledged asked attempts requeues => cases asked

theorem Db.command_worked {command : Command} {reply : Reply} (hs : db.Sound) (hd : d ∈ db.deliveries)
    (h : (db.recover draw).command pf command draw = .ok (db', reply)) :
    ∃ d' ∈ db'.deliveries, d'.id = d.id ∧ Worked d (db.history d.id) d' (db'.history d.id) := by
  obtain ⟨d₁, hd₁, hid₁, hrecover⟩ := @Db.recover_next _ _ draw hs hd
  obtain ⟨d', hd', hid', hnext⟩ := (Db.command_advances (Db.recover_sound hs) h).1.next d₁ hd₁
  refine ⟨d', hd', hid'.trans hid₁, ?_⟩
  rw [hid₁] at hnext
  rcases hrecover with ⟨rfl, hhistory⟩ | ⟨hunknown, hgeneration, hlength⟩
  · rw [hhistory] at hnext
    exact hnext.worked
  · -- Nothing but a retry takes a delivery out of the unknown state.
    cases hnext with
    | same row attempts =>
      subst row
      refine .quiet (by rw [attempts, hlength]) hgeneration fun hpending => ?_
      rw [hunknown] at hpending
      cases hpending
    | ended o before a a' old new ends =>
      have hsending := ends.sending
      rw [hunknown] at hsending
      cases hsending
    | started a new starts =>
      rcases starts.ready with hready | ⟨hready, -⟩
      · rw [hunknown] at hready
        cases hready
      · rw [hunknown] at hready
        cases hready
    | requeued acknowledged asked attempts requeues => cases asked

/-! ### Retries before another attempt -/

/-- An earlier transaction of the run is a retry that started a new generation of a delivery, whose
attempts were `h` by then. -/
structure Asked (t : List (Transition Db (Input × Draw))) (id : Uuid) (h : List Attempt)
    (r : Transition Db (Input × Draw)) (actor : Actor) (input : Retry) : Prop where
  mem : r ∈ t
  label : r.label.1 = .retry actor input
  finance : actor.finance = .ok ()
  fresh : ∀ x ∈ r.before.actions, x.id ≠ input.operationId
  history : r.before.history id = h
  generation : ∃ d ∈ r.before.deliveries, ∃ d' ∈ r.after.deliveries, d.id = id ∧ d'.id = id ∧
    Requeues input.acknowledgeUnknown d d'
  acknowledged : ∀ before a, h = before ++ [a] → a.outcome = some .unknown →
    input.acknowledgeUnknown = true

/-- The state of a delivery whose generation ended is the outcome of its last attempt. -/
theorem Requeues.acknowledged {acknowledged : Bool} (hr : Requeues acknowledged d d')
    (hh : History d (before ++ [a])) (hunknown : a.outcome = some .unknown) : acknowledged = true := by
  have hlast : ∀ o : Outcome, d.state.shown = some (some o) → a.outcome = some o := by
    intro o ho
    obtain ⟨before', b, heq, -, -, houtcome⟩ := hh.last _ ho
    obtain ⟨-, hlast⟩ := List.append_inj' heq rfl
    rw [List.cons.inj hlast |>.1]
    exact houtcome
  refine hr.acknowledge ?_
  rcases hr.ended with hstate | hstate | hstate
  · rw [hlast .sent (by rw [hstate]; rfl)] at hunknown
    cases hunknown
  · rw [hlast .failed (by rw [hstate]; rfl)] at hunknown
    cases hunknown
  · exact hstate

/-- The delivery of an attempt is one the transaction found. -/
theorem Db.Advances.found (ha : Db.Advances retry db db') (hd' : d' ∈ db'.deliveries)
    (hlast : db'.history d'.id ≠ []) : ∃ d ∈ db.deliveries, d.id = d'.id ∧
      Next retry d (db.history d.id) d' (db'.history d.id) := by
  rcases ha.known d' hd' with ⟨d, hd, hid⟩ | ⟨-, hnone⟩
  · obtain ⟨d'', hd'', hid'', hnext⟩ := ha.next d hd
    obtain rfl := ha.deliveries.eq_of_key hd'' hd' (hid''.trans hid)
    exact ⟨d, hd, hid, hnext⟩
  · exact absurd hnone hlast

theorem Asked.mono {t : List (Transition Db (Input × Draw))} {id : Uuid}
    {r r' : Transition Db (Input × Draw)} {actor : Actor} {input : Retry}
    (hasked : Asked t id h r actor input) : Asked (t ++ [r']) id h r actor input :=
  { hasked with mem := List.mem_append_left _ hasked.mem }

/-- A delivery with attempts waits for another one because the staff asked for it. -/
theorem asked_of_pending {db₀ : Db} {t : List (Transition Db (Input × Draw))}
    (hinit : (machine pf).init db₀) (hr : (machine pf).Run db₀ t db) (hd : d ∈ db.deliveries)
    (hpending : d.state = .pending) (hlast : db.history d.id ≠ []) :
    ∃ r actor input, Asked t d.id (db.history d.id) r actor input := by
  induction hr generalizing d with
  | nil =>
    rw [hinit.1] at hd
    exact absurd hd List.not_mem_nil
  | @snoc db db' t i hr hstep ih =>
    have hs : db.Sound :=
      hr.invariant (I := Db.Sound) (fun _ _ _ => step_sound) (init_sound hinit)
    -- A delivery that was waiting before, for the same attempts, was asked for before.
    have hbefore : ∀ x ∈ db.deliveries, x.id = d.id → d = x → db'.history x.id = db.history x.id →
        ∃ r actor input, Asked (t ++ [⟨db, i, db'⟩]) d.id (db'.history d.id) r actor input := by
      intro x hx _ heq hsame
      subst heq
      rw [hsame] at hlast ⊢
      obtain ⟨r, actor, input, hasked⟩ := ih hx hpending hlast
      exact ⟨r, actor, input, hasked.mono⟩
    obtain ⟨input, draw⟩ := i
    cases Db.step_ran hs hstep with
    | worker command reply ran =>
      obtain ⟨hadvances, -⟩ := Db.command_advances (Db.recover_sound hs) ran
      obtain ⟨x₁, hx₁, hid₁, -⟩ := hadvances.found hd hlast
      obtain ⟨x, hx, rfl⟩ := List.mem_map.mp hx₁
      have hxid : (Db.abandoned draw x).id = x.id := by
        unfold Db.abandoned
        split <;> rfl
      have hid : x.id = d.id := hxid.symm.trans hid₁
      obtain ⟨d', hd', hid', hworked⟩ := Db.command_worked hs hx ran
      obtain rfl := hadvances.deliveries.eq_of_key hd' hd (hid'.trans hid)
      cases hworked with
      | quiet length generation pending =>
        obtain ⟨heq, hsame⟩ := pending hpending
        exact hbefore x hx hid heq hsame
      | started a new starts =>
        rw [starts.state] at hpending
        cases hpending
    | retry actor input retried =>
      rcases retried.effect with ⟨-, rfl⟩ | ⟨hfresh, hadvances, -⟩
      · exact hbefore d hd rfl rfl rfl
      · obtain ⟨x, hx, hid, hnext⟩ := hadvances.found hd hlast
        cases hnext with
        | same row attempts => exact hbefore x hx hid row attempts
        | ended o before a a' old new ends =>
          rw [ends.state] at hpending
          exact absurd hpending o.state_ne_pending
        | started a new starts =>
          rw [starts.state] at hpending
          cases hpending
        | requeued acknowledged asked attempts requeues =>
          obtain rfl := Option.some.inj asked
          rw [hid] at attempts
          refine ⟨⟨db, (.retry actor input, draw), db'⟩, actor, input,
            List.mem_append_right _ (List.mem_singleton.mpr rfl), rfl, retried.finance, hfresh,
            attempts.symm, ⟨x, hx, d, hd, hid, rfl, requeues⟩, ?_⟩
          intro before a hlast hunknown
          have hh := hs.history x hx
          rw [hid, ← attempts, hlast] at hh
          exact requeues.acknowledged hh hunknown
    | announce r event aside =>
      have hx : d ∈ db.deliveries := aside.untouched.deliveries ▸ hd
      exact hbefore d hx rfl rfl (aside.untouched.history d.id)
/-! ### One more transaction -/

/-- Whatever a transaction does to a delivery is one move. -/
theorem Db.Ran.moves (hr : Db.Ran pf db draw db' input) (hs : db.Sound) (hd : d ∈ db.deliveries) :
    ∃ d' ∈ db'.deliveries, d'.id = d.id ∧
      (Worked d (db.history d.id) d' (db'.history d.id) ∨
        ∃ retry, Next retry d (db.history d.id) d' (db'.history d.id)) := by
  cases hr with
  | worker command reply ran =>
    obtain ⟨d', hd', hid, hworked⟩ := Db.command_worked hs hd ran
    exact ⟨d', hd', hid, .inl hworked⟩
  | retry actor input retried =>
    rcases retried.effect with ⟨-, rfl⟩ | ⟨-, hadvances, -⟩
    · exact ⟨d, hd, rfl, .inl (.quiet rfl rfl fun _ => ⟨rfl, rfl⟩)⟩
    · obtain ⟨d', hd', hid, hnext⟩ := hadvances.next d hd
      exact ⟨d', hd', hid, .inr ⟨_, hnext⟩⟩
  | announce r event aside =>
    exact ⟨d, aside.untouched.deliveries ▸ hd, rfl,
      .inr ⟨none, .same rfl (aside.untouched.history d.id)⟩⟩

/-- A transaction that adds an attempt starts it. -/
theorem Db.Ran.starts (hr : Db.Ran pf db draw db' input) (hs : db.Sound) (hd : d ∈ db.deliveries)
    (hmore : (db.history d.id).length < (db'.history d.id).length) : ∃ d' a, Starts d d' a := by
  obtain ⟨d', -, -, hworked | ⟨retry, hnext⟩⟩ := hr.moves hs hd
  · cases hworked with
    | quiet length generation pending => omega
    | started a new starts => exact ⟨d', a, starts⟩
  · cases hnext with
    | same row attempts =>
      rw [attempts] at hmore
      exact absurd hmore (Nat.lt_irrefl _)
    | ended o before a a' old new ends =>
      rw [old, new, List.length_append, List.length_append] at hmore
      exact absurd hmore (Nat.lt_irrefl _)
    | started a new starts => exact ⟨d', a, starts⟩
    | requeued acknowledged asked attempts requeues =>
      rw [attempts] at hmore
      exact absurd hmore (Nat.lt_irrefl _)

/-- While an attempt is in flight, a transaction neither adds one nor starts a generation. -/
theorem Db.Ran.inFlight (hr : Db.Ran pf db draw db' input) (hs : db.Sound) (hs' : db'.Sound)
    (hd : d ∈ db.deliveries) (hd' : d' ∈ db'.deliveries) (hid : d'.id = d.id)
    (ha : a ∈ db.history d.id) (hnone : a.outcome = none) :
    d'.generation = d.generation ∧ (db'.history d.id).length = (db.history d.id).length := by
  have hh := hs.history d hd
  obtain ⟨d'', hd'', hid'', hmoves⟩ := hr.moves hs hd
  obtain rfl := hs'.deliveries.eq_of_key hd'' hd' (hid''.trans hid.symm)
  rcases hmoves with hworked | ⟨retry, hnext⟩
  · cases hworked with
    | quiet length generation pending => exact ⟨generation, length⟩
    | started b new starts => exact absurd hnone ((hh.ready starts.ready).2 a ha).1
  · cases hnext with
    | same row attempts => exact ⟨by rw [row], by rw [attempts]⟩
    | ended o before b b' old new ends =>
      refine ⟨ends.generation, ?_⟩
      rw [old, new, List.length_append, List.length_append]
      rfl
    | started b new starts => exact absurd hnone ((hh.ready starts.ready).2 a ha).1
    | requeued acknowledged asked attempts requeues => exact absurd hnone (hh.closed requeues a ha)

/-- Another attempt after one that did not fail was asked for by the staff. -/
theorem resent_asked {db₀ : Db} {t : List (Transition Db (Input × Draw))} {i : Input × Draw} {id : Uuid}
    (hinit : (machine pf).init db₀) (hr : (machine pf).Run db₀ t db) (hstep : (machine pf).step db i db')
    (hlast : db.history id = before ++ [a]) (hfailed : a.outcome ≠ some .failed)
    (hmore : (db.history id).length < (db'.history id).length) :
    a.outcome ≠ none ∧ ∃ r actor input, Asked t id (db.history id) r actor input := by
  have hs : db.Sound := hr.invariant (I := Db.Sound) (fun _ _ _ => step_sound) (init_sound hinit)
  have hmem : a ∈ db.history id := by
    rw [hlast]
    exact List.mem_append_right _ (List.mem_singleton.mpr rfl)
  obtain ⟨ha, hid⟩ := Db.mem_history.mp hmem
  obtain ⟨d, hd, howner⟩ := hs.owners a ha
  obtain rfl : d.id = id := howner.trans hid
  obtain ⟨d', b, hstarts⟩ := (Db.step_ran hs hstep).starts hs hd hmore
  have hh := hs.history d hd
  refine ⟨((hh.ready hstarts.ready).2 a hmem).1, ?_⟩
  rcases hstarts.ready with hpending | ⟨hstate, -⟩
  · exact asked_of_pending hinit hr hd hpending (List.ne_nil_of_mem hmem)
  · obtain ⟨before', c, heq, -, -, houtcome⟩ := hh.last (some .failed) (by rw [hstate]; rfl)
    rw [hlast] at heq
    obtain ⟨-, hsame⟩ := List.append_inj' heq rfl
    rw [(List.cons.inj hsame).1] at hfailed
    exact absurd houtcome hfailed

/-- A result for a claim that has its outcome changes nothing beside the recovery. -/
theorem late_result {id token : Uuid} {outcome : String} {errorCode providerMessageId : Option String}
    (hs : db.Sound) (h : (machine pf).step db
      (.worker (.complete id token outcome errorCode providerMessageId), draw) db')
    (ha : a ∈ db.attempts) (htoken : a.claimToken = token) (hrecorded : a.outcome ≠ none) :
    db' = db.recover draw := by
  obtain ⟨⟨db₁, reply⟩, hran, rfl⟩ := map_eq_ok.mp h
  have hrecover := @Db.recover_sound _ draw hs
  rcases Db.complete_cases hrecover hran with hsame | ⟨d, hd, hsending, hclaim, -, -⟩
  · exact hsame
  · -- The delivery in flight has an attempt without an outcome under the same token.
    have hkept := (@Db.recover_advances _ draw hs).keeps hs ha hrecorded
    obtain ⟨before, b, -, hb, -, hbtoken, hnone⟩ := hrecover.inFlight hd hsending
    have hsame : a.claimToken = b.claimToken := by
      rw [htoken]
      exact Option.some.inj (hclaim.symm.trans hbtoken)
    rw [hrecover.tokens.eq_of_key hkept hb hsame] at hrecorded
    exact absurd hnone hrecorded

/-- The operation of a retry that ran is on record. -/
theorem operation_of_run {db₀ : Db} {t : List (Transition Db (Input × Draw))}
    {r : Transition Db (Input × Draw)} {actor : Actor} {input : Retry}
    (hs : db₀.Sound) (hr : (machine pf).Run db₀ t db) (hmem : r ∈ t)
    (hlabel : r.label.1 = .retry actor input) : ∃ x ∈ db.actions, x.id = input.operationId := by
  obtain ⟨t₁, t₂, -, hbefore, hstep, hafter⟩ := hr.split hmem
  have hs₁ : r.before.Sound := hbefore.invariant (I := Db.Sound) (fun _ _ _ => step_sound) hs
  have hfirst : ∃ x ∈ r.after.actions, x.id = input.operationId := by
    have hran := Db.step_ran hs₁ hstep
    rw [hlabel] at hran
    cases hran with
    | retry actor input retried =>
      rcases retried.effect with ⟨hknown, heq⟩ | ⟨-, -, x, hx, hactions⟩
      · rw [heq]
        exact hknown
      · refine ⟨x, ?_, hx⟩
        rw [hactions]
        exact List.mem_append_right _ (List.mem_singleton.mpr rfl)
  obtain ⟨x, hx, hid⟩ := hfirst
  have hkept : db.Sound ∧ x ∈ db.actions :=
    hafter.invariant (I := fun s => s.Sound ∧ x ∈ s.actions)
      (fun s i s' hs hstep => ⟨step_sound hs.1 hstep, (Db.step_ran hs.1 hstep).operation hs.1 hs.2⟩)
      ⟨step_sound hs₁ hstep, hx⟩
  exact ⟨x, hkept.2, hid⟩

/-! ## Deliveries over runs -/

/-- The deliveries at the end of a run. -/
structure Delivered (pf : Platform) (t : List (Transition Db (Input × Draw))) (db : Db) : Prop where
  counted : ∀ d ∈ db.deliveries, d.attempts = (db.history d.id).length
  limit : ∀ id g, (ofGeneration g (db.history id)).length ≤ 3
  failed : ∀ id g, (ofGeneration g (db.history id)).Pairwise fun a _ => a.outcome = some .failed
  tokens : (db.attempts.map (·.claimToken)).Nodup
  resent : ∀ i db', (machine pf).step db i db' → ∀ id before a, db.history id = before ++ [a] →
    a.outcome ≠ some .failed → (db.history id).length < (db'.history id).length →
    a.outcome ≠ none ∧ ∃ r actor input, Asked t id (db.history id) r actor input
  inFlight : ∀ i db', (machine pf).step db i db' → ∀ d ∈ db.deliveries, ∀ d' ∈ db'.deliveries,
    d'.id = d.id → ∀ a ∈ db.history d.id, a.outcome = none →
    d'.generation = d.generation ∧ (db'.history d.id).length = (db.history d.id).length
  recorded : ∀ t' db', (machine pf).Run db t' db' → ∀ a ∈ db.attempts, a.outcome ≠ none →
    a ∈ db'.attempts ∧ ∀ a' ∈ db'.attempts, a'.claimToken = a.claimToken → a' = a
  late : ∀ id token outcome errorCode providerMessageId draw db',
    (machine pf).step db (.worker (.complete id token outcome errorCode providerMessageId), draw) db' →
    ∀ a ∈ db.attempts, a.claimToken = token → a.outcome ≠ none → db' = db.recover draw
  once : ∀ r ∈ t, ∀ actor input, r.label.1 = .retry actor input → ∀ actor' input' draw db',
    input'.operationId = input.operationId →
    (machine pf).step db (.retry actor' input', draw) db' → db' = db

/-- In one generation every attempt but the last one failed. -/
theorem History.generation {d : Delivery} {h : List Attempt} (hh : History d h) (g : Nat) :
    (ofGeneration g h).Pairwise fun a _ => a.outcome = some .failed := by
  have horder : (ofGeneration g h).Pairwise Precedes := hh.order.sublist List.filter_sublist
  refine horder.imp_of_mem ?_
  intro a b ha hb hprecedes
  have hga : a.generation = g := of_decide_eq_true (List.mem_filter.mp ha).2
  have hgb : b.generation = g := of_decide_eq_true (List.mem_filter.mp hb).2
  exact hprecedes.2 (hga.trans hgb.symm)

/-- The attempts under an identifier are the history of a delivery, or there are none. -/
theorem Db.Sound.known (hs : db.Sound) (id : Uuid) :
    db.history id = [] ∨ ∃ d, History d (db.history id) := by
  cases heq : db.history id with
  | nil => exact .inl rfl
  | cons a h =>
    have hmem : a ∈ db.history id := heq ▸ List.mem_cons_self
    obtain ⟨ha, hid⟩ := Db.mem_history.mp hmem
    obtain ⟨d, hd, howner⟩ := hs.owners a ha
    have hh := hs.history d hd
    rw [howner, hid, heq] at hh
    exact .inr ⟨d, hh⟩

/-- A delivery that may have been sent is never sent again on its own. -/
theorem deliveries_not_resent (pf : Platform) {db₀ db : Db} {t : List (Transition Db (Input × Draw))}
    (hinit : (machine pf).init db₀) (hr : (machine pf).Run db₀ t db) : Delivered pf t db := by
  have hs₀ := init_sound hinit
  have hs : db.Sound := hr.invariant (I := Db.Sound) (fun _ _ _ => step_sound) hs₀
  refine ⟨?_, ?_, ?_, hs.tokens, ?_, ?_, ?_, ?_, ?_⟩
  · intro d hd
    exact (hs.history d hd).attempts
  · intro id g
    rcases hs.known id with hnone | ⟨d, hh⟩
    · rw [hnone]
      exact Nat.zero_le 3
    · exact hh.limit g
  · intro id g
    rcases hs.known id with hnone | ⟨d, hh⟩
    · rw [hnone]
      exact .nil
    · exact hh.generation g
  · intro i db' hstep id before a hlast hfailed hmore
    exact resent_asked hinit hr hstep hlast hfailed hmore
  · intro i db' hstep d hd d' hd' hid a ha hnone
    exact (Db.step_ran hs hstep).inFlight hs (step_sound hs hstep) hd hd' hid ha hnone
  · intro t' db' hr' a ha hrecorded
    have hkept : db'.Sound ∧ a ∈ db'.attempts :=
      hr'.invariant (I := fun s => s.Sound ∧ a ∈ s.attempts)
        (fun s i s' hs hstep =>
          ⟨step_sound hs.1 hstep, (Db.step_ran hs.1 hstep).keeps hs.1 hs.2 hrecorded⟩) ⟨hs, ha⟩
    exact ⟨hkept.2, fun a' ha' htoken => hkept.1.tokens.eq_of_key ha' hkept.2 htoken⟩
  · intro id token outcome errorCode providerMessageId draw db' hstep a ha htoken hrecorded
    exact late_result hs hstep ha htoken hrecorded
  · intro r hmem actor input hlabel actor' input' draw db' hsame hstep
    obtain ⟨x, hx, hid⟩ := operation_of_run hs₀ hr hmem hlabel
    cases Db.step_ran hs hstep with
    | retry actor input retried =>
      rcases retried.effect with ⟨-, heq⟩ | ⟨hfresh, -⟩
      · exact heq
      · exact absurd (hid.trans hsame.symm) (hfresh x hx)

/-! A run of the sample: a notice of a deposit is sent to its requester, the worker is lost, and the
staff asks for another attempt. -/

def samplePlatform : Platform where
  digest _ := 0
  toLowercase s := s
  toUppercase s := s
  sqlLower s := s

def sampleDraw (now : Int) (token : Nat) : Draw where
  clock _ := now
  fresh n := BitVec.ofNat 128 (token + n)
  locked _ := false
  first _ := true

def sampleRecipient : Recipient := ⟨"requester", some "8801700000000", "requester", "sms", none⟩

def sampleStaff : Actor := ⟨"user_1", "admin", none, .obj []⟩

def sampleRetry : Retry where
  requestId := 1
  operationId := 9
  deliveryId := some 100
  eventId := none
  expectedAttempts := some 1
  expectedGeneration := some 0
  reason := "the line was dropped"
  acknowledgeUnknown := true

def sampleEvents : List (Input × Draw) :=
  [(.announce ⟨1, .deposit, .pending⟩ "deposit_requested", sampleDraw 0 10),
    (.worker (.claimEvent (some 11)), sampleDraw 1 50),
    (.worker (.prepare 11 50 [("sms", ⟨none, none, "Deposit received"⟩)] [sampleRecipient]),
      sampleDraw 2 100),
    (.worker (.claimDelivery none), sampleDraw 3 200),
    (.worker (.claimDelivery none), sampleDraw 700000000 300),
    (.retry sampleStaff sampleRetry, sampleDraw 700000001 400),
    (.worker (.claimDelivery none), sampleDraw 700000002 500)]

def sampleStart : Db := ⟨[], [], [], [], []⟩

set_option maxRecDepth 10000 in
theorem deliveries_not_resent_retry : ∃ t db, (machine samplePlatform).Run sampleStart t db ∧
    db.attempts.map (fun a => (a.outcome, a.generation)) = [(some .unknown, 0), (none, 1)] ∧
    Delivered samplePlatform t db := by
  have hrun : (sampleEvents.foldlM (fun (db : Db) i => db.step samplePlatform i.1 i.2) sampleStart).map
      (fun db => db.attempts.map fun a => (a.outcome, a.generation)) =
      .ok [(some .unknown, 0), (none, 1)] := by
    decide +kernel
  obtain ⟨db, hfold, hattempts⟩ := map_eq_ok.mp hrun
  obtain ⟨t, hr⟩ := Machine.Run.foldlM (M := machine samplePlatform) (fun _ _ _ h => h)
    (.nil sampleStart) hfold
  exact ⟨t, db, hr, hattempts, deliveries_not_resent samplePlatform ⟨rfl, rfl, rfl⟩ hr⟩

end ShaponTravels.Wallet.Notifications
