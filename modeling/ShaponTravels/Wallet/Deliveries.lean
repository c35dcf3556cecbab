import ShaponTravels.Wallet.Notifications

/-!
# Deliveries — what a delivery has been attempted for

The attempts of a delivery are its history.  A worker adds an attempt where the last one failed or the
generation is new, and records the outcome of the attempt in flight; only a retry of the staff starts a
new generation.
-/

namespace ShaponTravels.Wallet.Notifications

open Library
open Nonissuance (Actor)

/-! ## Histories -/

/-- The attempts of a delivery, in order. -/
def Db.history (db : Db) (id : Uuid) : List Attempt := db.attempts.filter fun a => a.deliveryId = id

/-- The attempts of one generation. -/
def ofGeneration (g : Nat) (h : List Attempt) : List Attempt := h.filter fun a => a.generation = g

/-- The outcome that the last attempt shows in a state of its delivery, if the state follows one. -/
def DeliveryState.shown : DeliveryState → Option (Option Outcome)
  | .pending => none
  | .suppressed => none
  | .sending => some none
  | .sent => some (some .sent)
  | .failed => some (some .failed)
  | .unknown => some (some .unknown)

theorem Outcome.shown_state (o : Outcome) : o.state.shown = some (some o) := by
  cases o <;> rfl

/-- An attempt that the same outcome of the same generation cannot follow unless it failed. -/
def Precedes (a b : Attempt) : Prop :=
  a.outcome ≠ none ∧ (a.generation = b.generation → a.outcome = some .failed)

/-- A delivery and its attempts. -/
structure History (d : Delivery) (h : List Attempt) : Prop where
  attempts : d.attempts = h.length
  current : d.generationAttempts = (ofGeneration d.generation h).length
  bounded : ∀ a ∈ h, a.generation ≤ d.generation
  order : h.Pairwise Precedes
  limit : ∀ g, (ofGeneration g h).length ≤ 3
  last : ∀ o, d.state.shown = some o → ∃ before a, h = before ++ [a] ∧ a.generation = d.generation ∧
    d.claimToken = some a.claimToken ∧ a.outcome = o
  idle : d.state.shown = none → d.generationAttempts = 0 ∧ ∀ a ∈ h, a.outcome ≠ none

theorem filter_concat {α : Type} (p : α → Prop) [DecidablePred p] (l : List α) (a : α) :
    (l ++ [a]).filter (fun b => p b) = l.filter (fun b => p b) ++ if p a then [a] else [] := by
  simp only [List.filter_append, List.filter_cons, List.filter_nil, decide_eq_true_eq]

theorem ofGeneration_concat (g : Nat) (h : List Attempt) (a : Attempt) :
    ofGeneration g (h ++ [a]) = ofGeneration g h ++ if a.generation = g then [a] else [] :=
  filter_concat (fun b : Attempt => b.generation = g) h a

variable {d d' : Delivery} {h : List Attempt} {before : List Attempt} {a a' : Attempt}

/-- The attempts before the last one have an outcome. -/
theorem History.recorded (hh : History d (before ++ [a])) : ∀ b ∈ before, Precedes b a := by
  intro b hb
  exact (List.pairwise_append.mp hh.order).2.2 b hb a (List.mem_singleton.mpr rfl)

/-! ## What happens to a delivery -/

/-- The attempt in flight ends. -/
structure Ends (o : Outcome) (d d' : Delivery) (a a' : Attempt) : Prop where
  sending : d.state = .sending
  state : d'.state = o.state
  generation : d'.generation = d.generation
  attempts : d'.attempts = d.attempts
  generationAttempts : d'.generationAttempts = d.generationAttempts
  claimToken : d'.claimToken = d.claimToken
  unrecorded : a.outcome = none
  outcome : a'.outcome = some o
  token : a'.claimToken = a.claimToken
  same : a'.generation = a.generation

/-- A new attempt starts. -/
structure Starts (d d' : Delivery) (a : Attempt) : Prop where
  ready : d.state = .pending ∨ (d.state = .failed ∧ d.generationAttempts < 3)
  state : d'.state = .sending
  generation : d'.generation = d.generation
  attempts : d'.attempts = d.attempts + 1
  generationAttempts : d'.generationAttempts = d.generationAttempts + 1
  claimToken : d'.claimToken = some a.claimToken
  unrecorded : a.outcome = none
  same : a.generation = d.generation

/-- A new generation starts. -/
structure Requeues (acknowledged : Bool) (d d' : Delivery) : Prop where
  ended : d.state = .sent ∨ d.state = .failed ∨ d.state = .unknown
  acknowledge : d.state = .unknown → acknowledged = true
  state : d'.state = .pending
  generation : d'.generation = d.generation + 1
  attempts : d'.attempts = d.attempts
  generationAttempts : d'.generationAttempts = 0

theorem History.ends {o : Outcome} (hh : History d (before ++ [a])) (he : Ends o d d' a a') :
    History d' (before ++ [a']) := by
  have hof : ∀ g, (ofGeneration g (before ++ [a'])).length = (ofGeneration g (before ++ [a])).length := by
    intro g
    rw [ofGeneration_concat, ofGeneration_concat, he.same]
    split <;> simp
  refine ⟨?_, ?_, ?_, ?_, ?_, ?_, ?_⟩
  · rw [he.attempts, hh.attempts]
    simp
  · rw [he.generationAttempts, hh.current, he.generation, hof]
  · intro b hb
    rw [he.generation]
    rcases List.mem_append.mp hb with hb | hb
    · exact hh.bounded b (List.mem_append_left _ hb)
    · rw [List.mem_singleton.mp hb, he.same]
      exact hh.bounded a (List.mem_append_right _ (List.mem_singleton.mpr rfl))
  · have horder := List.pairwise_append.mp hh.order
    refine List.pairwise_append.mpr ⟨horder.1, List.pairwise_singleton _ _, ?_⟩
    intro b hb c hc
    have hprecedes := hh.recorded b hb
    rw [List.mem_singleton.mp hc]
    refine ⟨hprecedes.1, fun hg => hprecedes.2 (hg.trans he.same)⟩
  · intro g
    rw [hof]
    exact hh.limit g
  · intro o' ho'
    rw [he.state, Outcome.shown_state] at ho'
    obtain rfl := Option.some.inj ho'
    obtain ⟨before', b, heq, hgeneration, htoken, -⟩ := hh.last none (by rw [he.sending]; rfl)
    obtain ⟨rfl, hlast⟩ := List.append_inj' heq rfl
    obtain rfl : a = b := by simpa using hlast
    exact ⟨before, a', rfl, by rw [he.same, he.generation, hgeneration],
      by rw [he.claimToken, he.token, htoken], he.outcome⟩
  · intro hidle
    rw [he.state, Outcome.shown_state] at hidle
    cases hidle

/-- Before a new attempt starts, the attempts have their outcomes, and those of the generation failed. -/
theorem History.ready (hh : History d h)
    (hready : d.state = .pending ∨ (d.state = .failed ∧ d.generationAttempts < 3)) :
    d.generationAttempts < 3 ∧ ∀ b ∈ h, b.outcome ≠ none ∧
      (b.generation = d.generation → b.outcome = some .failed) := by
  rcases hready with hpending | ⟨hfailed, hlimit⟩
  · obtain ⟨hzero, hall⟩ := hh.idle (by rw [hpending]; rfl)
    refine ⟨by omega, fun b hb => ⟨hall b hb, fun hg => ?_⟩⟩
    have hnone : ofGeneration d.generation h = [] := by
      rw [← List.length_eq_zero_iff, ← hh.current, hzero]
    exact absurd (decide_eq_true hg) (List.filter_eq_nil_iff.mp hnone b hb)
  · obtain ⟨before, a, rfl, hgeneration, -, houtcome⟩ := hh.last (some .failed) (by rw [hfailed]; rfl)
    refine ⟨hlimit, fun b hb => ?_⟩
    rcases List.mem_append.mp hb with hb | hb
    · have hprecedes := hh.recorded b hb
      exact ⟨hprecedes.1, fun hg => hprecedes.2 (hg.trans hgeneration.symm)⟩
    · rw [List.mem_singleton.mp hb, houtcome]
      exact ⟨by decide, fun _ => rfl⟩

theorem History.starts (hh : History d h) (hs : Starts d d' a) : History d' (h ++ [a]) := by
  obtain ⟨hlimit, hready⟩ := hh.ready hs.ready
  have hcurrent : (ofGeneration d.generation (h ++ [a])).length = d.generationAttempts + 1 := by
    rw [ofGeneration_concat, if_pos hs.same, List.length_append, ← hh.current, List.length_singleton]
  refine ⟨?_, ?_, ?_, ?_, ?_, ?_, ?_⟩
  · rw [hs.attempts, hh.attempts, List.length_append, List.length_singleton]
  · rw [hs.generationAttempts, hs.generation, hcurrent]
  · intro b hb
    rw [hs.generation]
    rcases List.mem_append.mp hb with hb | hb
    · exact hh.bounded b hb
    · rw [List.mem_singleton.mp hb, hs.same]
  · refine List.pairwise_append.mpr ⟨hh.order, List.pairwise_singleton _ _, ?_⟩
    intro b hb c hc
    rw [List.mem_singleton.mp hc]
    exact ⟨(hready b hb).1, fun hg => (hready b hb).2 (hg.trans hs.same)⟩
  · intro g
    by_cases hg : g = d.generation
    · rw [hg, hcurrent]
      omega
    · rw [ofGeneration_concat, if_neg (by rw [hs.same]; exact Ne.symm hg), List.append_nil]
      exact hh.limit g
  · intro o ho
    rw [hs.state] at ho
    obtain rfl := Option.some.inj ho
    exact ⟨h, a, rfl, hs.same.trans hs.generation.symm, hs.claimToken, hs.unrecorded⟩
  · intro hidle
    rw [hs.state] at hidle
    cases hidle

/-- A generation that ends leaves no attempt without its outcome. -/
theorem History.closed {acknowledged : Bool} (hh : History d h) (hr : Requeues acknowledged d d') :
    ∀ b ∈ h, b.outcome ≠ none := by
  have hended : ∃ o : Outcome, d.state.shown = some (some o) := by
    rcases hr.ended with hstate | hstate | hstate
    · exact ⟨.sent, by rw [hstate]; rfl⟩
    · exact ⟨.failed, by rw [hstate]; rfl⟩
    · exact ⟨.unknown, by rw [hstate]; rfl⟩
  obtain ⟨o, ho⟩ := hended
  obtain ⟨before, a, rfl, -, -, houtcome⟩ := hh.last _ ho
  intro b hb
  rcases List.mem_append.mp hb with hb | hb
  · exact (hh.recorded b hb).1
  · rw [List.mem_singleton.mp hb, houtcome]
    exact Option.some_ne_none o

theorem History.requeues {acknowledged : Bool} (hh : History d h) (hr : Requeues acknowledged d d') :
    History d' h := by
  refine ⟨?_, ?_, ?_, hh.order, hh.limit, ?_, ?_⟩
  · rw [hr.attempts, hh.attempts]
  · have hnone : ofGeneration d'.generation h = [] := by
      refine List.filter_eq_nil_iff.mpr fun b hb hg => ?_
      have hle := hh.bounded b hb
      have heq := of_decide_eq_true hg
      rw [hr.generation] at heq
      omega
    rw [hr.generationAttempts, hnone, List.length_nil]
  · intro b hb
    have hle := hh.bounded b hb
    rw [hr.generation]
    omega
  · intro o ho
    rw [hr.state] at ho
    cases ho
  · intro _
    exact ⟨hr.generationAttempts, hh.closed hr⟩

/-! ## The tables -/

/-- The invariant of the tables. -/
structure Db.Sound (db : Db) : Prop where
  deliveries : KeyUnique Delivery.id db.deliveries
  tokens : KeyUnique Attempt.claimToken db.attempts
  owners : ∀ a ∈ db.attempts, ∃ d ∈ db.deliveries, d.id = a.deliveryId
  history : ∀ d ∈ db.deliveries, History d (db.history d.id)
  actions : KeyUnique Action.id db.actions

/-- Two states have the same deliveries and attempts. -/
structure Db.Untouched (db db' : Db) : Prop where
  deliveries : db'.deliveries = db.deliveries
  attempts : db'.attempts = db.attempts

variable {db db' : Db} {draw : Draw}

theorem Db.mem_history {id : Uuid} : a ∈ db.history id ↔ a ∈ db.attempts ∧ a.deliveryId = id := by
  unfold Db.history
  rw [List.mem_filter, decide_eq_true_eq]

theorem Db.history_concat (ha : db'.attempts = db.attempts ++ [a]) (id : Uuid) :
    db'.history id = db.history id ++ if a.deliveryId = id then [a] else [] := by
  unfold Db.history
  rw [ha]
  exact filter_concat (fun b : Attempt => b.deliveryId = id) db.attempts a

theorem Db.Untouched.history (hu : db.Untouched db') (id : Uuid) : db'.history id = db.history id := by
  unfold Db.history
  rw [hu.attempts]

/-- The token of a delivery in flight is that of its last attempt. -/
theorem Db.Sound.inFlight (hs : db.Sound) (hd : d ∈ db.deliveries) (hsending : d.state = .sending) :
    ∃ before a, db.history d.id = before ++ [a] ∧ a ∈ db.attempts ∧ a.deliveryId = d.id ∧
      d.claimToken = some a.claimToken ∧ a.outcome = none := by
  obtain ⟨before, a, heq, -, htoken, houtcome⟩ := (hs.history d hd).last none (by rw [hsending]; rfl)
  have hmem : a ∈ db.history d.id := by
    rw [heq]
    exact List.mem_append_right _ (List.mem_singleton.mpr rfl)
  obtain ⟨ha, hid⟩ := Db.mem_history.mp hmem
  exact ⟨before, a, heq, ha, hid, htoken, houtcome⟩

/-- What happens to a delivery and its attempts; a new generation needs the acknowledgement a retry
comes with. -/
inductive Next (retry : Option Bool) (d : Delivery) (h : List Attempt) (d' : Delivery)
    (h' : List Attempt) : Prop where
  | same (row : d' = d) (attempts : h' = h)
  | ended (o : Outcome) (before : List Attempt) (a a' : Attempt) (old : h = before ++ [a])
      (new : h' = before ++ [a']) (ends : Ends o d d' a a')
  | started (a : Attempt) (new : h' = h ++ [a]) (starts : Starts d d' a)
  | requeued (acknowledged : Bool) (asked : retry = some acknowledged) (attempts : h' = h)
      (requeues : Requeues acknowledged d d')

variable {retry : Option Bool} {h' : List Attempt}

theorem Next.history (hn : Next retry d h d' h') (hh : History d h) : History d' h' := by
  cases hn with
  | same row attempts =>
    subst row attempts
    exact hh
  | ended o before a a' old new ends =>
    subst old new
    exact hh.ends ends
  | started a new starts =>
    subst new
    exact hh.starts starts
  | requeued acknowledged asked attempts requeues =>
    subst attempts
    exact hh.requeues requeues

/-- An attempt with an outcome stays as it is. -/
theorem Next.keeps (hn : Next retry d h d' h') (ha : a ∈ h) (hrecorded : a.outcome ≠ none) : a ∈ h' := by
  cases hn with
  | same row attempts => exact attempts ▸ ha
  | ended o before b b' old new ends =>
    subst old new
    rcases List.mem_append.mp ha with ha | ha
    · exact List.mem_append_left _ ha
    · rw [List.mem_singleton.mp ha] at hrecorded
      exact absurd ends.unrecorded hrecorded
  | started b new starts => exact new ▸ List.mem_append_left _ ha
  | requeued acknowledged asked attempts requeues => exact attempts ▸ ha

/-- A delivery that was never attempted. -/
structure New (d : Delivery) : Prop where
  idle : d.state.shown = none
  attempts : d.attempts = 0
  generationAttempts : d.generationAttempts = 0

theorem New.history (hn : New d) : History d [] where
  attempts := hn.attempts
  current := hn.generationAttempts
  bounded b hb := absurd hb List.not_mem_nil
  order := .nil
  limit g := Nat.zero_le 3
  last o ho := by
    rw [hn.idle] at ho
    cases ho
  idle _ := ⟨hn.generationAttempts, fun b hb => absurd hb List.not_mem_nil⟩

/-- What a transaction does to the tables. -/
structure Db.Advances (retry : Option Bool) (db db' : Db) : Prop where
  deliveries : KeyUnique Delivery.id db'.deliveries
  tokens : KeyUnique Attempt.claimToken db'.attempts
  owners : ∀ a ∈ db'.attempts, ∃ d ∈ db'.deliveries, d.id = a.deliveryId
  next : ∀ d ∈ db.deliveries, ∃ d' ∈ db'.deliveries, d'.id = d.id ∧
    Next retry d (db.history d.id) d' (db'.history d.id)
  known : ∀ d' ∈ db'.deliveries, (∃ d ∈ db.deliveries, d.id = d'.id) ∨
    (New d' ∧ db'.history d'.id = [])

theorem Db.Advances.sound (ha : Db.Advances retry db db') (hs : db.Sound)
    (hactions : KeyUnique Action.id db'.actions) : db'.Sound := by
  refine ⟨ha.deliveries, ha.tokens, ha.owners, ?_, hactions⟩
  intro d' hd'
  rcases ha.known d' hd' with ⟨d, hd, hid⟩ | ⟨hnew, hnone⟩
  · obtain ⟨d'', hd'', hid'', hnext⟩ := ha.next d hd
    obtain rfl := ha.deliveries.eq_of_key hd'' hd' (hid''.trans hid)
    rw [hid'']
    exact hnext.history (hs.history d hd)
  · rw [hnone]
    exact hnew.history

/-- A transaction that leaves the deliveries and attempts as they are. -/
theorem Db.Untouched.advances (hu : db.Untouched db') (hs : db.Sound) : Db.Advances retry db db' := by
  refine ⟨?_, ?_, ?_, ?_, ?_⟩
  · rw [hu.deliveries]
    exact hs.deliveries
  · rw [hu.attempts]
    exact hs.tokens
  · rw [hu.deliveries, hu.attempts]
    exact hs.owners
  · intro d hd
    exact ⟨d, hu.deliveries ▸ hd, rfl, .same rfl (hu.history d.id)⟩
  · intro d' hd'
    rw [hu.deliveries] at hd'
    exact .inl ⟨d', hd', rfl⟩

/-! ## Rows rewritten in place -/

/-- Deliveries and attempts are rewritten row by row. -/
structure Db.Rewrites (retry : Option Bool) (F : Delivery → Delivery) (G : Attempt → Attempt)
    (db db' : Db) : Prop where
  deliveries : db'.deliveries = db.deliveries.map F
  attempts : db'.attempts = db.attempts.map G
  ids : ∀ d, (F d).id = d.id
  tokens : ∀ a, (G a).claimToken = a.claimToken
  owners : ∀ a, (G a).deliveryId = a.deliveryId
  next : ∀ d ∈ db.deliveries, Next retry d (db.history d.id) (F d) ((db.history d.id).map G)

theorem Db.Rewrites.advances {F : Delivery → Delivery} {G : Attempt → Attempt}
    (hr : Db.Rewrites retry F G db db') (hs : db.Sound) : Db.Advances retry db db' := by
  have hhistory : ∀ id, db'.history id = (db.history id).map G := by
    intro id
    unfold Db.history
    rw [hr.attempts, List.filter_map]
    congr 1
    refine List.filter_congr fun a _ => ?_
    show decide ((G a).deliveryId = id) = decide (a.deliveryId = id)
    rw [hr.owners]
  have hids : db'.deliveries.map Delivery.id = db.deliveries.map Delivery.id := by
    rw [hr.deliveries, List.map_map]
    exact List.map_congr_left fun d _ => hr.ids d
  have htokens : db'.attempts.map Attempt.claimToken = db.attempts.map Attempt.claimToken := by
    rw [hr.attempts, List.map_map]
    exact List.map_congr_left fun a _ => hr.tokens a
  refine ⟨?_, ?_, ?_, ?_, ?_⟩
  · unfold KeyUnique
    rw [hids]
    exact hs.deliveries
  · unfold KeyUnique
    rw [htokens]
    exact hs.tokens
  · intro a' ha'
    rw [hr.attempts] at ha'
    obtain ⟨a, ha, rfl⟩ := List.mem_map.mp ha'
    obtain ⟨d, hd, hid⟩ := hs.owners a ha
    refine ⟨F d, hr.deliveries ▸ List.mem_map_of_mem hd, ?_⟩
    rw [hr.ids, hr.owners, hid]
  · intro d hd
    refine ⟨F d, hr.deliveries ▸ List.mem_map_of_mem hd, hr.ids d, ?_⟩
    rw [hhistory]
    exact hr.next d hd
  · intro d' hd'
    rw [hr.deliveries] at hd'
    obtain ⟨d, hd, rfl⟩ := List.mem_map.mp hd'
    exact .inl ⟨d, hd, (hr.ids d).symm⟩

/-- No attempt of a delivery changes. -/
theorem map_history_eq {G : Attempt → Attempt} (hg : ∀ a ∈ h, G a = a) : h.map G = h := by
  rw [List.map_congr_left hg, List.map_id']

/-- The attempts of a delivery before its last one carry other tokens. -/
theorem Db.Sound.token_ne (hs : db.Sound) {id : Uuid} (heq : db.history id = before ++ [a]) :
    ∀ b ∈ before, b.claimToken ≠ a.claimToken := by
  have hnodup : ((before ++ [a]).map Attempt.claimToken).Nodup := by
    rw [← heq]
    exact hs.tokens.sublist (List.filter_sublist.map _)
  exact (keyUnique_concat.mp hnodup).2

/-- An attempt with the token of a delivery in flight is the last attempt of that delivery. -/
theorem Db.Sound.owner_eq (hs : db.Sound) (hd : d ∈ db.deliveries) (hsending : d.state = .sending)
    (ha : a ∈ db.attempts) (htoken : d.claimToken = some a.claimToken) : a.deliveryId = d.id := by
  obtain ⟨before, b, -, hb, hid, hclaim, -⟩ := hs.inFlight hd hsending
  have hsame : a.claimToken = b.claimToken := Option.some.inj (htoken.symm.trans hclaim)
  rw [hs.tokens.eq_of_key ha hb hsame, hid]

/-! ## The worker -/

theorem Db.mem_staleTokens {t : Uuid} : t ∈ db.staleTokens draw ↔
    ∃ d ∈ db.deliveries, Db.staleDelivery draw d = true ∧ d.claimToken = some t := by
  unfold Db.staleTokens
  simp only [List.mem_filterMap, List.mem_filter, and_assoc]

theorem Db.staleDelivery_sending (h : Db.staleDelivery draw d = true) : d.state = .sending := by
  unfold Db.staleDelivery at h
  simp only [Bool.and_eq_true, decide_eq_true_eq] at h
  exact h.1.1

theorem Db.recover_rewrites (hs : db.Sound) : Db.Rewrites none (Db.abandoned draw)
    (Db.unfinished draw (db.staleTokens draw)) db (db.recover draw) := by
  refine ⟨rfl, rfl, ?_, ?_, ?_, ?_⟩
  · intro d
    unfold Db.abandoned
    split <;> rfl
  · intro a
    unfold Db.unfinished
    split <;> rfl
  · intro a
    unfold Db.unfinished
    split <;> rfl
  · intro d hd
    unfold Db.abandoned
    by_cases hstale : Db.staleDelivery draw d = true
    · have hsending := Db.staleDelivery_sending hstale
      obtain ⟨before, a, heq, -, -, htoken, houtcome⟩ := hs.inFlight hd hsending
      have hmem : a.claimToken ∈ db.staleTokens draw := Db.mem_staleTokens.mpr ⟨d, hd, hstale, htoken⟩
      have hh := hs.history d hd
      rw [heq] at hh
      have hbefore : before.map (Db.unfinished draw (db.staleTokens draw)) = before :=
        map_history_eq fun b hb => if_neg fun h => (hh.recorded b hb).1 h.2
      rw [if_pos hstale, heq]
      refine .ended .unknown before a (Db.unfinished draw (db.staleTokens draw) a) rfl ?_ ?_
      · rw [List.map_append, hbefore, List.map_singleton]
      · unfold Db.unfinished
        rw [if_pos ⟨hmem, houtcome⟩]
        exact ⟨hsending, rfl, rfl, rfl, rfl, rfl, houtcome, rfl, rfl, rfl⟩
    · rw [if_neg hstale]
      refine .same rfl (map_history_eq fun a ha => if_neg fun h => hstale ?_)
      obtain ⟨ha, hid⟩ := Db.mem_history.mp ha
      obtain ⟨x, hx, hxstale, htoken⟩ := Db.mem_staleTokens.mp h.1
      have howner := hs.owner_eq hx (Db.staleDelivery_sending hxstale) ha htoken
      rw [← hs.deliveries.eq_of_key hx hd (howner.symm.trans hid)]
      exact hxstale

theorem Db.recover_advances (hs : db.Sound) : Db.Advances none db (db.recover draw) :=
  (Db.recover_rewrites hs).advances hs

theorem Db.recover_sound (hs : db.Sound) : (db.recover draw).Sound :=
  (Db.recover_advances hs).sound hs hs.actions

theorem Db.complete_rewrites {token : Uuid} {o : Outcome} {errorCode providerMessageId : Option String}
    (hs : db.Sound) (hd : d ∈ db.deliveries) (hsending : d.state = .sending)
    (htoken : d.claimToken = some token) : Db.Rewrites none
    (fun r => if r.id = d.id then Db.completed draw o errorCode providerMessageId r else r)
    (fun a => if a.claimToken = token then Db.ended draw o errorCode providerMessageId a else a) db
    { db.updateDelivery d.id (Db.completed draw o errorCode providerMessageId) with
      attempts := modify Attempt.claimToken token (Db.ended draw o errorCode providerMessageId)
        db.attempts } := by
  obtain ⟨before, a, heq, ha, howner, hclaim, houtcome⟩ := hs.inFlight hd hsending
  obtain rfl : token = a.claimToken := Option.some.inj (htoken.symm.trans hclaim)
  refine ⟨rfl, rfl, ?_, ?_, ?_, ?_⟩
  · intro r
    split <;> rfl
  · intro b
    split <;> rfl
  · intro b
    split <;> rfl
  · intro r hr
    by_cases hid : r.id = d.id
    · obtain rfl := hs.deliveries.eq_of_key hr hd hid
      rw [if_pos rfl, heq]
      refine .ended o before a (Db.ended draw o errorCode providerMessageId a) rfl ?_
        ⟨hsending, rfl, rfl, rfl, rfl, rfl, houtcome, rfl, rfl, rfl⟩
      rw [List.map_append, List.map_singleton, if_pos rfl,
        map_history_eq fun b hb => if_neg (hs.token_ne heq b hb)]
    · rw [if_neg hid]
      refine .same rfl (map_history_eq fun b hb => if_neg fun hsame => hid ?_)
      obtain ⟨hb, hbid⟩ := Db.mem_history.mp hb
      rw [← hbid, hs.tokens.eq_of_key hb ha hsame, howner]

/-- A worker that finds its claim in flight records the outcome. -/
theorem Db.complete_cases {id token : Uuid} {outcome : String} {errorCode providerMessageId : Option String}
    {reply : Reply} (hs : db.Sound)
    (h : db.complete draw id token outcome errorCode providerMessageId = .ok (db', reply)) :
    db' = db ∨ ∃ d ∈ db.deliveries, d.state = .sending ∧ d.claimToken = some token ∧
      Db.Advances none db db' ∧ db'.actions = db.actions := by
  simp only [Db.complete, bind_eq_ok, fetch_eq_ok, ensure_eq_ok, exists_const] at h
  obtain ⟨o, -, d, hd, htoken, h⟩ := h
  have hmem := lookup_mem hd
  obtain rfl : d.id = id := lookup_key hd
  by_cases hsending : d.state = .sending
  · rw [if_neg (not_not.mpr hsending)] at h
    simp only [Db.recordAttempt, bind_eq_ok, ensure_eq_ok, exists_const, pure_eq_ok,
      Prod.mk.injEq] at h
    obtain ⟨attempts, ⟨-, rfl⟩, rfl, -⟩ := h
    exact .inr ⟨d, hmem, hsending, htoken, (Db.complete_rewrites hs hmem hsending htoken).advances hs, rfl⟩
  · rw [if_pos hsending] at h
    simp only [bind_eq_ok, ensure_eq_ok, exists_const, pure_eq_ok, Prod.mk.injEq] at h
    exact .inl h.2.1.symm

theorem Db.claimableDelivery_ready {id : Option Uuid} (h : Db.claimableDelivery draw id d = true) :
    d.state = .pending ∨ (d.state = .failed ∧ d.generationAttempts < 3) := by
  unfold Db.claimableDelivery at h
  simp only [Bool.and_eq_true, Bool.or_eq_true, decide_eq_true_eq] at h
  exact h.1.1.1.2

theorem incremented_eq_ok {n m : Nat} (h : incremented n = .ok m) : m = n + 1 := by
  simp only [incremented, bind_eq_ok, ensure_eq_ok, exists_const, pure_eq_ok] at h
  exact h.2.symm

/-- The tables after a claim. -/
theorem Db.claim_advances {attempts generationAttempts : Nat} (hs : db.Sound) (hd : d ∈ db.deliveries)
    (hready : d.state = .pending ∨ (d.state = .failed ∧ d.generationAttempts < 3))
    (hattempts : attempts = d.attempts + 1) (hgeneration : generationAttempts = d.generationAttempts + 1)
    (htoken : ∀ a ∈ db.attempts, a.claimToken ≠ draw.fresh 0) :
    Db.Advances none db (db.taken draw attempts generationAttempts d) := by
  refine ⟨?_, ?_, ?_, ?_, ?_⟩
  · exact KeyUnique.modify hs.deliveries fun _ => rfl
  · exact keyUnique_concat.mpr ⟨hs.tokens, htoken⟩
  · intro a ha
    have howner : ∃ r ∈ db.deliveries, r.id = a.deliveryId := by
      rcases List.mem_append.mp ha with ha | ha
      · exact hs.owners a ha
      · rw [List.mem_singleton.mp ha]
        exact ⟨d, hd, rfl⟩
    obtain ⟨r, hr, hid⟩ := howner
    refine ⟨_, List.mem_map_of_mem hr, ?_⟩
    rw [← hid]
    split <;> rfl
  · intro r hr
    have hhistory : (db.taken draw attempts generationAttempts d).history r.id =
        db.history r.id ++ if d.id = r.id then [Db.started draw attempts d] else [] :=
      Db.history_concat (a := Db.started draw attempts d) rfl r.id
    rw [hhistory]
    by_cases hid : r.id = d.id
    · obtain rfl := hs.deliveries.eq_of_key hr hd hid
      rw [if_pos rfl]
      exact ⟨Db.claimed draw attempts generationAttempts r, mem_modify_of_mem hr rfl, rfl,
        .started _ rfl ⟨hready, rfl, rfl, hattempts, hgeneration, rfl, rfl, rfl⟩⟩
    · rw [if_neg (Ne.symm hid), List.append_nil]
      exact ⟨r, mem_modify_of_ne hr hid, rfl, .same rfl rfl⟩
  · intro r' hr'
    rcases modify_cases hr' with ⟨hr, -⟩ | ⟨r, hr, -, rfl⟩
    · exact .inl ⟨r', hr, rfl⟩
    · exact .inl ⟨r, hr, rfl⟩

theorem Db.claimDelivery_advances {id : Option Uuid} {reply : Reply} (hs : db.Sound)
    (h : db.claimDelivery draw id = .ok (db', reply)) :
    Db.Advances none db db' ∧ db'.actions = db.actions := by
  unfold Db.claimDelivery at h
  dsimp only at h
  cases hhead : ((db.deliveries.filter (Db.claimableDelivery draw id)).insertionSort
      (older Delivery.createdAt Delivery.id)).head? with
  | none =>
    rw [hhead] at h
    dsimp only at h
    rw [pure_eq_ok, Prod.mk.injEq] at h
    obtain ⟨rfl, -⟩ := h
    exact ⟨Db.Untouched.advances ⟨rfl, rfl⟩ hs, rfl⟩
  | some d =>
    rw [hhead] at h
    have hmem := (List.mem_insertionSort _).mp (List.mem_of_mem_head? hhead)
    obtain ⟨hd, hclaimable⟩ := List.mem_filter.mp hmem
    simp only [bind_eq_ok, ensure_eq_ok, exists_const, fetch_eq_ok, pure_eq_ok, Prod.mk.injEq] at h
    obtain ⟨attempts, hattempts, generationAttempts, hgeneration, htoken, -, notification, -, rfl, -⟩ := h
    exact ⟨Db.claim_advances hs hd (Db.claimableDelivery_ready hclaimable) (incremented_eq_ok hattempts)
      (incremented_eq_ok hgeneration) htoken, rfl⟩

/-! ### Expansion -/

theorem Db.newDelivery_new {notification : Event} {content : Content} {r : Recipient} {i : Nat} :
    New (Db.newDelivery draw notification content r i) := by
  refine ⟨?_, rfl, rfl⟩
  unfold Db.newDelivery
  dsimp only
  split <;> rfl

/-- The loop of an expansion adds deliveries that were never attempted. -/
theorem Db.addDelivery_all {notification : Event} {templates : List (String × Content)}
    {entries : List (Recipient × Nat)} {s s' : List Delivery × List String}
    (h : entries.foldlM (Db.addDelivery draw notification templates) s = .ok s')
    (hunique : KeyUnique Delivery.id s.1) :
    ∃ added, s'.1 = s.1 ++ added ∧ KeyUnique Delivery.id s'.1 ∧ ∀ d ∈ added, New d := by
  induction entries generalizing s with
  | nil =>
    rw [List.foldlM_nil, pure_eq_ok] at h
    subst h
    exact ⟨[], (List.append_nil _).symm, hunique, fun d hd => absurd hd List.not_mem_nil⟩
  | cons entry entries ih =>
    rw [List.foldlM_cons, bind_eq_ok] at h
    obtain ⟨middle, hfirst, hrest⟩ := h
    simp only [Db.addDelivery, bind_eq_ok, ensure_eq_ok, exists_const, fetch_eq_ok, pure_eq_ok] at hfirst
    obtain ⟨-, template, -, -, -, -, -, hfresh, -, rfl⟩ := hfirst
    obtain ⟨added, hadded, hkeys, hnew⟩ := ih hrest (keyUnique_concat.mpr ⟨hunique, hfresh⟩)
    refine ⟨Db.newDelivery draw notification template.2 entry.1 entry.2 :: added, ?_, hkeys,
      List.forall_mem_cons.mpr ⟨Db.newDelivery_new, hnew⟩⟩
    rw [hadded, List.append_assoc, List.singleton_append]

/-- The tables after an expansion. -/
theorem Db.added_advances {added : List Delivery} (hs : db.Sound)
    (hdeliveries : db'.deliveries = db.deliveries ++ added) (hattempts : db'.attempts = db.attempts)
    (hunique : KeyUnique Delivery.id db'.deliveries) (hnew : ∀ d ∈ added, New d) :
    Db.Advances none db db' := by
  have hhistory : ∀ id, db'.history id = db.history id := by
    intro id
    unfold Db.history
    rw [hattempts]
  have hold : ∀ d ∈ db.deliveries, d ∈ db'.deliveries := by
    intro d hd
    rw [hdeliveries]
    exact List.mem_append_left _ hd
  refine ⟨hunique, ?_, ?_, ?_, ?_⟩
  · rw [hattempts]
    exact hs.tokens
  · intro a ha
    rw [hattempts] at ha
    obtain ⟨d, hd, hid⟩ := hs.owners a ha
    exact ⟨d, hold d hd, hid⟩
  · intro d hd
    exact ⟨d, hold d hd, rfl, .same rfl (hhistory d.id)⟩
  · intro d hd
    have hmem := hd
    rw [hdeliveries] at hd
    rcases List.mem_append.mp hd with hd | hd
    · exact .inl ⟨d, hd, rfl⟩
    · refine .inr ⟨hnew d hd, ?_⟩
      -- Every attempt belongs to an older delivery, whose identifier is another one.
      rw [hhistory]
      refine List.eq_nil_iff_forall_not_mem.mpr fun a ha => ?_
      obtain ⟨ha, hid⟩ := Db.mem_history.mp ha
      obtain ⟨r, hr, hrid⟩ := hs.owners a ha
      have hdisjoint := hunique
      unfold KeyUnique at hdisjoint
      rw [hdeliveries, List.map_append, List.nodup_append] at hdisjoint
      exact hdisjoint.2.2 r.id (List.mem_map_of_mem hr) d.id (List.mem_map_of_mem hd)
        (hrid.trans hid)

theorem Db.prepare_advances {pf : Platform} {id token : Uuid} {templates : List (String × Content)}
    {recipients : List Recipient} {reply : Reply} (hs : db.Sound)
    (h : db.prepare pf draw id token templates recipients = .ok (db', reply)) :
    Db.Advances none db db' ∧ db'.actions = db.actions := by
  simp only [Db.prepare, bind_eq_ok, fetch_eq_ok] at h
  obtain ⟨e, -, h⟩ := h
  split at h
  · rw [pure_eq_ok, Prod.mk.injEq] at h
    obtain ⟨rfl, -⟩ := h
    exact ⟨Db.Untouched.advances ⟨rfl, rfl⟩ hs, rfl⟩
  · simp only [bind_eq_ok, ensure_eq_ok, exists_const, pure_eq_ok, Prod.mk.injEq] at h
    obtain ⟨-, -, s, hloop, rfl, -⟩ := h
    obtain ⟨added, hadded, hunique, hnew⟩ := Db.addDelivery_all hloop hs.deliveries
    exact ⟨Db.added_advances hs hadded rfl hunique hnew, rfl⟩

theorem Db.claimEvent_untouched {id : Option Uuid} {reply : Reply}
    (h : db.claimEvent draw id = .ok (db', reply)) :
    db.Untouched db' ∧ db'.actions = db.actions := by
  unfold Db.claimEvent at h
  dsimp only at h
  split at h
  · rw [pure_eq_ok, Prod.mk.injEq] at h
    obtain ⟨rfl, -⟩ := h
    exact ⟨⟨rfl, rfl⟩, rfl⟩
  · simp only [bind_eq_ok, fetch_eq_ok, pure_eq_ok, Prod.mk.injEq] at h
    obtain ⟨_, -, _, -, rfl, -⟩ := h
    exact ⟨⟨rfl, rfl⟩, rfl⟩

theorem Db.failEvent_untouched {id token : Uuid} {errorCode : String} {reply : Reply}
    (h : db.failEvent draw id token errorCode = .ok (db', reply)) :
    db.Untouched db' ∧ db'.actions = db.actions := by
  simp only [Db.failEvent, bind_eq_ok, ensure_eq_ok, exists_const, pure_eq_ok, Prod.mk.injEq] at h
  obtain ⟨_, -, -, rfl, -⟩ := h
  exact ⟨⟨rfl, rfl⟩, rfl⟩

theorem Db.command_advances {pf : Platform} {command : Command} {reply : Reply} (hs : db.Sound)
    (h : db.command pf command draw = .ok (db', reply)) :
    Db.Advances none db db' ∧ db'.actions = db.actions := by
  cases command with
  | claimEvent id =>
    obtain ⟨hu, hactions⟩ := Db.claimEvent_untouched h
    exact ⟨hu.advances hs, hactions⟩
  | prepare id token templates recipients => exact Db.prepare_advances hs h
  | failEvent id token errorCode =>
    obtain ⟨hu, hactions⟩ := Db.failEvent_untouched h
    exact ⟨hu.advances hs, hactions⟩
  | claimDelivery id => exact Db.claimDelivery_advances hs h
  | complete id token outcome errorCode providerMessageId =>
    rcases Db.complete_cases hs h with rfl | ⟨_, _, _, _, hadvances, hactions⟩
    · exact ⟨Db.Untouched.advances ⟨rfl, rfl⟩ hs, rfl⟩
    · exact ⟨hadvances, hactions⟩

/-! ## The staff -/

/-- A transaction that only wrote other tables. -/
structure Db.Aside (db db' : Db) : Prop where
  untouched : db.Untouched db'
  actions : db'.actions = db.actions

theorem Db.Aside.refl (db : Db) : db.Aside db := ⟨⟨rfl, rfl⟩, rfl⟩

theorem Db.Aside.sound (ha : db.Aside db') (hs : db.Sound) : db'.Sound :=
  (@Db.Untouched.advances _ _ none ha.untouched hs).sound hs (ha.actions ▸ hs.actions)

theorem Db.Untouched.then {db'' : Db} (hu : db.Untouched db') (ha : Db.Advances retry db' db'') :
    Db.Advances retry db db'' := by
  refine ⟨ha.deliveries, ha.tokens, ha.owners, ?_, ?_⟩
  · intro d hd
    rw [← hu.history]
    exact ha.next d (hu.deliveries ▸ hd)
  · intro d' hd'
    have hknown := ha.known d' hd'
    rw [hu.deliveries] at hknown
    exact hknown

theorem Db.requeue_advances {input : Retry} {queued : Bool} (hs : db.Sound) (hd : d ∈ db.deliveries)
    (hsuppressed : d.state ≠ .suppressed) (h : db.requeue draw input d = .ok (db', queued)) :
    Db.Advances (some input.acknowledgeUnknown) db db' ∧ db'.actions = db.actions := by
  simp only [Db.requeue, bind_eq_ok, ensure_eq_ok, exists_const] at h
  obtain ⟨-, hreview, hprogress, -, h⟩ := h
  by_cases hpending : d.state = .pending
  · rw [if_neg (not_not.mpr hpending), pure_eq_ok, Prod.mk.injEq] at h
    obtain ⟨rfl, -⟩ := h
    exact ⟨Db.Untouched.advances ⟨rfl, rfl⟩ hs, rfl⟩
  · rw [if_pos hpending] at h
    simp only [bind_eq_ok, pure_eq_ok, Prod.mk.injEq] at h
    obtain ⟨generation, hgeneration, rfl, -⟩ := h
    have hended : d.state = .sent ∨ d.state = .failed ∨ d.state = .unknown := by
      cases hstate : d.state with
      | pending => exact absurd hstate hpending
      | sending => exact absurd hstate hprogress
      | sent => exact .inl rfl
      | failed => exact .inr (.inl rfl)
      | unknown => exact .inr (.inr rfl)
      | suppressed => exact absurd hstate hsuppressed
    have hacknowledge : d.state = .unknown → input.acknowledgeUnknown = true := by
      intro hunknown
      by_contra hnot
      exact hreview ⟨hunknown, hnot⟩
    have hrewrites : Db.Rewrites (some input.acknowledgeUnknown)
        (fun r => if r.id = d.id then Delivery.requeued draw.now generation r else r) id db
        (db.updateDelivery d.id (Delivery.requeued draw.now generation)) := by
      refine ⟨rfl, (List.map_id _).symm, ?_, fun _ => rfl, fun _ => rfl, ?_⟩
      · intro r
        split <;> rfl
      · intro r hr
        rw [List.map_id]
        by_cases hid : r.id = d.id
        · obtain rfl := hs.deliveries.eq_of_key hr hd hid
          rw [if_pos rfl]
          exact .requeued _ rfl rfl
            ⟨hended, hacknowledge, rfl, incremented_eq_ok hgeneration, rfl, rfl⟩
        · rw [if_neg hid]
          exact .same rfl rfl
    exact ⟨hrewrites.advances hs, rfl⟩

theorem Db.resend_aside {r : Request} {id : Option Uuid} (h : db.resend draw r = .ok (db', id)) :
    db.Aside db' := by
  simp only [Db.resend, bind_eq_ok, ensure_eq_ok, exists_const, fetch_eq_ok, pure_eq_ok,
    Prod.mk.injEq] at h
  obtain ⟨-, parent, -, -, rfl, -⟩ := h
  split
  · exact ⟨⟨rfl, rfl⟩, rfl⟩
  · exact .refl db

theorem Db.retryEvent_aside {input : Retry} {id : Uuid} (h : db.retryEvent draw input id = .ok db') :
    db.Aside db' := by
  simp only [Db.retryEvent, bind_eq_ok, ensure_eq_ok, exists_const, pure_eq_ok] at h
  obtain ⟨-, rfl⟩ := h
  exact ⟨⟨rfl, rfl⟩, rfl⟩

theorem Db.resolveContact_aside {input : Retry} {r : Request}
    (h : db.resolveContact draw input r = .ok db') : db.Aside db' := by
  simp only [Db.resolveContact, bind_eq_ok, ensure_eq_ok, exists_const, pure_eq_ok] at h
  obtain ⟨-, -, rfl⟩ := h
  exact ⟨⟨rfl, rfl⟩, rfl⟩

theorem Db.target_aside {input : Retry} {r : Request} {id : Option Uuid}
    (h : db.target draw input r = .ok (db', id)) : db.Aside db' := by
  unfold Db.target at h
  split at h
  · cases h
    exact .refl db
  · exact Db.resend_aside h

theorem Db.retryTarget_advances {input : Retry} {r : Request} {id : Uuid} {result : Value}
    (hs : db.Sound) (h : db.retryTarget draw input r id = .ok (db', result)) :
    Db.Advances (some input.acknowledgeUnknown) db db' ∧ db'.actions = db.actions := by
  simp only [Db.retryTarget, bind_eq_ok, fetch_eq_ok] at h
  obtain ⟨d, hd, h⟩ := h
  by_cases hsuppressed : d.state = .suppressed
  · rw [if_pos hsuppressed] at h
    simp only [bind_eq_ok, ensure_eq_ok, exists_const, pure_eq_ok, Prod.mk.injEq] at h
    obtain ⟨-, db₁, hcontact, rfl, -⟩ := h
    have haside := Db.resolveContact_aside hcontact
    exact ⟨haside.untouched.advances hs, haside.actions⟩
  · rw [if_neg hsuppressed] at h
    simp only [bind_eq_ok, pure_eq_ok, Prod.mk.injEq] at h
    obtain ⟨⟨db₁, queued⟩, hrequeue, rfl, -⟩ := h
    exact Db.requeue_advances hs (List.mem_of_find?_eq_some hd) hsuppressed hrequeue

theorem Db.retryDelivery_advances {input : Retry} {r : Request} {result : Value} (hs : db.Sound)
    (h : db.retryDelivery draw input r = .ok (db', result)) :
    Db.Advances (some input.acknowledgeUnknown) db db' ∧ db'.actions = db.actions := by
  simp only [Db.retryDelivery, bind_eq_ok] at h
  obtain ⟨⟨db₁, id⟩, htarget, h⟩ := h
  have haside := Db.target_aside htarget
  cases id with
  | none =>
    dsimp only at h
    rw [pure_eq_ok, Prod.mk.injEq] at h
    obtain ⟨rfl, -⟩ := h
    exact ⟨haside.untouched.advances hs, haside.actions⟩
  | some id =>
    obtain ⟨hadvances, hactions⟩ := Db.retryTarget_advances (haside.sound hs) h
    exact ⟨haside.untouched.then hadvances, hactions.trans haside.actions⟩

/-- The insertion of the operation leaves the deliveries as they are. -/
theorem Db.Advances.act {actor : Actor} {input : Retry} {hash : Digest} {result : Value}
    (ha : Db.Advances retry db db') : Db.Advances retry db (db'.act actor input hash result) :=
  ⟨ha.deliveries, ha.tokens, ha.owners, ha.next, ha.known⟩

theorem Db.act_actions {actor : Actor} {input : Retry} {hash : Digest} {result : Value}
    (hactions : db'.actions = db.actions) : ∃ x, x.id = input.operationId ∧
      (db'.act actor input hash result).actions = db.actions ++ [x] := by
  refine ⟨⟨input.operationId, actor.externalUserId, hash, result⟩, rfl, ?_⟩
  rw [← hactions]
  rfl

/-- A retry whose operation is known changes nothing; another one leaves its operation. -/
structure Db.Retried (actor : Actor) (input : Retry) (db db' : Db) : Prop where
  finance : actor.finance = .ok ()
  effect : (∃ x ∈ db.actions, x.id = input.operationId) ∧ db' = db ∨
    (∀ x ∈ db.actions, x.id ≠ input.operationId) ∧
      Db.Advances (some input.acknowledgeUnknown) db db' ∧
      ∃ x, x.id = input.operationId ∧ db'.actions = db.actions ++ [x]

theorem Db.retry_retried {pf : Platform} {actor : Actor} {input : Retry} {result : Value} (hs : db.Sound)
    (h : db.retry pf actor input draw = .ok (db', result)) : Db.Retried actor input db db' := by
  simp only [Db.retry, bind_eq_ok, ensure_eq_ok, exists_const] at h
  obtain ⟨_, hfinance, -, h⟩ := h
  refine ⟨hfinance, ?_⟩
  cases hknown : lookup Action.id input.operationId db.actions with
  | some old =>
    rw [hknown] at h
    simp only [bind_eq_ok, ensure_eq_ok, exists_const, pure_eq_ok, Prod.mk.injEq] at h
    exact .inl ⟨⟨old, lookup_mem hknown, lookup_key hknown⟩, h.2.1.symm⟩
  | none =>
    rw [hknown] at h
    simp only [bind_eq_ok, ensure_eq_ok, exists_const, fetch_eq_ok] at h
    obtain ⟨r, -, -, -, h⟩ := h
    refine .inr ⟨lookup_eq_none.mp hknown, ?_⟩
    cases hevent : input.eventId with
    | some event =>
      rw [hevent] at h
      simp only [bind_eq_ok, pure_eq_ok, Prod.mk.injEq] at h
      obtain ⟨db₁, hretry, rfl, -⟩ := h
      have haside := Db.retryEvent_aside hretry
      exact ⟨(haside.untouched.advances hs).act, Db.act_actions haside.actions⟩
    | none =>
      rw [hevent] at h
      simp only [bind_eq_ok, pure_eq_ok, Prod.mk.injEq] at h
      obtain ⟨⟨db₁, result'⟩, hretry, rfl, -⟩ := h
      obtain ⟨hadvances, hactions⟩ := Db.retryDelivery_advances hs hretry
      exact ⟨hadvances.act, Db.act_actions hactions⟩

end ShaponTravels.Wallet.Notifications
