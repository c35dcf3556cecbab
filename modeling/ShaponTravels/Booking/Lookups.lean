import ShaponTravels.Booking.Outcomes
import ShaponTravels.Library.Watermark

/-!
# Lookups — the deadline that overlapping PNR lookups leave

A lookup is stamped with the clock of its dispatch and saved when it completes.  One column keeps the
latest stamp of all lookups, verified or not, and decides whether the deadline of a verified one is
saved; an issue reads the verified observation with the latest stamp instead.
-/

namespace ShaponTravels.Booking

open Library

variable {site : Site} {w w' : World} {e : Event} {b b' : FlightBooking}
  {t : List (Transition World Event)} {booking : Uuid}

/-! ## Lookups and their writes -/

/-- A lookup that completes: its call, the body it returned and the clock of its transaction. -/
structure Lookup where
  call : PnrCall
  body : Value
  now : Int

def Lookup.verified (l : Lookup) : Bool := pnrReadable l.body l.call.payload

def Lookup.deadline (site : Site) (l : Lookup) : Option String := site.pnrDeadline l.body

/-- What a lookup does to the deadline of its booking. -/
def Lookup.write (site : Site) (l : Lookup) : TimedWrite (Option String) where
  time := l.call.started
  value := if l.verified then some (l.deadline site) else none

def Lookup.event (l : Lookup) : Event := .pnr l.call l.body l.now

/-- The deadline of a booking and the stamp of its last lookup. -/
def FlightBooking.limit (b : FlightBooking) : Watermark (Option String) where
  mark := b.reconciledAt
  value := b.ticketingTimeLimit

/-- The lookup of the booking that an event completes. -/
def Event.lookup (booking : Uuid) : Event → Option Lookup
  | .pnr c body now => if c.booking = booking then some ⟨c, body, now⟩ else none
  | _ => none

/-- The lookups of a booking in the order a run completes them. -/
def completed (booking : Uuid) (t : List (Transition World Event)) : List Lookup :=
  t.filterMap fun r => r.label.lookup booking

theorem completed_snoc (r : Transition World Event) :
    completed booking (t ++ [r]) = completed booking t ++ (r.label.lookup booking).toList := by
  simp only [completed, List.filterMap_append, List.filterMap_cons, List.filterMap_nil]
  cases r.label.lookup booking <;> rfl

theorem lookup_eq_some {l : Lookup} (h : e.lookup booking = some l) :
    e = l.event ∧ l.call.booking = booking := by
  cases e with
  | pnr c body now =>
    simp only [Event.lookup, Option.ite_none_right_eq_some, Option.some.injEq] at h
    obtain ⟨hbooking, rfl⟩ := h
    exact ⟨rfl, hbooking⟩
  | _ => cases h

theorem write_of_verified {l : Lookup} (h : l.verified = true) :
    l.write site = ⟨l.call.started, some (l.deadline site)⟩ := by
  rw [Lookup.write, if_pos h]

theorem write_of_unverified {l : Lookup} (h : l.verified = false) :
    l.write site = ⟨l.call.started, none⟩ := by
  rw [Lookup.write, if_neg (by simp [h])]

/-- The columns are a register under the stamps. -/
theorem pnrObserved_limit (l : Lookup) (b : FlightBooking) :
    (pnrObserved site l.call l.body l.now b).limit = b.limit.record (l.write site) := by
  have hreadable : pnrReadable l.body l.call.payload = l.verified := rfl
  have htime : (l.write site).time = l.call.started := rfl
  unfold pnrObserved Watermark.record
  simp only [hreadable, htime, FlightBooking.limit]
  split
  · cases hverified : l.verified with
    | true => rw [write_of_verified hverified]; rfl
    | false => rw [write_of_unverified hverified]; rfl
  · rfl

/-! ## The deadline over a run -/

/-- One step writes what the lookup it completes writes. -/
theorem step_limit (hs : w.Sound) (hu : Unanswered w) (h : w.step site e = .ok w')
    (hb : b ∈ w.db.bookings) (hresponse : b.originalResponse ≠ none) :
    ∃ b' ∈ w'.db.bookings, b'.id = b.id ∧ b'.originalResponse ≠ none ∧
      b'.limit = b.limit.replay ((e.lookup b.id).toList.map (Lookup.write site)) := by
  obtain ⟨b', hb', hrow⟩ := step_booking hs h hb
  have hkept := hu.response_kept hs h hb hrow hresponse
  refine ⟨b', hb', hrow.id, by rw [hkept]; exact hresponse, ?_⟩
  cases hrow with
  | kept hrow =>
    subst hrow
    cases hlookup : e.lookup b'.id with
    | none => rfl
    | some l =>
      -- a lookup of the booking that was kept refused the write
      obtain ⟨rfl, hbooking⟩ := lookup_eq_some hlookup
      simp only [Lookup.event, World.step, bind_eq_ok, pure_eq_ok] at h
      obtain ⟨w₁, htake, rfl⟩ := h
      obtain ⟨-, rfl⟩ := World.take_ok htake
      obtain ⟨observations, events, hsaved⟩ := savePnr_logged site w.db l.call l.body l.now
      replace hb' : b' ∈ (savePnr site w.db l.call l.body l.now).bookings := hb'
      rw [hsaved] at hb'
      rcases modify_cases hb' with ⟨-, hne⟩ | ⟨b₀, hb₀, hid₀, hsame⟩
      · exact absurd hbooking.symm hne
      · have hid : b₀.id = b'.id := by rw [hsame, pnrObserved_id]
        have heq := hs.booking_unique.eq_of_key hb₀ hb hid
        rw [heq] at hsame
        conv_lhs => rw [hsame]
        exact pnrObserved_limit l b'
  | resolved administrator input response now he hstate hrow =>
    subst he
    rw [hrow]
    rfl
  | observed c body now he hbooking hrow =>
    subst he
    rw [hrow, pnrObserved_limit ⟨c, body, now⟩]
    simp only [Event.lookup, if_pos hbooking]
    rfl
  | answered j reply draw he hbooks hbooking hrow =>
    subst he
    exact absurd (hu.answer hs h hbooks hb hbooking) hresponse

/-- A run writes what its lookups write, in the order it completes them. -/
theorem run_limit (hs : w.Sound) (hu : Unanswered w) (hr : (machine site).Run w t w')
    (hb : b ∈ w.db.bookings) (hresponse : b.originalResponse ≠ none) :
    (w'.Sound ∧ Unanswered w') ∧
      ∃ b' ∈ w'.db.bookings, b'.id = b.id ∧ b'.originalResponse ≠ none ∧
        b'.limit = b.limit.replay ((completed b.id t).map (Lookup.write site)) := by
  induction hr with
  | nil => exact ⟨⟨hs, hu⟩, b, hb, rfl, hresponse, rfl⟩
  | snoc hr hstep ih =>
    obtain ⟨⟨hs₁, hu₁⟩, b₁, hb₁, hid₁, hresponse₁, hlimit₁⟩ := ih
    obtain ⟨b', hb', hid', hresponse', hlimit'⟩ := step_limit hs₁ hu₁ hstep hb₁ hresponse₁
    refine ⟨⟨hs₁.step hstep, hu₁.step hs₁ hstep⟩, b', hb', hid'.trans hid₁, hresponse', ?_⟩
    rw [hlimit', hid₁, hlimit₁, completed_snoc, List.map_append]
    simp only [Watermark.replay, List.foldl_append]

/-- The observations of the booking are the earlier ones and those of the lookups. -/
theorem run_observations (hr : (machine site).Run w t w') (booking : Uuid) :
    (∀ o ∈ w'.db.observations, o.bookingId = booking → o ∈ w.db.observations ∨
      ∃ l ∈ completed booking t, o.response = l.body ∧ o.verified = l.verified ∧
        o.requestedAt = l.call.started) ∧
    ∀ l ∈ completed booking t, ∃ o ∈ w'.db.observations, o.bookingId = booking ∧
      o.response = l.body ∧ o.verified = l.verified ∧ o.requestedAt = l.call.started := by
  induction hr with
  | nil => exact ⟨fun o ho _ => .inl ho, fun l hl => absurd hl List.not_mem_nil⟩
  | @snoc w₁ w₂ t e hr hstep ih =>
    obtain ⟨hback, hforth⟩ := ih
    rw [step_observations hstep, completed_snoc]
    constructor
    · intro o ho hbooking
      rcases List.mem_append.mp ho with ho | ho
      · rcases hback o ho hbooking with hold | ⟨l, hl, hrest⟩
        · exact .inl hold
        · exact .inr ⟨l, List.mem_append_left _ hl, hrest⟩
      · cases e with
        | pnr c body now =>
          rw [List.mem_singleton.mp ho] at hbooking ⊢
          refine .inr ⟨⟨c, body, now⟩, List.mem_append_right _ ?_, rfl, rfl, rfl⟩
          show _ ∈ (Event.lookup booking (.pnr c body now)).toList
          simp only [Event.lookup, if_pos (show c.booking = booking from hbooking)]
          exact List.mem_singleton.mpr rfl
        | _ => cases ho
    · intro l hl
      rcases List.mem_append.mp hl with hl | hl
      · obtain ⟨o, ho, hrest⟩ := hforth l hl
        exact ⟨o, List.mem_append_left _ ho, hrest⟩
      · obtain ⟨rfl, hbooking⟩ := lookup_eq_some (Option.mem_toList.mp hl)
        exact ⟨_, List.mem_append_right _ (List.mem_singleton.mpr rfl), hbooking, rfl, rfl, rfl⟩

/-! ## The observation an issue reads -/

/-- `o` may stand for the observations of the booking in `os` and the one found before. -/
def Chosen (booking : Uuid) (os : List PnrObservation) (best : Option PnrObservation)
    (o : PnrObservation) : Prop :=
  (best = some o ∨ (o ∈ os ∧ o.bookingId = booking ∧ o.verified = true)) ∧
    (∀ o' ∈ os, o'.bookingId = booking → o'.verified = true → o'.requestedAt ≤ o.requestedAt) ∧
    ∀ o' ∈ best, o'.requestedAt ≤ o.requestedAt

theorem verifiedPnr_fold (booking : Uuid) (os : List PnrObservation)
    (best : Option PnrObservation) {o : PnrObservation}
    (h : os.foldl (fun best o => if o.bookingId = booking ∧ o.verified then some (o.later best)
      else best) best = some o) : Chosen booking os best o := by
  induction os generalizing best with
  | nil =>
    rw [List.foldl_nil] at h
    subst h
    exact ⟨.inl rfl, by simp, fun o' ho' => by cases ho'; exact le_refl _⟩
  | cons x os ih =>
    rw [List.foldl_cons] at h
    split at h
    · rename_i hx
      obtain ⟨hfrom, hall, hbest⟩ := ih _ h
      have hle := hbest (x.later best) rfl
      have hlater : (x.later best = x ∨ best = some (x.later best)) ∧
          x.requestedAt ≤ (x.later best).requestedAt ∧
          ∀ o' ∈ best, o'.requestedAt ≤ (x.later best).requestedAt := by
        unfold PnrObservation.later
        cases best with
        | none => simp
        | some y =>
          dsimp only
          split
          · rename_i hlt
            refine ⟨.inl rfl, le_refl _, fun o' ho' => ?_⟩
            cases ho'
            omega
          · rename_i hnot
            refine ⟨.inr rfl, by omega, fun o' ho' => ?_⟩
            cases ho'
            exact le_refl _
      refine ⟨?_, ?_, fun o' ho' => (hlater.2.2 o' ho').trans hle⟩
      · rcases hfrom with hsame | ⟨hmem, hrest⟩
        · cases hsame
          rcases hlater.1 with hsame | hsame
          · rw [hsame]
            exact .inr ⟨List.mem_cons_self, hx⟩
          · exact .inl hsame
        · exact .inr ⟨List.mem_cons_of_mem _ hmem, hrest⟩
      · intro o' ho' hbooking hverified
        rcases List.mem_cons.mp ho' with rfl | hmem
        · exact hlater.2.1.trans hle
        · exact hall o' hmem hbooking hverified
    · rename_i hx
      obtain ⟨hfrom, hall, hbest⟩ := ih _ h
      refine ⟨?_, ?_, hbest⟩
      · rcases hfrom with hsame | ⟨hmem, hrest⟩
        · exact .inl hsame
        · exact .inr ⟨List.mem_cons_of_mem _ hmem, hrest⟩
      · intro o' ho' hbooking hverified
        rcases List.mem_cons.mp ho' with rfl | hmem
        · exact absurd ⟨hbooking, hverified⟩ hx
        · exact hall o' hmem hbooking hverified

/-- Some observation is found when there is a verified one. -/
theorem verifiedPnr_isSome (booking : Uuid) (os : List PnrObservation)
    (best : Option PnrObservation)
    (h : best.isSome ∨ ∃ o ∈ os, o.bookingId = booking ∧ o.verified = true) :
    (os.foldl (fun best o => if o.bookingId = booking ∧ o.verified then some (o.later best)
      else best) best).isSome := by
  induction os generalizing best with
  | nil => simpa using h
  | cons x os ih =>
    rw [List.foldl_cons]
    by_cases hx : x.bookingId = booking ∧ x.verified = true
    · rw [if_pos hx]
      exact ih _ (.inl rfl)
    · rw [if_neg hx]
      refine ih _ (h.imp_right ?_)
      rintro ⟨o, ho, hrest⟩
      rcases List.mem_cons.mp ho with rfl | hmem
      · exact absurd hrest hx
      · exact ⟨o, hmem, hrest⟩

/-- A verified observation that no other one is as late as is the one an issue reads. -/
theorem verifiedPnr_eq {db : Db} {o : PnrObservation} (ho : o ∈ db.observations)
    (hbooking : o.bookingId = booking) (hverified : o.verified = true)
    (hlatest : ∀ o' ∈ db.observations, o'.bookingId = booking → o'.verified = true →
      o.requestedAt ≤ o'.requestedAt → o'.response = o.response) :
    db.verifiedPnr booking = some o.response := by
  have hsome := verifiedPnr_isSome booking db.observations none (.inr ⟨o, ho, hbooking, hverified⟩)
  obtain ⟨o', hfold⟩ := Option.isSome_iff_exists.mp hsome
  obtain ⟨hfrom, hall, -⟩ := verifiedPnr_fold booking db.observations none hfold
  rw [Db.verifiedPnr, hfold]
  rcases hfrom with hnone | ⟨hmem, hbooking', hverified'⟩
  · cases hnone
  · rw [Option.map_some, hlatest o' hmem hbooking' hverified' (hall o ho hbooking hverified)]

/-! ## Sets of overlapping lookups -/

/-- The lookups of the booking that are under way, with what they will return: their stamps differ,
and the lookups that were saved before have earlier ones. -/
structure Overlapping (w : World) (booking : Uuid) (lookups : List Lookup) : Prop where
  underWay : ∀ l ∈ lookups, .pnr l.call ∈ w.calls
  named : ∀ l ∈ lookups, l.call.booking = booking
  distinct : (lookups.map fun l => l.call.started).Nodup
  later : ∀ o ∈ w.db.observations, o.bookingId = booking → ∀ l ∈ lookups,
    o.requestedAt < l.call.started

/-- `v` is the verified lookup with the latest stamp. -/
structure Latest (lookups : List Lookup) (v : Lookup) : Prop where
  mem : v ∈ lookups
  verified : v.verified = true
  latest : ∀ l ∈ lookups, l.verified = true → l.call.started ≤ v.call.started

/-- The stored deadline is the one `v` observed, and an issue reads the observation of `v`. -/
def Agrees (site : Site) (w : World) (booking : Uuid) (v : Lookup) : Prop :=
  w.db.verifiedPnr booking = some v.body ∧
    ∃ b ∈ w.db.bookings, b.id = booking ∧ b.ticketingTimeLimit = v.deadline site

variable {lookups order : List Lookup} {v : Lookup}

theorem Overlapping.perm (h : Overlapping w booking lookups) (hperm : order.Perm lookups) :
    Overlapping w booking order where
  underWay l hl := h.underWay l (hperm.subset hl)
  named l hl := h.named l (hperm.subset hl)
  distinct := (hperm.map _).nodup_iff.mpr h.distinct
  later o ho hbooking l hl := h.later o ho hbooking l (hperm.subset hl)

/-- Lookups that are under way can complete in any order. -/
theorem exists_run (site : Site) (w : World) (booking : Uuid) (order : List Lookup)
    (hunder : ∀ l ∈ order, .pnr l.call ∈ w.calls) (hbooking : ∀ l ∈ order, l.call.booking = booking)
    (hdistinct : (order.map fun l => l.call.started).Nodup) :
    ∃ t w', (machine site).Run w t w' ∧ completed booking t = order ∧
      ∀ c ∈ w.calls, (∀ l ∈ order, c ≠ .pnr l.call) → c ∈ w'.calls := by
  induction order using List.reverseRecOn with
  | nil => exact ⟨[], w, .nil w, rfl, fun c hc _ => hc⟩
  | append_singleton order l ih =>
    obtain ⟨t, w₁, hr, hcompleted, hcalls⟩ :=
      ih (fun l' hl' => hunder l' (List.mem_append_left _ hl'))
        (fun l' hl' => hbooking l' (List.mem_append_left _ hl')) (by
          rw [List.map_append] at hdistinct
          exact hdistinct.of_append_left)
    have hl : l ∈ order ++ [l] := List.mem_append_right _ (List.mem_singleton.mpr rfl)
    have hother : ∀ l' ∈ order, Call.pnr l.call ≠ .pnr l'.call := by
      intro l' hl' hsame
      rw [List.map_append, List.nodup_append] at hdistinct
      refine hdistinct.2.2 l'.call.started (List.mem_map_of_mem hl') l.call.started (by simp) ?_
      rw [Call.pnr.inj hsame]
    have hmem : Call.pnr l.call ∈ w₁.calls := hcalls _ (hunder l hl) hother
    have hstep : w₁.step site l.event = .ok { w₁ with
        calls := w₁.calls.erase (.pnr l.call)
        db := savePnr site w₁.db l.call l.body l.now } := by
      simp only [Lookup.event, World.step, World.take, bind_eq_ok, ensure_eq_ok, exists_const,
        pure_eq_ok]
      exact ⟨_, ⟨hmem, rfl⟩, rfl⟩
    refine ⟨_, _, hr.snoc hstep, ?_, ?_⟩
    · rw [completed_snoc, hcompleted]
      simp only [Lookup.event, Event.lookup, if_pos (hbooking l hl)]
      rfl
    · intro c hc hne
      have hc₁ := hcalls c hc (fun l' hl' => hne l' (List.mem_append_left _ hl'))
      exact (List.mem_erase_of_ne (hne l hl)).mpr hc₁

/-- Whatever the order, an issue reads the verified lookup with the latest stamp. -/
theorem completed_read (hr : (machine site).Run w t w') (ho : Overlapping w booking lookups)
    (hv : Latest lookups v) (hperm : (completed booking t).Perm lookups) :
    w'.db.verifiedPnr booking = some v.body := by
  obtain ⟨hback, hforth⟩ := run_observations hr booking
  obtain ⟨o, hmem, hbooking, hresponse, hverified, hstamp⟩ :=
    hforth v (hperm.mem_iff.mpr hv.mem)
  rw [← hresponse]
  refine verifiedPnr_eq hmem hbooking (hverified.trans hv.verified) ?_
  intro o' ho' hbooking' hverified' hle
  rcases hback o' ho' hbooking' with hold | ⟨l, hl, hresponse', hverified'', hstamp'⟩
  · have hlt := ho.later o' hold hbooking' v hv.mem
    omega
  · have hl' := hperm.mem_iff.mp hl
    have hlatest := hv.latest l hl' (hverified''.symm.trans hverified')
    have hsame : l = v := List.inj_on_of_nodup_map ho.distinct hl' hv.mem (by omega)
    rw [hresponse', hsame, hresponse]

/-! ## The result -/

theorem write_value_none {l : Lookup} : (l.write site).value = none ↔ l.verified = false := by
  unfold Lookup.write
  cases l.verified <;> simp

theorem mem_write_value {l : Lookup} {x : Option String} :
    x ∈ (l.write site).value ↔ l.verified = true ∧ l.deadline site = x := by
  unfold Lookup.write
  cases l.verified <;> simp

theorem forall_write_value {l : Lookup} {p : Option String → Prop} :
    (∀ x ∈ (l.write site).value, p x) ↔ (l.verified = true → p (l.deadline site)) := by
  constructor
  · exact fun h hverified => h _ (mem_write_value.mpr ⟨hverified, rfl⟩)
  · intro h x hx
    obtain ⟨hverified, rfl⟩ := mem_write_value.mp hx
    exact h hverified

/-- However overlapping lookups of a booking complete, the stored deadline is the one of the latest
verified lookup exactly when no unverified lookup was dispatched after it, or every deadline that
was stored or observed is the same; an issue reads that lookup in any case. -/
theorem pnr_deadline_agreement (hw : (machine site).Reachable w) (hb : b ∈ w.db.bookings)
    (ho : Overlapping w b.id lookups) (hv : Latest lookups v) :
    (∀ t w', (machine site).Run w t w' → (completed b.id t).Perm lookups →
      w'.db.verifiedPnr b.id = some v.body) ∧
    ((∀ t w', (machine site).Run w t w' → (completed b.id t).Perm lookups →
        Agrees site w' b.id v) ↔
      (∀ l ∈ lookups, l.verified = false → l.call.started < v.call.started) ∨
        (b.ticketingTimeLimit = v.deadline site ∧
          ∀ l ∈ lookups, l.verified = true → l.deadline site = v.deadline site)) := by
  refine ⟨fun t w' hr hperm => completed_read hr ho hv hperm, ?_⟩
  obtain ⟨hs, hu⟩ := reachable_unanswered hw
  have hresponse : b.originalResponse ≠ none := by
    obtain ⟨b₁, hb₁, hid, hresponse⟩ := hu.calls v.call (ho.underWay v hv.mem)
    rw [hs.booking_unique.eq_of_key hb hb₁ ((ho.named v hv.mem).symm.trans hid.symm)]
    exact hresponse
  have hbelow : ∀ l ∈ lookups, b.limit.Below (l.write site).time := by
    intro l hl instant hinstant
    obtain ⟨o, hmem, hbooking, rfl⟩ := hu.reconciled b hb instant hinstant
    exact (ho.later o hmem hbooking l hl).le
  have hregister := Watermark.replay_perm_iff (f := Lookup.write site) (v := v)
    (a := v.deadline site) ho.distinct hbelow hv.mem (mem_write_value.mpr ⟨hv.verified, rfl⟩)
    (fun l hl hvalue => hv.latest l hl (by
      rw [Ne, write_value_none, Bool.not_eq_false] at hvalue
      exact hvalue))
  have hcondition : ((∀ l ∈ lookups, (l.write site).value = none →
        (l.write site).time < (v.write site).time) ∨
      (b.limit.value = v.deadline site ∧
        ∀ l ∈ lookups, ∀ x ∈ (l.write site).value, x = v.deadline site)) ↔
      (∀ l ∈ lookups, l.verified = false → l.call.started < v.call.started) ∨
        (b.ticketingTimeLimit = v.deadline site ∧
          ∀ l ∈ lookups, l.verified = true → l.deadline site = v.deadline site) := by
    simp only [write_value_none, forall_write_value]
    rfl
  rw [← hcondition, ← hregister]
  constructor
  · intro hagrees order hperm
    have ho' := ho.perm hperm
    obtain ⟨t, w', hr, hcompleted, -⟩ :=
      exists_run site w b.id order ho'.underWay ho'.named ho'.distinct
    obtain ⟨-, b', hb', hid', hlimit⟩ := hagrees t w' hr (by rw [hcompleted]; exact hperm)
    obtain ⟨⟨hs', -⟩, b₁, hb₁, hid₁, -, hlimit₁⟩ := run_limit hs hu hr hb hresponse
    have hsame := hs'.booking_unique.eq_of_key hb₁ hb' (hid₁.trans hid'.symm)
    subst hsame
    rw [hcompleted] at hlimit₁
    rw [← hlimit₁]
    exact hlimit
  · intro hreplay t w' hr hperm
    refine ⟨completed_read hr ho hv hperm, ?_⟩
    obtain ⟨-, b₁, hb₁, hid₁, -, hlimit₁⟩ := run_limit hs hu hr hb hresponse
    refine ⟨b₁, hb₁, hid₁, ?_⟩
    show b₁.limit.value = v.deadline site
    rw [hlimit₁]
    exact hreplay _ hperm

/-! ## Two lookups that overlap -/

def sampleCall (started : Int) : PnrCall where
  booking := 20
  payload := .object [("PNR", .str "ABC123"), ("BookingRefNumber", .str "ABC123"),
    ("BookingCodeRef", .str "b"), ("UniqueTransID", .str "u"), ("PriceCodeRef", .str "p"),
    ("ItemCodeRef", .str "i")]
  started := started
  actorKind := "client"
  actorId := 1

/-- A lookup that finds the booking with a deadline. -/
def sampleFound (started : Int) : Lookup where
  call := sampleCall started
  body := .object [("item1", .object [("pnr", .str "ABC123"), ("status", .str "Booked"),
      ("lastTicketTime", .str "01/01/2030 00:00:00")]),
    ("item2", .object [("isSuccess", .bool true)])]
  now := 12

/-- A lookup that finds nothing. -/
def sampleMissed (started : Int) : Lookup where
  call := sampleCall started
  body := .obj []
  now := 12

/-- A held booking and two lookups of it. -/
def sampleLookups : List (World → List Event) :=
  [fun _ => [.readPnr 1 20 "client" 1 10, .readPnr 1 20 "client" 1 11]]

/-- What the two lookups find. -/
structure LookedUp (w : World) (b : FlightBooking) : Prop where
  reachable : (machine sampleSite).Reachable w
  mem : b ∈ w.db.bookings
  id : b.id = 20
  limit : b.limit = ⟨none, none⟩
  calls : w.calls = [.pnr (sampleCall 10), .pnr (sampleCall 11)]
  observations : w.db.observations = []

set_option maxRecDepth 10000 in
theorem exists_lookedUp : ∃ w b, LookedUp w b := by
  have hend : ((World.empty ⟨0, 0, 0⟩).drive sampleSite (sampleBooking ++ sampleLookups)).map
      (fun w => (w.db.bookings.map fun b => (b.id, b.limit), w.calls, w.db.observations.length)) =
      .ok ([(20, ⟨none, none⟩)], [.pnr (sampleCall 10), .pnr (sampleCall 11)], 0) := by
    decide +kernel
  obtain ⟨w, hdrive, hw⟩ := map_eq_ok.mp hend
  simp only [Prod.mk.injEq, List.length_eq_zero_iff] at hw
  obtain ⟨hbookings, hcalls, hobservations⟩ := hw
  obtain ⟨t, hr, -⟩ := run_of_drive (.nil _) hdrive
  match hrows : w.db.bookings with
  | [] => simp [hrows] at hbookings
  | b :: rest =>
    rw [hrows, List.map_cons, List.cons.injEq, Prod.mk.injEq] at hbookings
    obtain ⟨⟨hid, hlimit⟩, -⟩ := hbookings
    exact ⟨w, b, ⟨_, t, ⟨_, rfl⟩, hr⟩, by rw [hrows]; exact List.mem_cons_self, hid, hlimit,
      hcalls, hobservations⟩

theorem LookedUp.overlapping (h : LookedUp w b) {l l' : Lookup} (hl : l.call = sampleCall 10)
    (hl' : l'.call = sampleCall 11) : Overlapping w b.id [l, l'] where
  underWay x hx := by
    rw [h.calls]
    rcases List.mem_pair.mp hx with rfl | rfl
    · rw [hl]
      exact List.mem_cons_self
    · rw [hl']
      exact List.mem_cons_of_mem _ List.mem_cons_self
  named x hx := by
    rw [h.id]
    rcases List.mem_pair.mp hx with rfl | rfl
    · rw [hl]
      rfl
    · rw [hl']
      rfl
  distinct := by
    simp only [List.map_cons, List.map_nil, hl, hl']
    decide
  later o ho := by
    rw [h.observations] at ho
    cases ho

/-- A lookup that found nothing and was dispatched last completes first: the deadline the other one
observed is never stored, though an issue reads it. -/
theorem pnr_deadline_agreement_stale : ∃ w b lookups v t w',
    (machine sampleSite).Reachable w ∧ b ∈ w.db.bookings ∧ Overlapping w b.id lookups ∧
    Latest lookups v ∧ (machine sampleSite).Run w t w' ∧
    (completed b.id t).Perm lookups ∧ w'.db.verifiedPnr b.id = some v.body ∧
    v.deadline sampleSite = some "01/01/2030 00:00:00" ∧
    ∃ b' ∈ w'.db.bookings, b'.id = b.id ∧ b'.ticketingTimeLimit = none := by
  obtain ⟨w, b, h⟩ := exists_lookedUp
  have ho : Overlapping w b.id [sampleFound 10, sampleMissed 11] := h.overlapping rfl rfl
  have hv : Latest [sampleFound 10, sampleMissed 11] (sampleFound 10) :=
    ⟨List.mem_cons_self, by decide, by decide⟩
  have hperm : [sampleMissed 11, sampleFound 10].Perm [sampleFound 10, sampleMissed 11] :=
    List.Perm.swap _ _ _
  obtain ⟨hs, hu⟩ := reachable_unanswered h.reachable
  have hresponse : b.originalResponse ≠ none := by
    obtain ⟨b₁, hb₁, hid, hresponse⟩ := hu.calls (sampleCall 10) (by rw [h.calls]; simp)
    rw [hs.booking_unique.eq_of_key h.mem hb₁ (h.id.trans hid.symm)]
    exact hresponse
  have ho' := ho.perm hperm
  obtain ⟨t, w', hr, hcompleted, -⟩ :=
    exists_run sampleSite w b.id _ ho'.underWay ho'.named ho'.distinct
  have hdone : (completed b.id t).Perm [sampleFound 10, sampleMissed 11] := by
    rw [hcompleted]
    exact hperm
  obtain ⟨-, b', hb', hid', -, hlimit⟩ := run_limit hs hu hr h.mem hresponse
  refine ⟨w, b, _, _, t, w', h.reachable, h.mem, ho, hv, hr, hdone, completed_read hr ho hv hdone,
    by decide, b', hb', hid', ?_⟩
  show b'.limit.value = none
  rw [hlimit, hcompleted, h.limit]
  decide

/-- With the lookup that found nothing dispatched first, either order leaves the deadline. -/
theorem pnr_deadline_agreement_fresh : ∃ w b v, (machine sampleSite).Reachable w ∧
    b ∈ w.db.bookings ∧ Overlapping w b.id [sampleMissed 10, v] ∧ v.verified = true ∧
    ∀ t w', (machine sampleSite).Run w t w' →
      (completed b.id t).Perm [sampleMissed 10, v] → Agrees sampleSite w' b.id v := by
  obtain ⟨w, b, h⟩ := exists_lookedUp
  have ho : Overlapping w b.id [sampleMissed 10, sampleFound 11] := h.overlapping rfl rfl
  have hv : Latest [sampleMissed 10, sampleFound 11] (sampleFound 11) :=
    ⟨List.mem_cons_of_mem _ List.mem_cons_self, by decide, by decide⟩
  refine ⟨w, b, sampleFound 11, h.reachable, h.mem, ho, hv.verified, ?_⟩
  exact (pnr_deadline_agreement h.reachable h.mem ho hv).2.mpr (.inl (by decide))

end ShaponTravels.Booking
