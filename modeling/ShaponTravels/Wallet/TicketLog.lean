import ShaponTravels.Wallet.TicketConserved

/-!
# TicketLog — the events of a request

A change of a request and its event are written together.  So the log of a request, played from the start, ends in
the version and the stage of its row, and every turn in it is one that the rules allow.
-/

namespace ShaponTravels.Wallet.Tickets

open Library
open Nonissuance (Actor)

variable {desk : Desk} {db db' : Db} {actor : Actor} {r saved : Request} {input : Mutation} {draw : Draw} {ev : Event}

/-- The events of a request, in the order in which they were written. -/
def logOf (db : Db) (id : Uuid) : List Event := db.events.filter fun ev => ev.requestId = id

/-- The stage that an event may lead to. -/
def Allowed : Option Status → Status → Prop
  | none, status => status = .requested
  | some before, status => status = before ∨ follows before status

instance : (before : Option Status) → (status : Status) → Decidable (Allowed before status)
  | none, status => inferInstanceAs (Decidable (status = .requested))
  | some before, status => inferInstanceAs (Decidable (status = before ∨ follows before status))

/-- An event is played at the version before its own, from the stage that it names. -/
def play (played : Int × Option Status) (ev : Event) : Option (Int × Option Status) :=
  if ev.requestVersion = played.1 + 1 ∧ ev.fromStatus = played.2 ∧ Allowed played.2 ev.toStatus then
    some (ev.requestVersion, some ev.toStatus)
  else none

/-- The log of a request, played from nothing. -/
def replayed (db : Db) (id : Uuid) : Option (Int × Option Status) := (logOf db id).foldlM play (0, none)

/-- Every log ends in the row of its request, and there is no event without a request. -/
structure Logs (db : Db) : Prop where
  replays : ∀ r ∈ db.requests, replayed db r.id = some (r.version, some r.status)
  owned : ∀ ev ∈ db.events, ∃ r ∈ db.requests, r.id = ev.requestId

theorem logOf_concat (h : db'.events = db.events ++ [ev]) (id : Uuid) :
    logOf db' id = logOf db id ++ if ev.requestId = id then [ev] else [] := by
  unfold logOf
  rw [h, List.filter_append]
  congr 1
  by_cases hid : ev.requestId = id
  · rw [if_pos hid, List.filter_cons_of_pos (by simpa using hid)]
    rfl
  · rw [if_neg hid, List.filter_cons_of_neg (by simpa using hid)]
    rfl

theorem replayed_other (h : db'.events = db.events ++ [ev]) {id : Uuid} (hne : ev.requestId ≠ id) :
    replayed db' id = replayed db id := by
  unfold replayed
  rw [logOf_concat h, if_neg hne, List.append_nil]

/-- The next event is played where the log has ended. -/
theorem replayed_next (h : db'.events = db.events ++ [ev]) {id : Uuid} (hid : ev.requestId = id)
    {played : Int × Option Status} (hplayed : replayed db id = some played) : replayed db' id = play played ev := by
  unfold replayed at hplayed ⊢
  rw [logOf_concat h, if_pos hid, List.foldlM_append, hplayed]
  show play played ev >>= pure = _
  exact bind_pure _

theorem Logs.of_same (h : Logs db) (hrequests : db'.requests = db.requests) (hevents : db'.events = db.events) :
    Logs db' := by
  have hreplayed : replayed db' = replayed db := by
    funext id
    unfold replayed logOf
    rw [hevents]
  refine ⟨fun r hr => ?_, fun ev hev => ?_⟩
  · rw [hreplayed]
    exact h.replays r (hrequests ▸ hr)
  · rw [hrequests]
    exact h.owned ev (hevents ▸ hev)

/-- A request that is replaced, with its event. -/
theorem Logs.replaced (h : Logs db) (hk : Keys db) (hreplaced : Replaced db r saved db')
    (hevents : db'.events = db.events ++ [ev]) (hid : ev.requestId = r.id)
    (hversion : ev.requestVersion = saved.version) (hstart : ev.fromStatus = some r.status)
    (hend : ev.toStatus = saved.status) (hstage : saved.status = r.status ∨ follows r.status saved.status) :
    Logs db' := by
  refine ⟨fun r' hr' => ?_, fun ev' hev' => ?_⟩
  · rcases hreplaced.cases hk.requests hr' with ⟨hold, hne⟩ | rfl
    · rw [replayed_other hevents (hid.trans_ne hne.symm)]
      exact h.replays r' hold
    · have hplayed := h.replays r hreplaced.mem
      rw [hreplaced.id, replayed_next hevents hid hplayed]
      have hnext : ev.requestVersion = r.version + 1 ∧ ev.fromStatus = some r.status ∧
          Allowed (some r.status) ev.toStatus := ⟨hversion.trans hreplaced.version, hstart, hend ▸ hstage⟩
      rw [play, if_pos hnext, hversion, hend]
  · rw [hevents] at hev'
    rcases List.mem_append.mp hev' with hold | hnew
    · obtain ⟨r', hr', hsame⟩ := h.owned ev' hold
      obtain ⟨r'', hr'', hsame', -⟩ := hreplaced.exists hr'
      exact ⟨r'', hr'', hsame'.trans hsame⟩
    · exact ⟨saved, hreplaced.saved_mem, by rw [hreplaced.id, List.mem_singleton.mp hnew, hid]⟩

/-- A new request, with its first event. -/
theorem Logs.created {selected : List TicketManagement.Entitlement} (h : Logs db)
    (hcreated : Created db r selected db') : Logs db' := by
  obtain ⟨hstatus, -, hversion, -⟩ := hcreated.blank
  obtain ⟨ev, hid, hnumber, hstart, hend, hdb⟩ := hcreated.log.event
  have hevents : db'.events = db.events ++ [ev] := by rw [hdb]
  have hrequests : db'.requests = db.requests ++ [r] := by rw [hdb]
  have hnone : replayed db r.id = some (0, none) := by
    have hempty : logOf db r.id = [] := by
      refine List.filter_eq_nil_iff.mpr fun ev hev => ?_
      obtain ⟨r', hr', hsame⟩ := h.owned ev hev
      simpa using hsame ▸ hcreated.fresh r' hr'
    unfold replayed
    rw [hempty]
    rfl
  refine ⟨fun r' hr' => ?_, fun ev' hev' => ?_⟩
  · rw [hrequests] at hr'
    rcases List.mem_append.mp hr' with hold | hnew
    · rw [replayed_other hevents (hid.trans_ne (hcreated.fresh r' hold).symm)]
      exact h.replays r' hold
    · obtain rfl := List.mem_singleton.mp hnew
      rw [replayed_next hevents hid hnone]
      have hfirst : ev.requestVersion = 0 + 1 ∧ ev.fromStatus = none ∧ Allowed none ev.toStatus :=
        ⟨by rw [hnumber, hversion]; rfl, hstart, hend.trans hstatus⟩
      rw [play, if_pos hfirst, hnumber, hend]
  · rw [hrequests]
    rw [hevents] at hev'
    rcases List.mem_append.mp hev' with hold | hnew
    · obtain ⟨r', hr', hsame⟩ := h.owned ev' hold
      exact ⟨r', List.mem_append_left _ hr', hsame⟩
    · exact ⟨r, List.mem_append_right _ (List.mem_singleton_self r), by rw [List.mem_singleton.mp hnew, hid]⟩

theorem Logs.turned (h : Logs db) (hk : Keys db) (hturned : Turned desk db actor r input draw saved db') :
    Logs db' := by
  have hreplaced := hturned.replaced
  obtain ⟨db₁, r₁, db₂, hturn, hsaved, hlog⟩ := hturned.change
  obtain ⟨ev, hid, hversion, hstart, hend, rfl⟩ := hlog.event
  have hsame : db₁.events = db.events := by cases hturn <;> rfl
  have hevents : db₂.events ++ [ev] = db.events ++ [ev] := by
    rw [hsaved.tables]
    show db₁.events ++ [ev] = _
    rw [hsame]
  have hstatus : saved.status = r₁.status := by
    rw [hsaved.row]
    rfl
  refine h.replaced hk hreplaced hevents (hid.trans hreplaced.id) hversion hstart hend ?_
  rw [hstatus]
  exact hsaved.stage

theorem Logs.quiet (h : Logs db) (hk : Keys db) (hquiet : Quiet desk db db') : Logs db' := by
  cases hquiet with
  | initialized => exact h.of_same rfl rfl
  | remembered => exact h.of_same rfl rfl
  | recorded => exact h.of_same rfl rfl
  | created r selected hcreated => exact h.created hcreated
  | expired r saved now hexpired =>
    have hreplaced := hexpired.replaced
    obtain ⟨db₂, hsaved, hlog⟩ := hexpired.change
    obtain ⟨ev, hid, hversion, hstart, hend, rfl⟩ := hlog.event
    have hevents : db₂.events ++ [ev] = db.events ++ [ev] := by rw [hsaved.tables]
    have hstatus : saved.status = .expired := by
      rw [hsaved.row]
      rfl
    refine h.replaced hk hreplaced hevents (hid.trans hreplaced.id) hversion hstart hend (.inr ?_)
    -- only a quote that waits for its customer runs out
    rw [hstatus, hexpired.status]
    decide

/-- In every reachable state the log of every request replays from nothing to its row: its versions follow one
another, each event starts from the stage that the last one left, and every turn is one that the rules allow. -/
theorem log_replays (desk : Desk) (db : Db) (h : (machine desk).Reachable db) : Logs db := by
  have hboth : Solvent db ∧ Logs db := by
    refine invariant (I := fun db => Solvent db ∧ Logs db)
      (fun records => ⟨solvent_start records, ⟨fun _ hr => (List.not_mem_nil hr).elim,
        fun _ hev => (List.not_mem_nil hev).elim⟩⟩)
      (fun _ hI => ⟨hI.1.tidy.keys.requests, hI.1.tidy.keys.quotes⟩) ?_ ?_ ?_ h
    · exact fun db db' hI hquiet => ⟨hI.1.quiet hquiet, hI.2.quiet hI.1.tidy.keys hquiet⟩
    · exact fun db actor r input draw saved db' hI hturned => ⟨hI.1.turned hturned, hI.2.turned hI.1.tidy.keys hturned⟩
    · intro db db' hI houtside
      refine ⟨hI.1.outside houtside, hI.2.of_same ?_ ?_⟩
      all_goals cases houtside <;> rfl
  exact hboth.2

/-- The log of a request whose customer has approved a quote. -/
theorem log_replays_approved : ∃ db, sampleRun (samplePaid ++ sampleRefund ++ sampleApproval) = .ok db ∧
    (logOf db 190).map (fun ev => (ev.requestVersion, ev.toStatus)) =
      [(1, .requested), (2, .inProgress), (3, .awaitingConfirmation), (4, .approved)] ∧ Logs db := by
  have hrun : (sampleRun (samplePaid ++ sampleRefund ++ sampleApproval)).map (fun db =>
      (logOf db 190).map fun ev => (ev.requestVersion, ev.toStatus)) =
      .ok [(1, .requested), (2, .inProgress), (3, .awaitingConfirmation), (4, .approved)] := by decide +kernel
  obtain ⟨db, hdb, hlog⟩ := map_eq_ok.mp hrun
  exact ⟨db, hdb, hlog, log_replays sampleDesk db (sampleRun_reachable hdb)⟩

end ShaponTravels.Wallet.Tickets
