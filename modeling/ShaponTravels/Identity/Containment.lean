import ShaponTravels.Identity.Standing

/-!
# Containment — what the events of the provider do, in any order

A deletion that was ingested is never taken back: nobody of its subject is active again, acts or is provisioned.
The one workflow that does not ask for deletions is the bootstrap.
-/

namespace ShaponTravels.Identity

open Library

variable {desk : Desk} {db db' : Db} {i i' i'' : Inbox} {d d' d'' : Directory} {s s' : System} {ev : Event} {now : Int}

/-! ## The inbox -/

/-- What was ingested of a row. -/
def InboxRow.event (r : InboxRow) : ProviderEvent := ⟨r.eventId, r.payloadHash, r.subject, r.kind, r.occurredAt⟩

def Inbox.events (i : Inbox) : List ProviderEvent := i.rows.map InboxRow.event

/-- No observation is taken back. -/
def Inbox.Keeps (i i' : Inbox) : Prop :=
  ∀ p ∈ i.states, ∃ p' ∈ i'.states, p'.subject = p.subject ∧ p.observedAt ≤ p'.observedAt ∧
    (p.deleted = true → p'.deleted = true)

/-- What a transaction does to the inbox: it may add one event, and only a new deletion marks its subject. -/
structure Inbox.Moves (i : Inbox) (new : Option ProviderEvent) (i' : Inbox) : Prop where
  events : i'.events = i.events ++ new.toList
  fresh : ∀ e ∈ new, ∀ e' ∈ i.events, e'.eventId ≠ e.eventId
  keeps : i.Keeps i'
  deleted : ∀ subject, i'.isDeleted subject = true ↔
    i.isDeleted subject = true ∨ ∃ e ∈ new, e.kind = .deleted ∧ e.subject = subject

theorem isDeleted_iff {subject : String} :
    i.isDeleted subject = true ↔ ∃ p ∈ i.states, p.subject = subject ∧ p.deleted = true := by
  simp only [Inbox.isDeleted, List.any_eq_true, Bool.and_eq_true, decide_eq_true_eq]

theorem Inbox.Keeps.refl (i : Inbox) : i.Keeps i := fun p hp => ⟨p, hp, rfl, le_refl _, id⟩

theorem Inbox.Keeps.trans (h : i.Keeps i') (h' : i'.Keeps i'') : i.Keeps i'' := by
  intro p hp
  obtain ⟨p', hp', hsubject, hat, hdeleted⟩ := h p hp
  obtain ⟨p'', hp'', hsubject', hat', hdeleted'⟩ := h' p' hp'
  exact ⟨p'', hp'', hsubject'.trans hsubject, hat.trans hat', fun hd => hdeleted' (hdeleted hd)⟩

/-- A deletion stays. -/
theorem Inbox.Keeps.isDeleted (h : i.Keeps i') {subject : String} (hdeleted : i.isDeleted subject = true) :
    i'.isDeleted subject = true := by
  obtain ⟨p, hp, hsubject, hmarked⟩ := isDeleted_iff.mp hdeleted
  obtain ⟨p', hp', hsubject', -, hkept⟩ := h p hp
  exact isDeleted_iff.mpr ⟨p', hp', hsubject'.trans hsubject, hkept hmarked⟩

/-- No event is new, and the observations stay. -/
theorem Inbox.Moves.same (hevents : i'.events = i.events) (hstates : i'.states = i.states) : i.Moves none i' where
  events := by rw [hevents, Option.toList_none, List.append_nil]
  fresh := by rintro _ ⟨⟩
  keeps p hp := ⟨p, hstates ▸ hp, rfl, le_refl _, id⟩
  deleted subject := by
    simp only [Inbox.isDeleted, hstates]
    simp

theorem events_update {id : String} {f : InboxRow → InboxRow} (hf : ∀ r, (f r).event = r.event) :
    (i.update id f).events = i.events := map_modify hf i.rows

theorem events_recover : (i.recover now).events = i.events := by
  unfold Inbox.events Inbox.recover
  dsimp only
  rw [List.map_map]
  refine List.map_congr_left fun r _ => ?_
  show (if _ then _ else _ : InboxRow).event = _
  split <;> rfl

/-- A deletion marks its subject, whatever was observed of it. -/
theorem markDeleted_moves {e : ProviderEvent} (hkind : e.kind = .deleted)
    (hfresh : ∀ e' ∈ i.events, e'.eventId ≠ e.eventId) :
    i.Moves (some e) ((i.insert now e).markDeleted e) := by
  have hevents : ((i.insert now e).markDeleted e).events = i.events ++ [e] := by
    unfold Inbox.markDeleted
    split <;> exact List.map_append
  refine ⟨hevents, fun e' he' => Option.some.inj he' ▸ hfresh, fun p hp => ?_, fun subject => ?_⟩
  · unfold Inbox.markDeleted
    split
    · by_cases hsame : p.subject = e.subject
      · exact ⟨_, mem_modify_of_mem hp hsame, rfl, le_max_left _ _, fun _ => rfl⟩
      · exact ⟨p, mem_modify_of_ne hp hsame, rfl, le_refl _, id⟩
    · exact ⟨p, List.mem_append_left _ hp, rfl, le_refl _, id⟩
  · have hnew : (∃ e' ∈ some e, e'.kind = .deleted ∧ e'.subject = subject) ↔ e.subject = subject := by
      constructor
      · rintro ⟨e', he', -, hsubject⟩
        rw [Option.some.inj he']
        exact hsubject
      · exact fun h => ⟨e, rfl, hkind, h⟩
    rw [hnew, isDeleted_iff, isDeleted_iff]
    unfold Inbox.markDeleted
    split
    · rename_i hknown
      simp only [List.any_eq_true, decide_eq_true_eq] at hknown
      obtain ⟨q, hq, hqsubject⟩ := hknown
      constructor
      · rintro ⟨p, hp, hsubject, hdeleted⟩
        rcases modify_cases hp with ⟨hold, -⟩ | ⟨p₀, -, hp₀, rfl⟩
        · exact .inl ⟨p, hold, hsubject, hdeleted⟩
        · exact .inr (hp₀.symm.trans hsubject)
      · rintro (⟨p, hp, hsubject, hdeleted⟩ | rfl)
        · by_cases hsame : p.subject = e.subject
          · exact ⟨_, mem_modify_of_mem hp hsame, hsubject, rfl⟩
          · exact ⟨p, mem_modify_of_ne hp hsame, hsubject, hdeleted⟩
        · exact ⟨_, mem_modify_of_mem hq hqsubject, hqsubject, rfl⟩
    · constructor
      · rintro ⟨p, hp, hsubject, hdeleted⟩
        rcases List.mem_append.mp hp with hold | hlast
        · exact .inl ⟨p, hold, hsubject, hdeleted⟩
        · rw [List.mem_singleton.mp hlast] at hsubject
          exact .inr hsubject
      · rintro (⟨p, hp, hsubject, hdeleted⟩ | rfl)
        · exact ⟨p, List.mem_append_left _ hp, hsubject, hdeleted⟩
        · exact ⟨_, List.mem_append_right _ (List.mem_singleton_self _), rfl, rfl⟩

/-- What an ingested event does. -/
theorem ingest_moves {e : ProviderEvent} (h : ingest db now e = .ok db') :
    (e ∈ db.inbox.events ∧ db' = db) ∨ db.inbox.Moves (some e) db'.inbox := by
  simp only [ingest, bind_eq_ok] at h
  obtain ⟨-, -, h⟩ := h
  split at h
  · rename_i old hold
    simp only [bind_eq_ok, ensure_eq_ok, exists_const, pure_eq_ok] at h
    obtain ⟨⟨hhash, hsubject, hkind, hat⟩, rfl⟩ := h
    have hid : old.eventId = e.eventId := lookup_key hold
    have hsame : old.event = e := by
      cases e
      simp only [InboxRow.event, ProviderEvent.mk.injEq]
      exact ⟨hid, hhash, hsubject, hkind, hat⟩
    exact .inl ⟨hsame ▸ List.mem_map_of_mem (lookup_mem hold), rfl⟩
  · rename_i hnone
    have hfresh : ∀ e' ∈ db.inbox.events, e'.eventId ≠ e.eventId := by
      intro e' he'
      obtain ⟨r, hr, rfl⟩ := List.mem_map.mp he'
      exact lookup_eq_none.mp hnone r hr
    split at h
    · rename_i hkind
      obtain ⟨d, b, rfl⟩ := contain_frame h
      exact .inr (markDeleted_moves hkind hfresh)
    · rename_i hkind
      obtain rfl := pure_eq_ok.mp h
      refine .inr ⟨List.map_append, fun e' he' => Option.some.inj he' ▸ hfresh, .refl _, fun subject => ?_⟩
      constructor
      · exact .inl
      · rintro (hold | ⟨e', he', hdeleted, -⟩)
        · exact hold
        · obtain rfl := Option.some.inj he'
          exact absurd hdeleted hkind

/-- An observation of the provider marks nobody, and is as late as what is stored. -/
theorem observe_moves {c : InboxClaim}
    (hnewest : ∀ p ∈ i.states, p.subject = c.subject → p.observedAt ≤ c.occurredAt) : i.Moves none (i.observe c) := by
  refine ⟨?_, by rintro _ ⟨⟩, fun p hp => ?_, fun subject => ?_⟩
  · unfold Inbox.observe
    split <;> simp [Inbox.events]
  · unfold Inbox.observe
    split
    · by_cases hsame : p.subject = c.subject
      · exact ⟨_, mem_modify_of_mem hp hsame, rfl, hnewest p hp hsame, id⟩
      · exact ⟨p, mem_modify_of_ne hp hsame, rfl, le_refl _, id⟩
    · exact ⟨p, List.mem_append_left _ hp, rfl, le_refl _, id⟩
  · rw [isDeleted_iff, isDeleted_iff]
    unfold Inbox.observe
    split
    · constructor
      · rintro ⟨p, hp, hsubject, hdeleted⟩
        rcases modify_cases hp with ⟨hold, -⟩ | ⟨p₀, hp₀, -, rfl⟩
        · exact .inl ⟨p, hold, hsubject, hdeleted⟩
        · exact .inl ⟨p₀, hp₀, hsubject, hdeleted⟩
      · rintro (⟨p, hp, hsubject, hdeleted⟩ | ⟨_, he, -⟩)
        · by_cases hsame : p.subject = c.subject
          · exact ⟨_, mem_modify_of_mem hp hsame, hsubject, hdeleted⟩
          · exact ⟨p, mem_modify_of_ne hp hsame, hsubject, hdeleted⟩
        · cases he
    · constructor
      · rintro ⟨p, hp, hsubject, hdeleted⟩
        rcases List.mem_append.mp hp with hold | hlast
        · exact .inl ⟨p, hold, hsubject, hdeleted⟩
        · rw [List.mem_singleton.mp hlast] at hdeleted
          cases hdeleted
      · rintro (⟨p, hp, hsubject, hdeleted⟩ | ⟨_, he, -⟩)
        · exact ⟨p, List.mem_append_left _ hp, hsubject, hdeleted⟩
        · cases he

theorem Inbox.Moves.close (h : i.Moves none i') (id : String) (retry : Bool) :
    i.Moves none (i'.close now id retry) := by
  refine ⟨?_, h.fresh, h.keeps, h.deleted⟩
  rw [← h.events]
  exact events_update fun _ => rfl

/-- A worker applies what it has read only while its claim is live. -/
theorem applyEvent_moves {c : InboxClaim} {answer : Except ApiError ProviderUser}
    (h : applyEvent db now c answer = .ok db') : db.inbox.Moves none db'.inbox ∧
      ∃ r ∈ db.inbox.rows, r.eventId = c.eventId ∧ c.holds r now = true := by
  simp only [applyEvent, bind_eq_ok, fetch_eq_ok, ensure_eq_ok, exists_const, pure_eq_ok] at h
  obtain ⟨r, hr, hlive, y, hobserved, rfl⟩ := h
  refine ⟨?_, r, lookup_mem hr, lookup_key hr, hlive⟩
  have hsame : ∀ db₁ : Db, db₁.inbox = db.inbox → db.inbox.Moves none db₁.inbox :=
    fun db₁ heq => .same (by rw [heq]) (by rw [heq])
  refine Inbox.Moves.close ?_ _ _
  rw [applyObserved.eq_def] at hobserved
  split at hobserved
  · obtain rfl := pure_eq_ok.mp hobserved
    exact hsame _ rfl
  · obtain ⟨db₁, hprofile, hresult⟩ := bind_eq_ok.mp hobserved
    obtain rfl := pure_eq_ok.mp hresult
    rw [applyProfile] at hprofile
    split at hprofile
    · obtain rfl := pure_eq_ok.mp hprofile
      exact hsame _ rfl
    · rename_i hnewest
      simp only [bind_eq_ok, mapError_eq_ok, pure_eq_ok] at hprofile
      obtain ⟨d, -, rfl⟩ := hprofile
      refine observe_moves fun p hp hsubject => ?_
      simp only [List.any_eq_true, decide_eq_true_eq, not_exists, not_and] at hnewest
      exact not_lt.mp fun hlt => hnewest p hp hsubject hlt
  · split at hobserved
    · obtain ⟨db₁, hcontain, hresult⟩ := bind_eq_ok.mp hobserved
      obtain rfl := pure_eq_ok.mp hresult
      obtain ⟨d, b, rfl⟩ := contain_frame hcontain
      exact hsame _ rfl
    · obtain rfl := pure_eq_ok.mp hobserved
      exact hsame _ rfl

/-- The event that is new after a step. -/
def Event.ingests (ev : Event) (e : ProviderEvent) : Prop := ∃ now, ev = .request (.ingest e) now

theorem step_inbox (h : s.step desk ev = .ok s') : (∃ e, ev.ingests e ∧ s.db.inbox.Moves (some e) s'.db.inbox) ∨
    s.db.inbox.Moves none s'.db.inbox ∧ ∀ e, ev.ingests e → e ∈ s.db.inbox.events ∧ s' = s := by
  have hframe : .inbox ∉ ev.writes → s.db.inbox.Moves none s'.db.inbox := fun hwrites =>
    .same (by rw [(step_frame h).db.inbox hwrites]) (by rw [(step_frame h).db.inbox hwrites])
  cases ev with
  | request r now =>
    cases r with
    | ingest e =>
      obtain ⟨db, hrun, hs⟩ := bind_eq_ok.mp h
      obtain rfl := pure_eq_ok.mp hs
      rcases ingest_moves hrun with ⟨hmem, hsame⟩ | hmoves
      · refine .inr ⟨.same (by rw [hsame]) (by rw [hsame]), fun e' he' => ?_⟩
        obtain ⟨now', heq⟩ := he'
        cases heq
        exact ⟨hmem, by rw [hsame]⟩
      · exact .inl ⟨e, ⟨now, rfl⟩, hmoves⟩
    | retryEvent id fence =>
      refine .inr ⟨?_, by rintro e' ⟨now', heq⟩; cases heq⟩
      obtain ⟨db, hrun, hs⟩ := bind_eq_ok.mp h
      obtain rfl := pure_eq_ok.mp hs
      simp only [Request.run, retryEvent, bind_eq_ok, pure_eq_ok] at hrun
      obtain ⟨-, -, rfl⟩ := hrun
      exact .same (events_update fun _ => rfl) rfl
    | _ =>
      refine .inr ⟨hframe (by simp [Event.writes, Request.writes]), fun e' he' => ?_⟩
      obtain ⟨now', heq⟩ := he'
      cases heq
  -- the worker sets states and leases, the events stay those that were ingested
  | claimEvent token now =>
    refine .inr ⟨?_, by rintro e' ⟨now', heq⟩; cases heq⟩
    obtain rfl := Except.ok.inj h
    show s.db.inbox.Moves none (claimEvent s.db now token).1.inbox
    unfold claimEvent
    dsimp only
    split
    · exact .same events_recover rfl
    · have hrecovered : (s.db.inbox.recover now).events = s.db.inbox.events := events_recover
      refine .same (Eq.trans ?_ hrecovered) rfl
      exact events_update fun _ => rfl
  | applyEvent c answer now =>
    refine .inr ⟨?_, by rintro e' ⟨now', heq⟩; cases heq⟩
    obtain ⟨-, -, h⟩ := bind_eq_ok.mp h
    obtain ⟨db, hrun, hs⟩ := bind_eq_ok.mp h
    obtain rfl := pure_eq_ok.mp hs
    exact (applyEvent_moves hrun).1
  | _ =>
    refine .inr ⟨hframe (by simp [Event.writes]), fun e' he' => ?_⟩
    obtain ⟨now', heq⟩ := he'
    cases heq

/-! ## Whom a deletion keeps out -/

theorem Directory.Unmoved.trans (h : d.Unmoved d') (h' : d'.Unmoved d'') : d.Unmoved d'' := by
  intro u'' hu''
  obtain ⟨u', hu', hid', hstatus'⟩ := h' u'' hu''
  obtain ⟨u, hu, hid, hstatus⟩ := h u' hu'
  exact ⟨u, hu, hid.trans hid', hstatus.trans hstatus'⟩

theorem suspendOwned_unmoved {owner : Uuid} (hvalid : d.Valid) (h : d.suspendOwned owner = .ok d') :
    d.Unmoved d' := by
  rw [Directory.suspendOwned] at h
  split at h
  · obtain rfl := pure_eq_ok.mp h
    exact .refl _
  · obtain ⟨d₁, hset, hmembers⟩ := bind_eq_ok.mp h
    have husers : d.Unmoved d₁ := by
      obtain ⟨-, rfl⟩ | ⟨old, -, -, rfl⟩ := setAgency_ok hset <;> exact .refl _
    exact husers.trans (invalidateMembers_keeps (hvalid.setAgency hset) hmembers)

/-- A containment adds nobody, and leaves nobody of its subject active. -/
theorem contain_inactive {subject : String} (hvalid : db.directory.Valid) (h : contain db subject = .ok db') :
    ∀ u' ∈ db'.directory.users, ∃ u ∈ db.directory.users, u.id = u'.id ∧
      (u.subject = subject → u'.status ≠ .active) := by
  rw [contain] at h
  split at h
  · rename_i hnone
    obtain rfl := pure_eq_ok.mp h
    exact fun u' hu' => ⟨u', hu', rfl, fun hsubject => absurd hsubject (lookup_eq_none.mp hnone u' hu')⟩
  · rename_i v hv
    have hown : ∀ u ∈ db.directory.users, u.subject = subject → u = v := fun u hu hsubject =>
      hvalid.subjects.eq_of_key hu (lookup_mem hv) (hsubject.trans (lookup_key hv).symm)
    simp only [bind_eq_ok, mapError_eq_ok] at h
    obtain ⟨d₁, huser, d₂, howned, hrevoke⟩ := h
    obtain ⟨access, rfl⟩ := revokeClients_frame hrevoke
    have hvalid₁ : d₁.Valid := hvalid.stmts (suspendUser_stmts (i := db.inbox) (b := fun _ => False) huser)
    intro u' hu'
    obtain ⟨u₁, hu₁, hid₁, hstatus₁⟩ := suspendOwned_unmoved hvalid₁ howned u' hu'
    rw [← hid₁, ← hstatus₁]
    rw [Directory.suspendUser] at huser
    split at huser
    · -- the user is suspended already, or on its way out
      rename_i hfilter
      obtain rfl := pure_eq_ok.mp huser
      refine ⟨u₁, hu₁, rfl, fun hsubject hactive => ?_⟩
      obtain rfl := hown u₁ hu₁ hsubject
      rw [show db.directory.user u₁.id = some u₁ from hvalid.ids.lookup hu₁] at hfilter
      simp [hactive, Status.terminal] at hfilter
    · have hbecomes := updateUser_becomes huser fun _ _ => rfl
      by_cases hid : u₁.id = v.id
      · refine ⟨v, lookup_mem hv, hid.symm, fun _ => ?_⟩
        rw [hbecomes.own u₁ hu₁ hid]
        simp
      · obtain ⟨u, hu, hsame, -⟩ := hbecomes.others u₁ hu₁ hid
        refine ⟨u, hu, hsame, fun hsubject => ?_⟩
        rw [hown u hu hsubject] at hsame
        exact absurd hsame.symm hid

/-- The inbox and the directory agree: a deletion that was ingested marks its subject, and nobody of a marked
subject is active. -/
structure Withheld (s : System) : Prop where
  marked : ∀ e ∈ s.db.inbox.events, e.kind = .deleted → s.db.inbox.isDeleted e.subject = true
  inactive : ∀ u ∈ s.db.directory.users, s.db.inbox.isDeleted u.subject = true → u.status ≠ .active
  keys : KeyUnique ProviderEvent.eventId s.db.inbox.events

/-- The bootstrap is not for a subject with an ingested deletion. -/
def Event.Permitted (ev : Event) (s : System) : Prop :=
  ∀ u draw now, ev = .request (.bootstrap u draw) now → s.db.inbox.isDeleted u.id = false

theorem Withheld.step (hr : Registered s) (hw : Withheld s) (hp : ev.Permitted s) (h : s.step desk ev = .ok s') :
    Withheld s' := by
  obtain ⟨hvalid', husers⟩ := hr.step_users h
  -- a user that is active now was active before, and nobody new is active but for the bootstrap
  have hbefore : ∀ u' ∈ s'.db.directory.users, u'.status = .active →
      s.db.inbox.isDeleted u'.subject = true → False := by
    intro u' hu' hactive hdeleted
    obtain ⟨u, hu, hnext⟩ := husers.traced u' hu'
    rw [hnext.subject] at hdeleted
    rcases hnext.active hactive with hactive' | hnone
    · rcases hu with hu | ⟨-, hstatus, -⟩ | ⟨-, -, p, draw, now, hev, hsubject⟩
      · exact hw.inactive u hu hdeleted hactive'
      · rw [hstatus] at hactive'
        cases hactive'
      · have hpermitted := hp p draw now hev
        rw [hsubject, hdeleted] at hpermitted
        cases hpermitted
    · rw [hdeleted] at hnone
      cases hnone
  rcases step_inbox h with ⟨e, ⟨now, rfl⟩, hmoves⟩ | ⟨hmoves, -⟩
  · constructor
    case marked =>
      intro e' he' hkind
      rw [hmoves.events] at he'
      rcases List.mem_append.mp he' with hold | hnew
      · exact hmoves.keeps.isDeleted (hw.marked e' hold hkind)
      · exact (hmoves.deleted _).mpr (.inr ⟨e', List.mem_singleton.mp hnew ▸ rfl, hkind, rfl⟩)
    case inactive =>
      intro u' hu' hdeleted hactive
      rcases (hmoves.deleted _).mp hdeleted with hold | ⟨_, ⟨rfl⟩, hkind, hsubject⟩
      · exact hbefore u' hu' hactive hold
      · obtain ⟨db, hrun, hs⟩ := bind_eq_ok.mp h
        obtain rfl := pure_eq_ok.mp hs
        have hcontained : contain { s.db with inbox := (s.db.inbox.insert now e).markDeleted e } e.subject = .ok db ∨
            s.db.inbox.isDeleted e.subject = true := by
          simp only [Request.run, ingest, bind_eq_ok] at hrun
          obtain ⟨-, -, hrun⟩ := hrun
          split at hrun
          · rename_i old hold
            simp only [bind_eq_ok, ensure_eq_ok, exists_const, pure_eq_ok] at hrun
            obtain ⟨⟨-, hs, hk, -⟩, -⟩ := hrun
            refine .inr ?_
            rw [← hs]
            exact hw.marked old.event (List.mem_map_of_mem (lookup_mem hold)) (hk.trans hkind)
          · rw [if_pos hkind] at hrun
            exact .inl hrun
        rcases hcontained with hcontain | hold
        · obtain ⟨u, hu, hid, hinactive⟩ := contain_inactive (by exact hr.directory) hcontain u' hu'
          obtain ⟨u'', hu'', hnext⟩ := husers.kept u hu
          obtain rfl := hvalid'.ids.eq_of_key hu' hu'' (hid.symm.trans hnext.id.symm)
          exact hinactive (hnext.subject.symm.trans hsubject.symm) hactive
        · exact hbefore u' hu' hactive (hsubject ▸ hold)
    case keys =>
      rw [hmoves.events]
      exact keyUnique_concat.mpr ⟨hw.keys, hmoves.fresh e rfl⟩
  · have hsame : s'.db.inbox.events = s.db.inbox.events := by
      rw [hmoves.events, Option.toList_none, List.append_nil]
    constructor
    case marked =>
      intro e' he' hkind
      rw [hsame] at he'
      exact hmoves.keeps.isDeleted (hw.marked e' he' hkind)
    case inactive =>
      intro u' hu' hdeleted hactive
      rcases (hmoves.deleted _).mp hdeleted with hold | ⟨_, ⟨⟩, -⟩
      exact hbefore u' hu' hactive hold
    case keys =>
      rw [hsame]
      exact hw.keys

/-! ## Profiles -/

/-- Nobody's profile changes. -/
def Directory.SameProfiles (d d' : Directory) : Prop := ∀ u' ∈ d'.users, ∃ u ∈ d.users, u.id = u'.id ∧
  u.email = u'.email ∧ u.firstName = u'.firstName ∧ u.lastName = u'.lastName

theorem Directory.SameProfiles.refl (d : Directory) : d.SameProfiles d := fun u hu => ⟨u, hu, rfl, rfl, rfl, rfl⟩

theorem Directory.SameProfiles.trans (h : d.SameProfiles d') (h' : d'.SameProfiles d'') : d.SameProfiles d'' := by
  intro u'' hu''
  obtain ⟨u', hu', hid', hemail', hfirst', hlast'⟩ := h' u'' hu''
  obtain ⟨u, hu, hid, hemail, hfirst, hlast⟩ := h u' hu'
  exact ⟨u, hu, hid.trans hid', hemail.trans hemail', hfirst.trans hfirst', hlast.trans hlast'⟩

theorem updateUser_profiles {id : Uuid} {f : User → User} (h : d.updateUser id f = .ok d')
    (hf : ∀ u, (f u).email = u.email ∧ (f u).firstName = u.firstName ∧ (f u).lastName = u.lastName) :
    d.SameProfiles d' := by
  obtain ⟨-, rfl⟩ | ⟨old, row, hold, hguard, rfl⟩ := updateUser_ok h
  · exact .refl _
  · intro u' hu'
    rcases modify_cases hu' with ⟨hmem, -⟩ | ⟨u, -, -, rfl⟩
    · exact ⟨u', hmem, rfl, rfl, rfl, rfl⟩
    · obtain ⟨hemail, hfirst, hlast⟩ := hf old
      refine ⟨old, lookup_mem hold, hguard.row_id.symm, ?_, ?_, ?_⟩
      · rw [hguard.row_eq]
        exact hemail.symm
      · rw [hguard.row_eq]
        exact hfirst.symm
      · rw [hguard.row_eq]
        exact hlast.symm

theorem invalidateMembers_profiles {agency : Uuid} (h : d.invalidateMembers agency = .ok d') :
    d.SameProfiles d' := by
  suffices hfold : ∀ (ids : List Uuid) {d : Directory}, ids.foldlM invalidateMember d = .ok d' → d.SameProfiles d' from
    hfold _ h
  intro ids
  induction ids with
  | nil =>
    intro d h
    obtain rfl := pure_eq_ok.mp h
    exact .refl _
  | cons id ids ih =>
    intro d h
    rw [List.foldlM_cons, bind_eq_ok] at h
    obtain ⟨d₁, hfirst, hrest⟩ := h
    exact (updateUser_profiles hfirst fun _ => ⟨rfl, rfl, rfl⟩).trans (ih hrest)

theorem contain_profiles {subject : String} (h : contain db subject = .ok db') :
    db.directory.SameProfiles db'.directory := by
  rw [contain] at h
  split at h
  · obtain rfl := pure_eq_ok.mp h
    exact .refl _
  · simp only [bind_eq_ok, mapError_eq_ok] at h
    obtain ⟨d₁, huser, d₂, howned, hrevoke⟩ := h
    obtain ⟨access, rfl⟩ := revokeClients_frame hrevoke
    have hfirst : db.directory.SameProfiles d₁ := by
      rw [Directory.suspendUser] at huser
      split at huser
      · obtain rfl := pure_eq_ok.mp huser
        exact .refl _
      · exact updateUser_profiles huser fun _ => ⟨rfl, rfl, rfl⟩
    refine hfirst.trans ?_
    rw [Directory.suspendOwned] at howned
    split at howned
    · obtain rfl := pure_eq_ok.mp howned
      exact .refl _
    · obtain ⟨d₃, hset, hmembers⟩ := bind_eq_ok.mp howned
      have husers : d₁.SameProfiles d₃ := by
        obtain ⟨-, rfl⟩ | ⟨old, -, -, rfl⟩ := setAgency_ok hset <;> exact .refl _
      exact husers.trans (invalidateMembers_profiles hmembers)

/-- A worker writes a profile only for the newest event of its subject, and then the observation is stored. -/
theorem applyEvent_profiles {c : InboxClaim} {answer : Except ApiError ProviderUser}
    (h : applyEvent db now c answer = .ok db') : db.directory.SameProfiles db'.directory ∨
      (∀ p ∈ db.inbox.states, p.subject = c.subject → p.observedAt ≤ c.occurredAt) ∧
        ∃ p ∈ db'.inbox.states, p.subject = c.subject ∧ p.observedAt = c.occurredAt := by
  simp only [applyEvent, bind_eq_ok, pure_eq_ok] at h
  obtain ⟨r, -, -, -, y, hobserved, rfl⟩ := h
  rw [applyObserved.eq_def] at hobserved
  split at hobserved
  · obtain rfl := pure_eq_ok.mp hobserved
    exact .inl (.refl _)
  · obtain ⟨db₁, hprofile, hresult⟩ := bind_eq_ok.mp hobserved
    obtain rfl := pure_eq_ok.mp hresult
    rw [applyProfile] at hprofile
    split at hprofile
    · obtain rfl := pure_eq_ok.mp hprofile
      exact .inl (.refl _)
    · rename_i hnewest
      simp only [bind_eq_ok, mapError_eq_ok, pure_eq_ok] at hprofile
      obtain ⟨d, -, rfl⟩ := hprofile
      simp only [List.any_eq_true, decide_eq_true_eq, not_exists, not_and] at hnewest
      refine .inr ⟨fun p hp hsubject => not_lt.mp fun hlt => hnewest p hp hsubject hlt, ?_⟩
      show ∃ p ∈ (db.inbox.observe c).states, _
      unfold Inbox.observe
      split
      · rename_i hknown
        simp only [List.any_eq_true, decide_eq_true_eq] at hknown
        obtain ⟨p, hp, hsubject⟩ := hknown
        exact ⟨_, mem_modify_of_mem hp hsubject, hsubject, rfl⟩
      · exact ⟨_, List.mem_append_right _ (List.mem_singleton_self _), rfl, rfl⟩
  · split at hobserved
    · obtain ⟨db₁, hcontain, hresult⟩ := bind_eq_ok.mp hobserved
      obtain rfl := pure_eq_ok.mp hresult
      have hkept := contain_profiles hcontain
      exact .inl hkept
    · obtain rfl := pure_eq_ok.mp hobserved
      exact .inl (.refl _)

theorem step_applied {c : InboxClaim} {answer : Except ApiError ProviderUser}
    (h : s.step desk (.applyEvent c answer now) = .ok s') : applyEvent s.db now c answer = .ok s'.db := by
  obtain ⟨-, -, h⟩ := bind_eq_ok.mp h
  obtain ⟨db, hrun, hs⟩ := bind_eq_ok.mp h
  obtain rfl := pure_eq_ok.mp hs
  exact hrun

/-! ## Runs -/

/-- What a run leaves of an inbox. -/
theorem run_inbox {t : List (Transition System Event)} (hrun : (machine desk).Run s t s') :
    s.db.inbox.Keeps s'.db.inbox ∧ s.db.inbox.events ⊆ s'.db.inbox.events := by
  induction hrun with
  | nil => exact ⟨.refl _, List.Subset.refl _⟩
  | snoc _ hstep ih =>
    obtain ⟨new, hmoves⟩ : ∃ new, Inbox.Moves _ new _ := by
      rcases step_inbox hstep with ⟨e, -, hmoves⟩ | ⟨hmoves, -⟩
      · exact ⟨_, hmoves⟩
      · exact ⟨_, hmoves⟩
    refine ⟨ih.1.trans hmoves.keeps, List.Subset.trans ih.2 ?_⟩
    rw [hmoves.events]
    exact List.subset_append_left _ _

/-- A subject that is marked gets no user. -/
theorem run_withheld {t : List (Transition System Event)} (hrun : (machine desk).Run s t s') (hr : Registered s)
    (hw : Withheld s) (hp : ∀ r ∈ t, r.label.Permitted r.before) : Registered s' ∧ Withheld s' ∧
      ∀ subject, s.db.inbox.isDeleted subject = true → ∀ u' ∈ s'.db.directory.users, u'.subject = subject →
        ∃ u ∈ s.db.directory.users, u.id = u'.id ∧ u.subject = subject := by
  induction hrun with
  | nil => exact ⟨hr, hw, fun subject _ u' hu' hsubject => ⟨u', hu', rfl, hsubject⟩⟩
  | @snoc s₁ s₂ t ev hrun hstep ih =>
    obtain ⟨hr₁, hw₁, hkept⟩ := ih fun r hmem => hp r (List.mem_append_left _ hmem)
    have hpermitted : ev.Permitted s₁ := hp _ (List.mem_append_right _ (List.mem_singleton_self _))
    refine ⟨hr₁.step hstep, hw₁.step hr₁ hpermitted hstep, fun subject hdeleted u' hu' hsubject => ?_⟩
    have hdeleted₁ := (run_inbox hrun).1.isDeleted hdeleted
    obtain ⟨u, hu, hnext⟩ := (hr₁.step_users hstep).2.traced u' hu'
    have hu_subject : u.subject = subject := hnext.subject.symm.trans hsubject
    rcases hu with hu | ⟨-, -, hnone⟩ | ⟨-, -, p, draw, now, hev, hfirst⟩
    · obtain ⟨u₀, hu₀, hid, hsame⟩ := hkept subject hdeleted u hu hu_subject
      exact ⟨u₀, hu₀, hid.trans hnext.id.symm, hsame⟩
    · rw [hu_subject, hdeleted₁] at hnone
      cases hnone
    · have hnone := hpermitted p draw now hev
      rw [hfirst, hu_subject, hdeleted₁] at hnone
      cases hnone

theorem withheld_start (b : Business) : Withheld (.start b) where
  marked _ he := absurd he List.not_mem_nil
  inactive _ hu := absurd hu List.not_mem_nil
  keys := .nil

/-! ## The result -/

/-- What a run has made of the events that were ingested. -/
structure Contained (desk : Desk) (t : List (Transition System Event)) (s : System) : Prop where
  /-- Nobody of a deleted subject is active, and whoever has that subject was there when the deletion came. -/
  inactive : ∀ r ∈ t, ∀ e, r.label.ingests e → e.kind = .deleted → ∀ u ∈ s.db.directory.users,
    u.subject = e.subject → u.status ≠ .active ∧
      ∃ u₀ ∈ r.after.db.directory.users, u₀.id = u.id ∧ u₀.subject = u.subject
  /-- No operation is authorized for a deleted subject. -/
  refused : ∀ r ∈ t, ∀ e, r.label.ingests e → e.kind = .deleted →
    (∀ a, actor s.db e.subject ≠ .ok a) ∧ ∀ a, phase5Actor s.db e.subject ≠ .ok a
  observed : ∀ r ∈ t, r.before.db.inbox.Keeps s.db.inbox
  /-- A profile that was written for an event is not written for an earlier one. -/
  newest : ∀ t₁ r t₂, t = t₁ ++ r :: t₂ → ∀ c answer now, r.label = .applyEvent c answer now →
    ¬ r.before.db.directory.SameProfiles r.after.db.directory →
      ∀ r' ∈ t₂, ∀ c' answer' now', r'.label = .applyEvent c' answer' now' → c'.subject = c.subject →
        c'.occurredAt < c.occurredAt → r'.before.db.directory.SameProfiles r'.after.db.directory
  /-- An event comes in once. -/
  repeated : ∀ r ∈ t, ∀ e, r.label.ingests e → ∀ e' now, e'.eventId = e.eventId →
    (e' = e → e'.validate now = .ok () → s.step desk (.request (.ingest e') now) = .ok s) ∧
      (e' ≠ e → ∀ s', s.step desk (.request (.ingest e') now) ≠ .ok s')
  /-- Only a live claim is applied. -/
  live : ∀ r ∈ t, ∀ c answer now, r.label = .applyEvent c answer now →
    ∃ row ∈ r.before.db.inbox.rows, row.eventId = c.eventId ∧ c.holds row now = true

/-- The event of an ingestion is in the inbox after it. -/
theorem ingested_mem {e : ProviderEvent} (h : s.step desk ev = .ok s') (hev : ev.ingests e) :
    e ∈ s'.db.inbox.events := by
  rcases step_inbox h with ⟨e', ⟨now', heq⟩, hmoves⟩ | ⟨-, hsame⟩
  · obtain ⟨now, heq'⟩ := hev
    rw [heq] at heq'
    cases heq'
    rw [hmoves.events]
    exact List.mem_append_right _ (List.mem_singleton_self _)
  · obtain ⟨hmem, rfl⟩ := hsame e hev
    exact hmem

theorem Withheld.repeated (hw : Withheld s) {e e' : ProviderEvent} (he : e ∈ s.db.inbox.events)
    (hid : e'.eventId = e.eventId) :
    (e' = e → e'.validate now = .ok () → s.step desk (.request (.ingest e') now) = .ok s) ∧
      (e' ≠ e → ∀ s', s.step desk (.request (.ingest e') now) ≠ .ok s') := by
  refine ⟨fun hsame hvalidate => ?_, fun hother s' hstep => ?_⟩
  · subst hsame
    obtain ⟨row, hrow, rfl⟩ := List.mem_map.mp he
    have hkeys : KeyUnique InboxRow.eventId s.db.inbox.rows := by
      have hevents := hw.keys
      simp only [KeyUnique, Inbox.events, List.map_map] at hevents
      exact hevents
    have hold : lookup InboxRow.eventId row.event.eventId s.db.inbox.rows = some row := hkeys.lookup hrow
    have hrun : ingest s.db now row.event = .ok s.db := by
      unfold ingest
      rw [hvalidate, hold]
      simp only [bind_eq_ok, ensure_eq_ok, exists_const, pure_eq_ok]
      exact ⟨trivial, ⟨rfl, rfl, rfl, rfl⟩, trivial⟩
    simp only [System.step, Request.run, bind_eq_ok, pure_eq_ok]
    exact ⟨s.db, hrun, rfl⟩
  · rcases step_inbox hstep with ⟨e₁, ⟨now₁, heq⟩, hmoves⟩ | ⟨-, hsame⟩
    · cases heq
      exact hmoves.fresh e' rfl e he hid.symm
    · obtain ⟨hmem, -⟩ := hsame e' ⟨now, rfl⟩
      exact hother (hw.keys.eq_of_key hmem he hid)

/-- In every run whose bootstraps are for subjects without an ingested deletion, a deletion keeps its subject out,
observations go forward, an event is ingested once, and only live claims are applied. -/
theorem deletions_contained {s₀ : System} {t : List (Transition System Event)} (hinit : (machine desk).init s₀)
    (hrun : (machine desk).Run s₀ t s) (hp : ∀ r ∈ t, r.label.Permitted r.before) : Contained desk t s := by
  obtain ⟨b, -, rfl⟩ := hinit
  have hend := run_withheld hrun (registered_start b) (withheld_start b) hp
  -- every state of the run is in order, and what follows it is a run of permitted steps
  have hsplit : ∀ r ∈ t, Registered r.after ∧ Withheld r.after ∧ (machine desk).step r.before r.label r.after ∧
      ∃ t₂, (machine desk).Run r.after t₂ s ∧ ∀ q ∈ t₂, q.label.Permitted q.before := by
    intro r hmem
    obtain ⟨t₁, t₂, rfl, hbefore, hstep, hafter⟩ := hrun.split hmem
    obtain ⟨hr₁, hw₁, -⟩ := run_withheld hbefore (registered_start b) (withheld_start b) fun q hq =>
      hp q (List.mem_append_left _ hq)
    refine ⟨hr₁.step hstep, hw₁.step hr₁ (hp r hmem) hstep, hstep, t₂, hafter, fun q hq => ?_⟩
    exact hp q (List.mem_append_right _ (List.mem_cons_of_mem _ hq))
  have hdeleted : ∀ r ∈ t, ∀ e, r.label.ingests e → e.kind = .deleted →
      r.after.db.inbox.isDeleted e.subject = true ∧ s.db.inbox.isDeleted e.subject = true := by
    intro r hmem e hingests hkind
    obtain ⟨-, hw₁, hstep, t₂, hafter, -⟩ := hsplit r hmem
    have hmarked := hw₁.marked e (ingested_mem hstep hingests) hkind
    exact ⟨hmarked, (run_inbox hafter).1.isDeleted hmarked⟩
  constructor
  case inactive =>
    intro r hmem e hingests hkind u hu hsubject
    obtain ⟨hmarked, hstill⟩ := hdeleted r hmem e hingests hkind
    obtain ⟨hr₁, hw₁, -, t₂, hafter, hp₂⟩ := hsplit r hmem
    refine ⟨hend.2.1.inactive u hu (hsubject ▸ hstill), ?_⟩
    obtain ⟨u₀, hu₀, hid, hsame⟩ := (run_withheld hafter hr₁ hw₁ hp₂).2.2 e.subject hmarked u hu hsubject
    exact ⟨u₀, hu₀, hid, hsame.trans hsubject.symm⟩
  case refused =>
    intro r hmem e hingests hkind
    obtain ⟨-, hstill⟩ := hdeleted r hmem e hingests hkind
    refine ⟨fun a ha => ?_, fun a ha => ?_⟩
    · obtain ⟨-, hsubject, -, hnone⟩ := actor_ok ha
      rw [hsubject, hstill] at hnone
      cases hnone
    · simp only [phase5Actor, guardSubject, bind_eq_ok, ensure_eq_ok] at ha
      obtain ⟨-, -, -, -, -, -, -, hnone, -⟩ := ha
      exact hnone hstill
  case observed =>
    intro r hmem
    obtain ⟨t₁, t₂, rfl, -, hstep, hafter⟩ := hrun.split hmem
    exact (run_inbox ((Machine.Run.nil _).snoc hstep)).1.trans (run_inbox hafter).1
  case newest =>
    rintro t₁ r t₂ rfl c answer now hlabel hwritten r' hmem c' answer' now' hlabel' hsubject hearlier
    obtain ⟨s₁, hbefore, hrest⟩ := hrun.cut
    obtain rfl := hrest.first
    obtain ⟨s₂, hone, hafter⟩ := Machine.Run.cut (t := [r]) hrest
    obtain ⟨-, hstep, rfl⟩ := Machine.Run.last (t := []) hone
    obtain ⟨t₃, t₄, -, hmiddle, hstep', -⟩ := hafter.split hmem
    rw [hlabel] at hstep
    rw [hlabel'] at hstep'
    rcases applyEvent_profiles (step_applied hstep) with hsame | ⟨-, p, hp, hpsubject, hat⟩
    · exact absurd hsame hwritten
    · obtain ⟨p', hp', hpsubject', hlater, -⟩ := (run_inbox hmiddle).1 p hp
      rcases applyEvent_profiles (step_applied hstep') with hsame | ⟨hnewest, -⟩
      · exact hsame
      · -- the later observation is still stored, so this event is not the newest one
        have hbound := hnewest p' hp' (hpsubject'.trans (hpsubject.trans hsubject.symm))
        omega
  case repeated =>
    intro r hmem e hingests e' now hid
    obtain ⟨-, -, hstep, t₂, hafter, -⟩ := hsplit r hmem
    exact hend.2.1.repeated ((run_inbox hafter).2 (ingested_mem hstep hingests)) hid
  case live =>
    intro r hmem c answer now hlabel
    obtain ⟨-, -, hstep, -⟩ := hsplit r hmem
    rw [hlabel] at hstep
    exact (applyEvent_moves (step_applied hstep)).2

def sampleDeletion : ProviderEvent := ⟨"evt_1", 1, "user_b", .deleted, 1⟩

/-- A customer whose identity is deleted at the provider. -/
def deletionEvents : List Event := [
  .request (.bootstrap (sampleUser "user_a") (sampleDraw 1)) 0,
  .request (.onboard (sampleUser "user_b") (sampleDraw 2)) 0,
  .request (.ingest sampleDeletion) 0]

theorem deletions_contained_customer : ∃ t s, (machine sampleDesk).Run (.start sampleBusiness) t s ∧
    s.db.directory.users.map (fun u => (u.subject, u.status)) = [("user_a", .active), ("user_b", .suspended)] ∧
    Contained sampleDesk t s := by
  have hrun : (deletionEvents.foldlM (System.step sampleDesk) (.start sampleBusiness)).map (fun s =>
      s.db.directory.users.map fun u => (u.subject, u.status)) =
      .ok [("user_a", .active), ("user_b", .suspended)] := by decide +kernel
  obtain ⟨s, hs, husers⟩ := map_eq_ok.mp hrun
  simp only [deletionEvents, List.foldlM_cons, List.foldlM_nil, bind_eq_ok, pure_eq_ok] at hs
  obtain ⟨s₁, h₁, s₂, h₂, s₃, h₃, rfl⟩ := hs
  have hsteps : (machine sampleDesk).Run (.start sampleBusiness) _ s₃ :=
    (((Machine.Run.nil (M := machine sampleDesk) _).snoc h₁).snoc h₂).snoc h₃
  refine ⟨_, s₃, hsteps, husers, deletions_contained ⟨_, sampleBusiness_valid, rfl⟩ hsteps ?_⟩
  intro r hr u draw now hlabel
  simp only [List.nil_append, List.mem_append, List.mem_singleton] at hr
  rcases hr with (rfl | rfl) | rfl
  · rfl
  · cases hlabel
  · cases hlabel

/-- The deletion comes first, and the subject becomes the first superadmin. -/
def strayEvents : List Event := [
  .request (.ingest sampleDeletion) 0,
  .request (.bootstrap (sampleUser "user_b") (sampleDraw 1)) 0]

theorem deleted_bootstrapped : ∃ t s, (machine sampleDesk).init (.start sampleBusiness) ∧
    (machine sampleDesk).Run (.start sampleBusiness) t s ∧
    s.db.directory.users.map (fun u => (u.subject, u.status)) = [("user_b", .active)] ∧ ¬ Contained sampleDesk t s := by
  have hrun : (strayEvents.foldlM (System.step sampleDesk) (.start sampleBusiness)).map (fun s =>
      s.db.directory.users.map fun u => (u.subject, u.status)) = .ok [("user_b", .active)] := by decide +kernel
  obtain ⟨s, hs, husers⟩ := map_eq_ok.mp hrun
  simp only [strayEvents, List.foldlM_cons, List.foldlM_nil, bind_eq_ok, pure_eq_ok] at hs
  obtain ⟨s₁, h₁, s₂, h₂, rfl⟩ := hs
  have hsteps : (machine sampleDesk).Run (.start sampleBusiness) _ s₂ :=
    ((Machine.Run.nil (M := machine sampleDesk) _).snoc h₁).snoc h₂
  refine ⟨_, s₂, ⟨_, sampleBusiness_valid, rfl⟩, hsteps, husers, fun hcontained => ?_⟩
  obtain ⟨u, hu, heq⟩ : ∃ u ∈ s₂.db.directory.users, (u.subject, u.status) = ("user_b", Status.active) := by
    have hmem : ("user_b", Status.active) ∈ s₂.db.directory.users.map fun u => (u.subject, u.status) := by
      rw [husers]
      exact List.mem_singleton_self _
    exact List.mem_map.mp hmem
  obtain ⟨hsubject, hactive⟩ := Prod.mk.inj heq
  refine (hcontained.inactive ⟨.start sampleBusiness, .request (.ingest sampleDeletion) 0, s₁⟩ ?_ sampleDeletion
    ⟨0, rfl⟩ rfl u hu hsubject).1 hactive
  exact List.mem_append_left _ (List.mem_append_right _ (List.mem_singleton_self _))

end ShaponTravels.Identity
