import ShaponTravels.Identity.Accounts
import ShaponTravels.Identity.Invited

/-!
# Registered — what holds of every reachable state

How a user goes on under one event, and the invariant of the directory, the journals and what is
between two transactions: a claim or an observation is about a row that is still there.
-/

namespace ShaponTravels.Identity

open Library

variable {desk : Desk} {i : Inbox} {b : String → Prop} {e : Uuid → Status → Prop} {d d' : Directory}

/-! ## Users -/

/-- How a user goes on; `e` says who may be denied. -/
structure User.Next (i : Inbox) (e : Uuid → Status → Prop) (u u' : User) : Prop where
  id : u'.id = u.id
  subject : u'.subject = u.subject
  terminal : u.status.terminal → u'.status.terminal
  denied : u'.status.terminal → u'.status = u.status ∨ e u.id u'.status
  active : u'.status = .active → u.status = .active ∨ i.isDeleted u.subject = false
  version : u.authorizationVersion ≤ u'.authorizationVersion
  changed : u'.authorizationVersion = u.authorizationVersion → u'.role = u.role ∧ u'.status = u.status

theorem User.Next.refl (u : User) : u.Next i e u :=
  ⟨rfl, rfl, fun h => h, fun _ => .inl rfl, fun h => .inl h, le_refl _, fun _ => ⟨rfl, rfl⟩⟩

theorem User.Next.trans {u u' u'' : User} (h : u.Next i e u') (h' : u'.Next i e u'') : u.Next i e u'' := by
  refine ⟨h'.id.trans h.id, h'.subject.trans h.subject, fun ht => h'.terminal (h.terminal ht), fun ht => ?_,
    fun ha => ?_, h.version.trans h'.version, fun hsame => ?_⟩
  · rcases h'.denied ht with hsame | hdenied
    · rw [hsame] at ht ⊢
      exact h.denied ht
    · exact .inr (h.id ▸ hdenied)
  · rcases h'.active ha with ha' | hdeleted
    · exact h.active ha'
    · exact .inr (h.subject ▸ hdeleted)
  · have hfirst := h.version
    have hsecond := h'.version
    obtain ⟨hrole', hstatus'⟩ := h'.changed (by omega)
    obtain ⟨hrole, hstatus⟩ := h.changed (by omega)
    exact ⟨hrole'.trans hrole, hstatus'.trans hstatus⟩

/-- The stored row of an update goes on from the old one. -/
theorem Guarded.next {old new row : User} (h : Guarded old new row)
    (hactive : new.status = .active → old.status = .active ∨ i.isDeleted old.subject = false)
    (hdenied : new.status.terminal → new.status = old.status ∨ e old.id new.status) : old.Next i e row := by
  refine ⟨h.row_id, h.row_subject, fun hterminal => ?_, fun hterminal => ?_, fun hrow => ?_, ?_, fun hsame => ?_⟩
  · rw [h.row_status]
    simp only [Status.terminal, Bool.or_eq_true, decide_eq_true_eq] at hterminal
    rcases hterminal with hdeleting | hdeleted
    · exact h.deleting hdeleting
    · rw [h.deleted hdeleted]
      rfl
  · rw [h.row_status] at hterminal ⊢
    exact hdenied hterminal
  · rw [h.row_status] at hrow
    exact hactive hrow
  · rcases h.row_authorization with ⟨hsame, -⟩ | hraised <;> omega
  · rcases h.row_authorization with ⟨-, hrole, hstatus, -⟩ | hraised
    · exact ⟨hrole, hstatus⟩
    · omega

/-- A new row of the users. -/
def User.Fresh (i : Inbox) (b : String → Prop) (u : User) : Prop :=
  u.role = .customer ∧ u.status = .onboarding ∧ i.isDeleted u.subject = false ∨
    u.role = .superadmin ∧ u.status = .active ∧ b u.subject

/-- The users an update leaves. -/
theorem updateUser_follows {id : Uuid} {f : User → User} (hvalid : d.Valid)
    (h : d.updateUser id f = .ok d')
    (hactive : ∀ old, d.user id = some old → (f old).status = .active →
      old.status = .active ∨ i.isDeleted old.subject = false)
    (hdenied : ∀ old, d.user id = some old → (f old).status.terminal →
      (f old).status = old.status ∨ e old.id (f old).status) :
    Follows (User.Next i e) (User.Fresh i b) d.users d'.users := by
  obtain ⟨-, rfl⟩ | ⟨old, row, hold, hguard, rfl⟩ := updateUser_ok h
  · exact .refl .refl _
  · refine .modify .refl fun u hu hid => ?_
    obtain rfl := hvalid.ids.eq_of_key hu (lookup_mem hold) (hid.trans (lookup_key hold).symm)
    exact hguard.next (hactive u hold) (hdenied u hold)

theorem Stmt.follows (hvalid : d.Valid) (h : Stmt i b d d') :
    Follows (User.Next i e) (User.Fresh i b) d.users d'.users := by
  cases h with
  | update id f _ hupdate hpermitted =>
    exact updateUser_follows hvalid hupdate (fun old hold => (hpermitted old hold).active)
      fun old hold hterminal => .inl ((hpermitted old hold).terminal hterminal)
  | insert u _ hinsert hadmitted =>
    obtain ⟨-, -, rfl⟩ := insertUser_ok hinsert
    refine .concat .refl ?_
    obtain ⟨-, -, ⟨hrole, hstatus, hknown⟩ | ⟨hrole, hstatus, -, hfirst⟩⟩ := hadmitted
    · exact .inl ⟨hrole, hstatus, hknown⟩
    · exact .inr ⟨hrole, hstatus, hfirst⟩
  | agency id status _ hset =>
    obtain ⟨-, rfl⟩ | ⟨old, -, -, rfl⟩ := setAgency_ok hset <;> exact .refl .refl _
  | newAgency a _ hinsert =>
    obtain ⟨-, -, -, rfl⟩ := insertAgency_ok hinsert
    exact .refl .refl _
  | member m _ hinsert hrole =>
    obtain ⟨-, -, -, d₁, hupdate, rfl⟩ := insertMembership_ok hinsert
    have hbump : Follows (User.Next i e) (User.Fresh i b) d.users d₁.users :=
      updateUser_follows hvalid hupdate (fun _ _ h => .inl h) fun _ _ _ => .inl rfl
    exact hbump
  | mark id => exact .refl .refl _

theorem Stmts.follows (hvalid : d.Valid) (h : Stmts i b d d') :
    Follows (User.Next i e) (User.Fresh i b) d.users d'.users := by
  induction h with
  | refl => exact .refl .refl _
  | tail hstmts hstmt ih =>
    exact ih.trans (fun _ _ _ => User.Next.trans) (hstmt.follows (hvalid.stmts hstmts))

/-! ## The invariant -/

/-- The target of a deletion is denied, and gone once the deletion is completed. -/
def Directory.denies (d : Directory) (r : Deletion) : Prop :=
  ∃ u ∈ d.users, u.id = r.targetUserId ∧ u.subject = r.clerkUserId ∧
    u.status = if r.state = .completed then .deleted else .deleting

structure Registered (s : System) : Prop where
  directory : s.db.directory.Valid
  creates : s.db.creates.Sound
  deletions : s.db.deletions.Sound
  invitations : s.db.invitations.Sound
  targets : ∀ r ∈ s.db.deletions.rows, s.db.directory.denies r
  createClaims : ∀ c ∈ s.createClaims, ∃ r ∈ s.db.creates.rows, r.id = c.operationId ∧ r.intent = c.intent
  deletionClaims : ∀ c ∈ s.deletionClaims, ∃ r ∈ s.db.deletions.rows, r.id = c.operationId ∧
    r.clerkUserId = c.clerkUserId
  invitationClaims : ∀ c ∈ s.invitationClaims, ∃ r ∈ s.db.invitations.rows,
    r.id = c.input.operationId ∧ r.email = c.input.email
  acceptances : ∀ o ∈ s.acceptances, ∃ r ∈ s.db.invitations.rows, r.id = o.id ∧ r.email = o.input.email
  refreshes : ∀ o ∈ s.refreshes, s.Observed o

theorem registered_start (business : Business) : Registered (.start business) where
  directory := Directory.valid_empty
  creates := Creates.sound_empty
  deletions := Deletions.sound_empty
  invitations := Invitations.sound_empty
  targets _ h := absurd h List.not_mem_nil
  createClaims _ h := absurd h List.not_mem_nil
  deletionClaims _ h := absurd h List.not_mem_nil
  invitationClaims _ h := absurd h List.not_mem_nil
  acceptances _ h := absurd h List.not_mem_nil
  refreshes _ h := absurd h List.not_mem_nil

variable {s s' : System} {ev : Event}

/-! ## Claims -/

/-- What is kept of every element holds of a list that got one more. -/
theorem forall_of_append {α : Type} {P P' : α → Prop} {l l' : List α} (h : ∀ a ∈ l, P a)
    (hkeep : ∀ a, P a → P' a) (hnew : l' = l ∨ ∃ a, l' = l ++ [a] ∧ P a) : ∀ a ∈ l', P' a := by
  intro a ha
  rcases hnew with rfl | ⟨a', rfl, ha'⟩
  · exact hkeep a (h a ha)
  · rcases List.mem_append.mp ha with hold | hlast
    · exact hkeep a (h a hold)
    · rw [List.mem_singleton.mp hlast]
      exact hkeep a' ha'

theorem Creates.recover_rows (c : Creates) (now : Int) (r : Create) :
    (c.recover now r).rows = c.rows ∨
      (c.recover now r).rows = modify Create.id r.id (fun r => { r with
        state := .needsReconciliation
        errorCode := some "IDENTITY_PROVIDER_OUTCOME_UNKNOWN" }) c.rows := by
  rw [Creates.recover]
  split
  · split
    · exact .inr rfl
    · exact .inl rfl
  · split
    · exact .inr rfl
    · exact .inl rfl
  · exact .inl rfl

/-- The row a claim finds after it recovered a lease. -/
theorem Creates.lookup_recover {c : Creates} {now : Int} {id : Uuid} {r r' : Create}
    (hr : lookup Create.id id c.rows = some r) (hr' : lookup Create.id id (c.recover now r).rows = some r') :
    r' = r ∨ r'.fixed = r.fixed ∧ r'.state = .needsReconciliation := by
  obtain hrows | hrows := c.recover_rows now r
  · rw [hrows] at hr'
    exact .inl (Option.some.inj (hr'.symm.trans hr))
  · have hid : r.id = id := lookup_key hr
    rw [hrows, hid, lookup_modify_self (by intro _; rfl), hr] at hr'
    cases hr'
    exact .inr ⟨rfl, rfl⟩

theorem Create.intent_of_fixed {r r' : Create} (h : r'.fixed = r.fixed) : r'.intent = r.intent :=
  show r'.fixed.intent = r.fixed.intent by rw [h]

/-- A claim on a creation is about its row; one to write, about a row that is prepared. -/
theorem step_createClaims (hsound : s.db.creates.Sound) (h : s.step desk ev = .ok s') :
    s'.createClaims = s.createClaims ∨ ∃ c, s'.createClaims = s.createClaims ++ [c] ∧
      (∀ a ∈ s.db.creates.attempts, a.claimToken ≠ c.token) ∧
      (∃ a ∈ s'.db.creates.attempts, a.claimToken = c.token ∧ a.parentId = c.operationId ∧
        a.kind = if c.reconcile then .reconcile else .dispatch) ∧
      ∃ r ∈ s.db.creates.rows, r.id = c.operationId ∧ r.intent = c.intent ∧
        (c.reconcile = false → r.state = .prepared ∧ r.attempts < 5) := by
  cases ev with
  | claimCreate subject id reconcile fence token now =>
    obtain ⟨x, hclaim, hs⟩ := bind_eq_ok.mp h
    obtain rfl := pure_eq_ok.mp hs
    obtain ⟨r, hr, ⟨e, rfl⟩ | ⟨r', hr', hclaimable, hlimit, hfresh, rfl⟩⟩ := claimCreate_ok hclaim
    · exact .inl rfl
    · have hmove : Creates.Move desk.platform (.claimCreate subject id reconcile fence token now)
          s.db.creates (s.db.creates.recover now r) := .recover now r (lookup_mem hr)
      refine .inr ⟨_, rfl, (hmove.extends hsound).extend.fresh hfresh,
        ⟨_, List.mem_append_right _ (List.mem_singleton_self _), rfl, rfl, rfl⟩, r, lookup_mem hr, ?_⟩
      have hid : r.id = r'.id := (lookup_key hr).trans (lookup_key hr').symm
      rcases Creates.lookup_recover hr hr' with rfl | ⟨hfixed, hstate⟩
      · refine ⟨rfl, rfl, fun hwrite => ?_⟩
        obtain rfl : reconcile = false := hwrite
        exact ⟨claimable_state hclaimable, hlimit rfl⟩
      · refine ⟨hid, (Create.intent_of_fixed hfixed).symm, fun hwrite => ?_⟩
        obtain rfl : reconcile = false := hwrite
        have hprepared := claimable_state hclaimable
        rw [hstate] at hprepared
        cases hprepared
  | request r now =>
    obtain ⟨db, -, hs⟩ := bind_eq_ok.mp h
    obtain rfl := pure_eq_ok.mp hs
    exact .inl rfl
  | _ => exact .inl ((step_frame h).createClaims (by simp [Event.writes]))

theorem Deletions.recover_rows (x : Deletions) (now : Int) (r : Deletion) :
    (x.recover now r).rows = x.rows ∨
      (x.recover now r).rows = modify Deletion.id r.id (fun r => { r with
        state := .needsReconciliation
        errorCode := some "IDENTITY_PROVIDER_OUTCOME_UNKNOWN" }) x.rows := by
  rw [Deletions.recover]
  split
  · split
    · exact .inr rfl
    · exact .inl rfl
  · split
    · exact .inr rfl
    · exact .inl rfl
  · exact .inl rfl

/-- The row a claim finds after it recovered a lease. -/
theorem Deletions.lookup_recover {x : Deletions} {now : Int} {id : Uuid} {r r' : Deletion}
    (hr : lookup Deletion.id id x.rows = some r)
    (hr' : lookup Deletion.id id (x.recover now r).rows = some r') :
    r' = r ∨ r'.fixed = r.fixed ∧ r'.state = .needsReconciliation := by
  obtain hrows | hrows := x.recover_rows now r
  · rw [hrows] at hr'
    exact .inl (Option.some.inj (hr'.symm.trans hr))
  · have hid : r.id = id := lookup_key hr
    rw [hrows, hid, lookup_modify_self (by intro _; rfl), hr] at hr'
    cases hr'
    exact .inr ⟨rfl, rfl⟩

/-- A claim on a deletion is about its row; one to write, about a row that is prepared and whose target
nothing stands for. -/
theorem step_deletionClaims (hsound : s.db.deletions.Sound) (h : s.step desk ev = .ok s') :
    s'.deletionClaims = s.deletionClaims ∨ ∃ c, s'.deletionClaims = s.deletionClaims ++ [c] ∧
      (∀ a ∈ s.db.deletions.attempts, a.claimToken ≠ c.token) ∧
      (∃ a ∈ s'.db.deletions.attempts, a.claimToken = c.token ∧ a.parentId = c.operationId ∧
        a.kind = if c.reconcile then .reconcile else .dispatch) ∧
      ∃ r ∈ s.db.deletions.rows, r.id = c.operationId ∧ r.clerkUserId = c.clerkUserId ∧
        (c.reconcile = false → r.state = .prepared ∧ r.attempts < 5) := by
  cases ev with
  | claimDeletion subject id reconcile fence token now =>
    obtain ⟨x, hclaim, hs⟩ := bind_eq_ok.mp h
    obtain rfl := pure_eq_ok.mp hs
    obtain ⟨r, hr, r', hr', hgrant⟩ := claimDeletion_ok hclaim
    obtain ⟨b, e, rfl⟩ | ⟨hstate, hlimit, hfresh, rfl⟩ := grantDeletion_ok hgrant
    · exact .inl rfl
    · have hmove : Deletions.Move (.claimDeletion subject id reconcile fence token now)
          s.db.deletions (s.db.deletions.recover now r) := .recover now r (lookup_mem hr)
      refine .inr ⟨_, rfl, (hmove.extends hsound).extend.fresh hfresh,
        ⟨_, List.mem_append_right _ (List.mem_singleton_self _), rfl, rfl, rfl⟩, r, lookup_mem hr, ?_⟩
      have hid : r.id = r'.id := (lookup_key hr).trans (lookup_key hr').symm
      rcases Deletions.lookup_recover hr hr' with rfl | ⟨hfixed, hlost⟩
      · refine ⟨rfl, rfl, fun hwrite => ?_⟩
        obtain rfl : reconcile = false := hwrite
        exact ⟨hstate, (hlimit rfl).1⟩
      · refine ⟨hid, (Deletion.of_fixed hfixed).2.2.1.symm, fun hwrite => ?_⟩
        obtain rfl : reconcile = false := hwrite
        rw [hlost] at hstate
        cases hstate
  | request r now =>
    obtain ⟨db, -, hs⟩ := bind_eq_ok.mp h
    obtain rfl := pure_eq_ok.mp hs
    exact .inl rfl
  | _ => exact .inl ((step_frame h).deletionClaims (by simp [Event.writes]))

/-- A claim on an invitation is about its row. -/
theorem step_invitationClaims (hsound : s.db.invitations.Sound) (h : s.step desk ev = .ok s') :
    s'.invitationClaims = s.invitationClaims ∨ ∃ c, s'.invitationClaims = s.invitationClaims ++ [c] ∧
      ∃ r ∈ s.db.invitations.rows, r.id = c.input.operationId ∧ r.email = c.input.email := by
  cases ev with
  | claimInvitation subject id observe fence token now =>
    obtain ⟨x, hclaim, hs⟩ := bind_eq_ok.mp h
    obtain rfl := pure_eq_ok.mp hs
    obtain ⟨r, hr, ⟨e, rfl⟩ | ⟨r', revoke, hr', -, -, -, rfl⟩⟩ := claimInvitation_ok hclaim
    · exact .inl rfl
    · refine .inr ⟨_, rfl, ?_⟩
      have hmove : Invitations.Move desk.platform (.claimInvitation subject id observe fence token now)
          s.db.invitations (s.db.invitations.recover now r) := .recover now r (lookup_mem hr)
      obtain ⟨r₁, hr₁, hnext⟩ := (hmove.extends hsound).kept r (lookup_mem hr)
      obtain ⟨hid, -, -, hemail, -⟩ := Invitation.of_fixed hnext.fixed
      obtain rfl := (hmove.sound hsound).keys.eq_of_key hr₁ (lookup_mem hr')
        (hid.trans ((lookup_key hr).trans (lookup_key hr').symm))
      exact ⟨r, lookup_mem hr, hid.symm, hemail.symm⟩
  | request r now =>
    obtain ⟨db, -, hs⟩ := bind_eq_ok.mp h
    obtain rfl := pure_eq_ok.mp hs
    exact .inl rfl
  | _ => exact .inl ((step_frame h).invitationClaims (by simp [Event.writes]))

/-- An acceptance that was started is of an invitation. -/
theorem step_acceptances (h : s.step desk ev = .ok s') :
    s'.acceptances = s.acceptances ∨ ∃ o, s'.acceptances = s.acceptances ++ [o] ∧
      ∃ r ∈ s.db.invitations.rows, r.id = o.id ∧ r.email = o.input.email := by
  cases ev with
  | startAccept subject id =>
    obtain ⟨o, hstart, hs⟩ := bind_eq_ok.mp h
    obtain rfl := pure_eq_ok.mp hs
    simp only [startAccept, invitationRow, bind_eq_ok, fetch_eq_ok, pure_eq_ok] at hstart
    obtain ⟨-, -, -, -, r, hr, -, -, rfl⟩ := hstart
    exact .inr ⟨_, rfl, r, lookup_mem hr, lookup_key hr, rfl⟩
  | request r now =>
    obtain ⟨db, -, hs⟩ := bind_eq_ok.mp h
    obtain rfl := pure_eq_ok.mp hs
    exact .inl rfl
  | _ => exact .inl ((step_frame h).acceptances (by simp [Event.writes]))

/-- A refresh that was started read a pending invitation. -/
theorem step_refreshes (h : s.step desk ev = .ok s') :
    s'.refreshes = s.refreshes ∨ ∃ o, s'.refreshes = s.refreshes ++ [o] ∧ s'.db = s.db ∧
      ∃ r ∈ s.db.invitations.rows, r.id = o.id ∧ r.version = o.version ∧ r.state = .pending := by
  cases ev with
  | startRefresh subject id =>
    obtain ⟨o, hstart, hs⟩ := bind_eq_ok.mp h
    obtain rfl := pure_eq_ok.mp hs
    simp only [startRefresh, invitationRow, bind_eq_ok, ensure_eq_ok, fetch_eq_ok, pure_eq_ok] at hstart
    obtain ⟨r, hr, -, -, -, hstate, rfl⟩ := hstart
    exact .inr ⟨_, rfl, rfl, r, lookup_mem hr, lookup_key hr, rfl, hstate⟩
  | request r now =>
    obtain ⟨db, -, hs⟩ := bind_eq_ok.mp h
    obtain rfl := pure_eq_ok.mp hs
    exact .inl rfl
  | _ => exact .inl ((step_frame h).refreshes (by simp [Event.writes]))

/-! ## Denial -/

/-- Whom an event denies. -/
def Event.denied (ev : Event) (db : Db) (id : Uuid) (status : Status) : Prop :=
  match ev with
  | .request (.prepareDeletion input) _ => id = input.targetUserId ∧ status = .deleting ∧
      ∀ r ∈ db.deletions.rows, r.targetUserId ≠ id
  | .request (.finalizeDeletion _ rid) _ => status = .deleted ∧
      ∃ r ∈ db.deletions.rows, r.id = rid ∧ r.targetUserId = id ∧ r.state = .providerConfirmed
  | _ => False

theorem denied_deleting {db : Db} {id : Uuid} (h : ev.denied db id .deleting) :
    ∀ r ∈ db.deletions.rows, r.targetUserId ≠ id := by
  unfold Event.denied at h
  split at h
  · exact h.2.2
  · cases h.1
  · exact h.elim

/-- An event denies one identity. -/
theorem denied_unique {db : Db} (hkeys : KeyUnique Deletion.id db.deletions.rows) {id id' : Uuid}
    {status status' : Status} (h : ev.denied db id status) (h' : ev.denied db id' status') : id' = id := by
  unfold Event.denied at h h'
  split at h
  · exact h'.1.trans h.1.symm
  · obtain ⟨-, r, hr, hid, rfl, -⟩ := h
    obtain ⟨-, r', hr', hid', rfl, -⟩ := h'
    rw [hkeys.eq_of_key hr' hr (hid'.trans hid.symm)]
  · exact h.elim

theorem suspendAgency_stmts {agency : Option Uuid} (h : d.suspendAgency agency = .ok d') :
    Stmts i b d d' := by
  rw [Directory.suspendAgency] at h
  split at h
  · obtain rfl := pure_eq_ok.mp h
    exact .refl
  · exact .single (.agency _ _ _ h)

theorem archiveAgency_stmts {agency : Option Uuid} (h : d.archiveAgency agency = .ok d') :
    Stmts i b d d' := by
  rw [Directory.archiveAgency] at h
  split at h
  · obtain rfl := pure_eq_ok.mp h
    exact .refl
  · exact .single (.agency _ _ _ h)

theorem agency_users {agency : Option Uuid}
    (h : d.suspendAgency agency = .ok d' ∨ d.archiveAgency agency = .ok d') : d'.users = d.users := by
  rcases h with h | h
  · rw [Directory.suspendAgency] at h
    split at h
    · rw [pure_eq_ok.mp h]
    · obtain ⟨-, rfl⟩ | ⟨old, -, -, rfl⟩ := setAgency_ok h <;> rfl
  · rw [Directory.archiveAgency] at h
    split at h
    · rw [pure_eq_ok.mp h]
    · obtain ⟨-, rfl⟩ | ⟨old, -, -, rfl⟩ := setAgency_ok h <;> rfl

/-- What an event that denies an identity does to the directory: nothing, or one update of the target
and of the agency it owns. -/
theorem step_denies (hdenies : ev.denies) (h : s.step desk ev = .ok s') :
    s'.db.directory = s.db.directory ∧ (∀ r ∈ s'.db.deletions.rows, r ∈ s.db.deletions.rows) ∨
    ∃ target status d₁ agency, s.db.directory.user target.id = some target ∧
      ev.denied s.db target.id status ∧
      s.db.directory.updateUser target.id (fun u => { u with status := status }) = .ok d₁ ∧
      (d₁.suspendAgency agency = .ok s'.db.directory ∨ d₁.archiveAgency agency = .ok s'.db.directory) ∧
      s'.db.directory.Consistent ∧
      ((status = .deleting ∧ ∃ r, r.state = .prepared ∧ r.targetUserId = target.id ∧
          r.clerkUserId = target.subject ∧ s'.db.deletions.rows = s.db.deletions.rows ++ [r]) ∨
        (status = .deleted ∧ ∃ r ∈ s.db.deletions.rows, r.targetUserId = target.id ∧
          s'.db.deletions = s.db.deletions.update r.id fun r => { r with state := .completed })) := by
  cases ev with
  | request r now =>
    obtain ⟨db, hrun, hs⟩ := bind_eq_ok.mp h
    obtain rfl := pure_eq_ok.mp hs
    cases r with
    | prepareDeletion input =>
      obtain hsame | ⟨a, target, -, -, -, -, -, htargets, htarget, -, -, hcommit⟩ := prepareDeletion_ok hrun
      · rw [hsame]
        exact .inl ⟨rfl, fun _ h => h⟩
      · obtain ⟨d₁, d₂, access, hupdate, hsuspend, -, rfl, hconsistent⟩ := commitDeletion_ok hcommit
        have hid : target.id = input.targetUserId := lookup_key htarget
        rw [← hid] at htarget htargets
        exact .inr ⟨target, .deleting, d₁, _, htarget, ⟨hid, rfl, htargets⟩, hupdate, .inl hsuspend,
          hconsistent, .inl ⟨rfl, _, rfl, rfl, rfl, rfl⟩⟩
    | finalizeDeletion subject rid =>
      obtain ⟨x, hx, rfl⟩ := map_eq_ok.mp hrun
      obtain hsame | ⟨r, hr, ⟨e, hdenial, -⟩ | ⟨target, d₁, d₂, access, htarget, hstate, -, -, -, hupdate,
        harchive, hdb, hconsistent⟩⟩ := finalizeDeletion_ok hx
      · rw [hsame]
        exact .inl ⟨rfl, fun _ h => h⟩
      · obtain ⟨b, hx⟩ := maintainDenial_frame hdenial
        rw [hx]
        exact .inl ⟨rfl, fun _ h => h⟩
      · have hid : target.id = r.targetUserId := lookup_key htarget
        rw [← hid] at htarget hupdate
        rw [hdb]
        exact .inr ⟨target, .deleted, d₁, _, htarget, ⟨rfl, r, lookup_mem hr, lookup_key hr, hid.symm, hstate⟩,
          hupdate, .inr harchive, hconsistent, .inr ⟨rfl, r, lookup_mem hr, hid.symm, rfl⟩⟩
    | _ => cases hdenies
  | _ => cases hdenies

namespace Registered

theorem agencies (h : Registered s) : s.db.Scoped := ⟨h.creates.subUsers, h.invitations.subUsers⟩

theorem step_users (h : Registered s) (hs : s.step desk ev = .ok s') :
    s'.db.directory.Valid ∧ Follows (User.Next s.db.inbox (ev.denied s.db))
      (User.Fresh s.db.inbox ev.first) s.db.directory.users s'.db.directory.users := by
  cases hdenies : ev.denies with
  | false =>
    have hstmts := step_stmts h.directory h.agencies hdenies hs
    exact ⟨h.directory.stmts hstmts, hstmts.follows h.directory⟩
  | true =>
    obtain ⟨hsame, -⟩ | ⟨target, status, d₁, agency, htarget, hdenied, hupdate, hagency, -, hkind⟩ :=
      step_denies hdenies hs
    · rw [hsame]
      exact ⟨h.directory, .refl .refl _⟩
    · have hvalid : d₁.Valid := h.directory.update hupdate fun old _ hne => absurd rfl hne
      refine ⟨?_, ?_⟩
      · rcases hagency with hagency | hagency
        · exact hvalid.stmts (suspendAgency_stmts (i := s.db.inbox) (b := ev.first) hagency)
        · exact hvalid.stmts (archiveAgency_stmts (i := s.db.inbox) (b := ev.first) hagency)
      · rw [agency_users hagency]
        refine updateUser_follows h.directory hupdate (fun old hold hactive => ?_) fun old hold _ => .inr ?_
        · rcases hkind with ⟨rfl, -⟩ | ⟨rfl, -⟩ <;> cases hactive
        · obtain rfl := Option.some.inj (hold.symm.trans htarget)
          exact hdenied

/-- A row of a deletion whose target an event does not deny keeps what it says of the target. -/
theorem keep_target (h : Registered s) (hs : s.step desk ev = .ok s') {r r' : Deletion}
    (hr : r ∈ s.db.deletions.rows) (hfixed : r'.fixed = r.fixed)
    (hstate : r'.state = .completed ↔ r.state = .completed)
    (hdenied : ∀ status, ¬ ev.denied s.db r.targetUserId status) : s'.db.directory.denies r' := by
  obtain ⟨u, hu, hid, hsubject, hstatus⟩ := h.targets r hr
  obtain ⟨u', hu', hnext⟩ := (h.step_users hs).2.kept u hu
  obtain ⟨-, htarget, hclerk, -⟩ := Deletion.of_fixed hfixed
  have hterminal : u.status.terminal := by
    rw [hstatus]
    split <;> rfl
  refine ⟨u', hu', hnext.id.trans (hid.trans htarget.symm), hnext.subject.trans (hsubject.trans hclerk.symm), ?_⟩
  rcases hnext.denied (hnext.terminal hterminal) with hsame | hnew
  · rw [hsame, hstatus]
    by_cases hcompleted : r.state = .completed
    · rw [if_pos hcompleted, if_pos (hstate.mpr hcompleted)]
    · rw [if_neg hcompleted, if_neg (fun h => hcompleted (hstate.mp h))]
  · rw [hid] at hnew
    exact absurd hnew (hdenied _)

theorem step_targets (h : Registered s) (hs : s.step desk ev = .ok s') :
    ∀ r' ∈ s'.db.deletions.rows, s'.db.directory.denies r' := by
  have hext := (step_deletions hs).extends h.deletions
  cases hdenies : ev.denies with
  | false =>
    intro r' hr'
    have hnone : ∀ id status, ¬ ev.denied s.db id status := by
      intro id status hdenied
      unfold Event.denied at hdenied
      split at hdenied
      · cases hdenies
      · cases hdenies
      · exact hdenied
    obtain ⟨r, hr | ⟨-, input, now, hev, -⟩, hnext⟩ := hext.traced r' hr'
    · refine h.keep_target hs hr hnext.fixed ⟨fun hcompleted => ?_, fun hcompleted => ?_⟩ (hnone _)
      · rcases hnext.completed hcompleted with hbefore | ⟨subject, now, hev⟩
        · exact hbefore
        · rw [hev] at hdenies
          cases hdenies
      · rw [hnext.ended hcompleted]
        exact hcompleted
    · rw [hev] at hdenies
      cases hdenies
  | true =>
    intro r' hr'
    obtain ⟨hsame, hrows⟩ | ⟨target, status, d₁, agency, htarget, hdenied, hupdate, hagency, -, hkind⟩ :=
      step_denies hdenies hs
    · rw [hsame]
      exact h.targets r' (hrows r' hr')
    obtain ⟨row, hguard, hrow⟩ := user_updateUser hupdate htarget
    have hmem : row ∈ s'.db.directory.users := by
      rw [agency_users hagency]
      exact lookup_mem hrow
    rcases hkind with ⟨rfl, x, hprepared, hid, hclerk, hrows⟩ | ⟨rfl, x, hx, hid, hdeletions⟩
    · rw [hrows] at hr'
      rcases List.mem_append.mp hr' with hold | hnew
      · refine h.keep_target hs hold rfl Iff.rfl fun status hdenied' => ?_
        exact denied_deleting hdenied r' hold (denied_unique h.deletions.lanes.keys hdenied hdenied')
      · rw [List.mem_singleton.mp hnew]
        refine ⟨row, hmem, hguard.row_id.trans hid.symm, hguard.row_subject.trans hclerk.symm, ?_⟩
        rw [hguard.row_status, if_neg (by rw [hprepared]; simp)]
    · rw [hdeletions] at hr'
      rcases modify_cases hr' with ⟨hold, hne⟩ | ⟨x', hx', hxid, rfl⟩
      · refine h.keep_target hs hold rfl Iff.rfl fun status hdenied' => hne ?_
        have htarget' := denied_unique h.deletions.lanes.keys hdenied hdenied'
        rw [h.deletions.targets.eq_of_key hold hx (htarget'.trans hid.symm)]
      · obtain rfl := h.deletions.lanes.keys.eq_of_key hx' hx hxid
        obtain ⟨u, hu, huid, husubject, -⟩ := h.targets x' hx'
        obtain rfl := h.directory.ids.eq_of_key hu (lookup_mem htarget) (huid.trans hid)
        exact ⟨row, hmem, hguard.row_id.trans hid.symm, hguard.row_subject.trans husubject, hguard.row_status⟩

/-- One step keeps the invariant. -/
theorem step (h : Registered s) (hs : s.step desk ev = .ok s') : Registered s' := by
  have hcreates := step_creates hs
  have hdeletions := step_deletions hs
  have hinvitations := step_invitations h.invitations.keys h.refreshes hs
  have hkept := hinvitations.extends h.invitations
  refine ⟨(h.step_users hs).1, hcreates.sound h.creates, hdeletions.sound h.deletions,
    hinvitations.sound h.invitations, h.step_targets hs, ?_, ?_, ?_, ?_, ?_⟩
  · refine forall_of_append h.createClaims (fun c ⟨r, hr, hid, hintent⟩ => ?_) ?_
    · obtain ⟨r', hr', hnext⟩ := (hcreates.extends h.creates).kept r hr
      exact ⟨r', hr', (Create.of_fixed hnext.fixed).1.trans hid,
        (Create.intent_of_fixed hnext.fixed).trans hintent⟩
    · obtain hsame | ⟨c, hnew, -, -, r, hr, hid, hintent, -⟩ := step_createClaims h.creates hs
      · exact .inl hsame
      · exact .inr ⟨c, hnew, r, hr, hid, hintent⟩
  · refine forall_of_append h.deletionClaims (fun c ⟨r, hr, hid, hclerk⟩ => ?_) ?_
    · obtain ⟨r', hr', hnext⟩ := (hdeletions.extends h.deletions).kept r hr
      obtain ⟨hid', -, hclerk', -⟩ := Deletion.of_fixed hnext.fixed
      exact ⟨r', hr', hid'.trans hid, hclerk'.trans hclerk⟩
    · obtain hsame | ⟨c, hnew, -, -, r, hr, hid, hclerk, -⟩ := step_deletionClaims h.deletions hs
      · exact .inl hsame
      · exact .inr ⟨c, hnew, r, hr, hid, hclerk⟩
  · refine forall_of_append h.invitationClaims (fun c ⟨r, hr, hid, hemail⟩ => ?_)
      (step_invitationClaims h.invitations hs)
    obtain ⟨r', hr', hnext⟩ := hkept.kept r hr
    obtain ⟨hid', -, -, hemail', -⟩ := Invitation.of_fixed hnext.fixed
    exact ⟨r', hr', hid'.trans hid, hemail'.trans hemail⟩
  · refine forall_of_append h.acceptances (fun o ⟨r, hr, hid, hemail⟩ => ?_) (step_acceptances hs)
    obtain ⟨r', hr', hnext⟩ := hkept.kept r hr
    obtain ⟨hid', -, -, hemail', -⟩ := Invitation.of_fixed hnext.fixed
    exact ⟨r', hr', hid'.trans hid, hemail'.trans hemail⟩
  · refine forall_of_append h.refreshes (fun o ⟨r, hr, hid, hle, hpending⟩ => ?_) ?_
    · obtain ⟨r', hr', hnext⟩ := hkept.kept r hr
      refine ⟨r', hr', (Invitation.of_fixed hnext.fixed).1.trans hid, ?_, fun hversion => ?_⟩
      · rcases hnext.version with rfl | hlt
        · exact hle
        · exact hle.trans (le_of_lt hlt)
      · rcases hnext.version with rfl | hlt
        · exact hpending hversion
        · omega
    · obtain hsame | ⟨o, hnew, -, r, hr, hid, hversion, hstate⟩ := step_refreshes hs
      · exact .inl hsame
      · exact .inr ⟨o, hnew, r, hr, hid, le_of_eq hversion.symm, fun _ => hstate⟩

end Registered

theorem registered_of_reachable (h : (machine desk).Reachable s) : Registered s := by
  refine h.invariant ?_ fun _ _ _ h hs => h.step hs
  rintro _ ⟨business, -, rfl⟩
  exact registered_start business

end ShaponTravels.Identity
