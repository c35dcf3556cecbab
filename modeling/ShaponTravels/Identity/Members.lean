import ShaponTravels.Identity.Applicants

/-!
# Members — agencies, their owners and their members in every reachable state

The deferred constraints hold whenever a transaction has committed, also of those that leave them to the
database; and whoever is there already joins an agency as its owner only.
-/

namespace ShaponTravels.Identity

open Library

variable {desk : Desk} {i : Inbox} {b : String → Prop} {db db' : Db} {d d' d'' : Directory} {s s' : System}
  {ev : Event} {now : Int}

/-! ## Writes that break no constraint -/

/-- Nobody gets another role or becomes active, an agency keeps its owner, and the members stay. -/
structure Directory.Quiet (d d' : Directory) : Prop where
  agencies : ∀ a' ∈ d'.agencies, ∃ a ∈ d.agencies, a'.id = a.id ∧ a'.ownerUserId = a.ownerUserId
  memberships : d'.memberships = d.memberships
  kept : ∀ u ∈ d.users, ∃ u' ∈ d'.users, u'.id = u.id ∧ u'.role = u.role
  active : ∀ u' ∈ d'.users, u'.status = .active → u'.role.requiresAgency →
    ∃ u ∈ d.users, u.id = u'.id ∧ u.role = u'.role ∧ u.status = .active

theorem Directory.Quiet.refl (d : Directory) : d.Quiet d :=
  ⟨fun a ha => ⟨a, ha, rfl, rfl⟩, rfl, fun u hu => ⟨u, hu, rfl, rfl⟩, fun u hu hactive _ => ⟨u, hu, rfl, rfl, hactive⟩⟩

theorem Directory.Quiet.trans (h : d.Quiet d') (h' : d'.Quiet d'') : d.Quiet d'' := by
  refine ⟨fun a'' ha'' => ?_, h'.memberships.trans h.memberships, fun u hu => ?_, fun u'' hu'' hactive hagency => ?_⟩
  · obtain ⟨a', ha', hid', howner'⟩ := h'.agencies a'' ha''
    obtain ⟨a, ha, hid, howner⟩ := h.agencies a' ha'
    exact ⟨a, ha, hid'.trans hid, howner'.trans howner⟩
  · obtain ⟨u', hu', hid, hrole⟩ := h.kept u hu
    obtain ⟨u'', hu'', hid', hrole'⟩ := h'.kept u' hu'
    exact ⟨u'', hu'', hid'.trans hid, hrole'.trans hrole⟩
  · obtain ⟨u', hu', hid', hrole', hactive'⟩ := h'.active u'' hu'' hactive hagency
    obtain ⟨u, hu, hid, hrole, hbefore⟩ := h.active u' hu' hactive' (hrole' ▸ hagency)
    exact ⟨u, hu, hid.trans hid', hrole.trans hrole', hbefore⟩

/-- The constraints survive. -/
theorem Directory.Consistent.quiet (h : d.Consistent) (hq : d.Quiet d') : d'.Consistent := by
  refine ⟨fun a' ha' => ?_, fun m hm => ?_, fun a' ha' => ?_, fun u' hu' hactive hagency => ?_⟩
  · obtain ⟨a, ha, -, howner⟩ := hq.agencies a' ha'
    obtain ⟨u, hu, hid, hrole⟩ := h.owners a ha
    obtain ⟨u', hu', hid', hrole'⟩ := hq.kept u hu
    exact ⟨u', hu', hid'.trans (hid.trans howner.symm), hrole'.trans hrole⟩
  · rw [hq.memberships] at hm
    obtain ⟨u, hu, hid, hrole⟩ := h.members m hm
    obtain ⟨u', hu', hid', hrole'⟩ := hq.kept u hu
    exact ⟨u', hu', hid'.trans hid, hrole'.trans hrole⟩
  · obtain ⟨a, ha, hid, howner⟩ := hq.agencies a' ha'
    obtain ⟨m, hm, huser, hmember, hkind⟩ := h.ownerships a ha
    exact ⟨m, hq.memberships ▸ hm, huser.trans howner.symm, hmember.trans hid.symm, hkind⟩
  · obtain ⟨u, hu, hid, hrole, hbefore⟩ := hq.active u' hu' hactive hagency
    obtain ⟨m, hm, huser, hmember⟩ := h.agencyUsers u hu hbefore (hrole ▸ hagency)
    exact ⟨m, hq.memberships ▸ hm, huser.trans hid, hmember.trans hrole⟩

theorem updateUser_quiet {id : Uuid} {f : User → User} (hvalid : d.Valid) (h : d.updateUser id f = .ok d')
    (hrole : ∀ u, (f u).role = u.role) (hstatus : ∀ u, (f u).status = u.status ∨ (f u).status = .suspended) :
    d.Quiet d' := by
  obtain ⟨-, rfl⟩ | ⟨old, row, hold, hguard, rfl⟩ := updateUser_ok h
  · exact .refl _
  have hid : old.id = id := lookup_key hold
  have hrow : row.id = old.id ∧ row.role = old.role := ⟨hguard.row_id, hguard.row_role.trans (hrole old)⟩
  refine ⟨fun a ha => ⟨a, ha, rfl, rfl⟩, rfl, fun u hu => ?_, fun u' hu' hactive _ => ?_⟩
  · by_cases hu' : u.id = id
    · obtain rfl := hvalid.ids.eq_of_key hu (lookup_mem hold) (hu'.trans hid.symm)
      exact ⟨row, mem_modify_of_mem (f := fun _ => row) hu hu', hrow⟩
    · exact ⟨u, mem_modify_of_ne hu hu', rfl, rfl⟩
  · rcases modify_cases hu' with ⟨hmem, -⟩ | ⟨u, hu, hkey, rfl⟩
    · exact ⟨u', hmem, rfl, rfl, hactive⟩
    · rw [hguard.row_status] at hactive
      rcases hstatus old with hsame | hsuspended
      · exact ⟨old, lookup_mem hold, hrow.1.symm, hrow.2.symm, hsame.symm.trans hactive⟩
      · rw [hsuspended] at hactive
        cases hactive

theorem setAgency_quiet {id : Uuid} {status : AgencyStatus} (h : d.setAgency id status = .ok d') : d.Quiet d' := by
  obtain ⟨-, rfl⟩ | ⟨old, hold, -, rfl⟩ := setAgency_ok h
  · exact .refl _
  refine ⟨fun a' ha' => ?_, rfl, fun u hu => ⟨u, hu, rfl, rfl⟩, fun u hu hactive _ => ⟨u, hu, rfl, rfl, hactive⟩⟩
  rcases modify_cases ha' with ⟨hmem, -⟩ | ⟨a, -, -, rfl⟩
  · exact ⟨a', hmem, rfl, rfl⟩
  · exact ⟨old, lookup_mem hold, rfl, rfl⟩

theorem insertUser_quiet {u : User} (h : d.insertUser u = .ok d') (hrole : u.role.requiresAgency = false) :
    d.Quiet d' := by
  obtain ⟨-, -, rfl⟩ := insertUser_ok h
  refine ⟨fun a ha => ⟨a, ha, rfl, rfl⟩, rfl, fun v hv => ⟨v, List.mem_append_left _ hv, rfl, rfl⟩,
    fun v hv hactive hagency => ?_⟩
  rcases List.mem_append.mp hv with hv | hv
  · exact ⟨v, hv, rfl, rfl, hactive⟩
  · rw [List.mem_singleton.mp hv, hrole] at hagency
    cases hagency

theorem invalidateMembers_quiet {agency : Uuid} (hvalid : d.Valid) (h : d.invalidateMembers agency = .ok d') :
    d.Quiet d' := by
  suffices hfold : ∀ (ids : List Uuid) {d : Directory}, d.Valid → ids.foldlM invalidateMember d = .ok d' →
      d.Quiet d' from hfold _ hvalid h
  intro ids
  induction ids with
  | nil =>
    intro d _ h
    obtain rfl := pure_eq_ok.mp h
    exact .refl _
  | cons id ids ih =>
    intro d hvalid h
    rw [List.foldlM_cons, bind_eq_ok] at h
    obtain ⟨d₁, hfirst, hrest⟩ := h
    exact (updateUser_quiet hvalid hfirst (fun _ => rfl) fun _ => .inl rfl).trans (ih (hvalid.bump hfirst) hrest)

theorem invalidateMembers_memberships {agency : Uuid} (h : d.invalidateMembers agency = .ok d') :
    d'.memberships = d.memberships := by
  suffices hfold : ∀ (ids : List Uuid) {d : Directory}, ids.foldlM invalidateMember d = .ok d' →
      d'.memberships = d.memberships from hfold _ h
  intro ids
  induction ids with
  | nil =>
    intro d h
    rw [pure_eq_ok.mp h]
  | cons id ids ih =>
    intro d h
    rw [List.foldlM_cons, bind_eq_ok] at h
    obtain ⟨d₁, hfirst, hrest⟩ := h
    exact (ih hrest).trans (updateUser_frame hfirst).2.1

theorem contain_quiet {subject : String} (hvalid : db.directory.Valid) (h : contain db subject = .ok db') :
    db.directory.Quiet db'.directory := by
  rw [contain] at h
  split at h
  · obtain rfl := pure_eq_ok.mp h
    exact .refl _
  simp only [bind_eq_ok, mapError_eq_ok] at h
  obtain ⟨d₁, huser, d₂, howned, hrevoke⟩ := h
  obtain ⟨access, rfl⟩ := revokeClients_frame hrevoke
  have hfirst : db.directory.Quiet d₁ := by
    rw [Directory.suspendUser] at huser
    split at huser
    · obtain rfl := pure_eq_ok.mp huser
      exact .refl _
    · exact updateUser_quiet hvalid huser (fun _ => rfl) fun _ => .inr rfl
  have hvalid₁ : d₁.Valid := hvalid.stmts (suspendUser_stmts (i := db.inbox) (b := fun _ => False) huser)
  have hsecond : d₁.Quiet d₂ := by
    rw [Directory.suspendOwned] at howned
    split at howned
    · obtain rfl := pure_eq_ok.mp howned
      exact .refl _
    · obtain ⟨d₃, hset, hmembers⟩ := bind_eq_ok.mp howned
      have hstmt : Stmt db.inbox (fun _ => False) d₁ d₃ := .agency _ _ _ hset
      exact (setAgency_quiet hset).trans (invalidateMembers_quiet (hvalid₁.stmt hstmt) hmembers)
  exact hfirst.trans hsecond

theorem ingest_quiet {e : ProviderEvent} (hvalid : db.directory.Valid) (h : ingest db now e = .ok db') :
    db.directory.Quiet db'.directory := by
  simp only [ingest, bind_eq_ok] at h
  obtain ⟨-, -, h⟩ := h
  split at h
  · simp only [bind_eq_ok, pure_eq_ok] at h
    obtain ⟨-, -, rfl⟩ := h
    exact .refl _
  · split at h
    · have hquiet := contain_quiet (by exact hvalid) h
      exact hquiet
    · obtain rfl := pure_eq_ok.mp h
      exact .refl _

theorem applyEvent_quiet {c : InboxClaim} {answer : Except ApiError ProviderUser} (hvalid : db.directory.Valid)
    (h : applyEvent db now c answer = .ok db') : db.directory.Quiet db'.directory := by
  simp only [applyEvent, bind_eq_ok, pure_eq_ok] at h
  obtain ⟨r, -, -, -, x, hobserved, rfl⟩ := h
  rw [applyObserved.eq_def] at hobserved
  split at hobserved
  · obtain rfl := pure_eq_ok.mp hobserved
    exact .refl _
  · obtain ⟨db₁, hprofile, hresult⟩ := bind_eq_ok.mp hobserved
    obtain rfl := pure_eq_ok.mp hresult
    rw [applyProfile] at hprofile
    split at hprofile
    · obtain rfl := pure_eq_ok.mp hprofile
      exact .refl _
    · simp only [bind_eq_ok, mapError_eq_ok, pure_eq_ok] at hprofile
      obtain ⟨d, hrefresh, rfl⟩ := hprofile
      rw [Directory.refreshProfile] at hrefresh
      split at hrefresh
      · obtain rfl := pure_eq_ok.mp hrefresh
        exact .refl _
      · exact updateUser_quiet hvalid hrefresh (fun _ => rfl) fun _ => .inl rfl
  · split at hobserved
    · obtain ⟨db₁, hcontain, hresult⟩ := bind_eq_ok.mp hobserved
      obtain rfl := pure_eq_ok.mp hresult
      have hquiet := contain_quiet hvalid hcontain
      exact hquiet
    · obtain rfl := pure_eq_ok.mp hobserved
      exact .refl _

/-! ## The constraints in every reachable state -/

theorem request_consistent {r : Request} (hvalid : db.directory.Valid) (hc : db.directory.Consistent)
    (hdenies : (Event.request r now).denies = false) (h : r.run desk db now = .ok db') :
    db'.directory.Consistent := by
  cases r with
  | bootstrap u draw =>
    simp only [Request.run, bootstrap, bind_eq_ok] at h
    obtain ⟨-, -, -, -, -, -, -, -, d, -, hcommit⟩ := h
    obtain ⟨rfl, hconsistent⟩ := commit_ok hcommit
    exact hconsistent
  | onboard u draw =>
    simp only [Request.run, onboard, bind_eq_ok] at h
    obtain ⟨-, -, -, -, -, -, h⟩ := h
    split at h
    · obtain rfl := pure_eq_ok.mp h
      exact hc
    · simp only [bind_eq_ok, mapError_eq_ok, pure_eq_ok] at h
      obtain ⟨-, -, -, -, -, -, -, -, d, hinsert, rfl⟩ := h
      exact hc.quiet (insertUser_quiet hinsert rfl)
  | change input draw =>
    obtain rfl | ⟨a, target, role, status, -, -, -, -, -, -, hcommit⟩ := change_ok h
    · exact hc
    · obtain ⟨db₁, affected, access, updated, e₁, e₂, -, -, -, -, -, rfl, hconsistent⟩ := commitChange_ok hcommit
      exact hconsistent
  | finalizeCreate subject id clerk verified draw =>
    obtain rfl | ⟨r, a, db₁, -, -, -, -, -, -, rfl, hconsistent⟩ := finalizeCreate_ok h
    · exact hc
    · exact hconsistent
  | prepareDeletion input => cases hdenies
  | finalizeDeletion subject id => cases hdenies
  | ingest e => exact hc.quiet (ingest_quiet hvalid h)
  | review input draw =>
    obtain rfl | ⟨a, target, application, db₁, p, -, -, -, rfl, hconsistent⟩ := review_ok h
    · exact hc
    · exact hconsistent
  | rename input draw =>
    obtain rfl | ⟨a, target, d, db₁, names, c, -, -, -, -, hupdate, heffects, rfl⟩ := rename_ok h
    · exact hc
    · obtain ⟨current, e₁, e₂, mirrored, -, -, -, rfl⟩ := commandEffects_ok heffects
      exact hc.quiet (updateUser_quiet hvalid hupdate (fun _ => rfl) fun _ => .inl rfl)
  | _ =>
    rw [(request_frame h).directory (by simp [Request.writes])]
    exact hc

theorem step_consistent (h : Registered s) (hc : s.db.directory.Consistent) (hs : s.step desk ev = .ok s') :
    s'.db.directory.Consistent := by
  cases hdenies : ev.denies with
  | true =>
    obtain ⟨hsame, -⟩ | ⟨target, status, d₁, agency, -, -, -, -, hconsistent, -⟩ := step_denies hdenies hs
    · rw [hsame]
      exact hc
    · exact hconsistent
  | false =>
    cases ev with
    | request r now =>
      obtain ⟨db, hrun, hstep⟩ := bind_eq_ok.mp hs
      obtain rfl := pure_eq_ok.mp hstep
      exact request_consistent h.directory hc hdenies hrun
    | accept o result draw now =>
      simp only [System.step, bind_eq_ok, pure_eq_ok] at hs
      obtain ⟨-, -, db, haccept, rfl⟩ := hs
      obtain rfl | ⟨r, u, db₁, -, -, -, -, -, rfl, hconsistent⟩ := accept_ok haccept
      · exact hc
      · exact hconsistent
    | applyEvent c answer now =>
      simp only [System.step, bind_eq_ok, pure_eq_ok] at hs
      obtain ⟨-, -, db, happly, rfl⟩ := hs
      exact hc.quiet (applyEvent_quiet h.directory happly)
    | _ =>
      rw [(step_frame hs).db.directory (by simp [Event.writes])]
      exact hc

theorem Directory.consistent_empty : Directory.Consistent ⟨[], [], [], none⟩ :=
  ⟨fun _ h => absurd h List.not_mem_nil, fun _ h => absurd h List.not_mem_nil, fun _ h => absurd h List.not_mem_nil,
    fun _ h => absurd h List.not_mem_nil⟩

/-! ## Who joins an agency -/

/-- Nobody leaves an agency, and whoever joins one is its owner or was not there before. -/
structure Directory.Joins (d d' : Directory) : Prop where
  kept : ∀ m ∈ d.memberships, m ∈ d'.memberships
  joined : ∀ m ∈ d'.memberships, m ∈ d.memberships ∨ m.kind = .owner ∨ ∀ u ∈ d.users, u.id ≠ m.userId

theorem Directory.joins_of_same (h : d'.memberships = d.memberships) : d.Joins d' :=
  ⟨fun _ hm => h ▸ hm, fun _ hm => .inl (h ▸ hm)⟩

theorem Directory.joins_of_owner {m : Membership} (h : d'.memberships = d.memberships ++ [m]) (hm : m.kind = .owner) :
    d.Joins d' := by
  refine ⟨fun x hx => h ▸ List.mem_append_left _ hx, fun x hx => ?_⟩
  rw [h] at hx
  rcases List.mem_append.mp hx with hx | hx
  · exact .inl hx
  · rw [List.mem_singleton.mp hx]
    exact .inr (.inl hm)

theorem applyChange_joins {target : User} {role : Role} {status : Status} {draw : Draw} {c : Change}
    {affected : List Uuid} (hvalid : db.directory.Valid)
    (h : applyChange db target role status draw c = .ok (db', affected)) : db.directory.Joins db'.directory := by
  cases c with
  | provisionAgency =>
    obtain ⟨db₁, hprovision, h⟩ := bind_eq_ok.mp h
    obtain ⟨rfl, -⟩ := Prod.mk.inj (pure_eq_ok.mp h)
    obtain ⟨a, w, account, hprovisioned⟩ := provision_provisioned hprovision
    exact Directory.joins_of_owner hprovisioned.memberships rfl
  | reactivateAgency expected =>
    simp only [applyChange, reactivate, bind_eq_ok, mapError_eq_ok, pure_eq_ok] at h
    obtain ⟨x, ⟨-, -, -, -, a, -, -, -, -, -, d, hupdate, d₁, hset, rfl⟩, d₂, hmembers, h⟩ := h
    obtain ⟨rfl, -⟩ := Prod.mk.inj h
    have hvalid₁ : d.Valid := hvalid.update hupdate fun _ _ hne => absurd rfl hne
    have hstmt : Stmt db.inbox (fun _ => False) d d₁ := .agency _ _ _ hset
    have hquiet := (setAgency_quiet hset).trans (invalidateMembers_quiet (hvalid₁.stmt hstmt) hmembers)
    exact Directory.joins_of_same (hquiet.memberships.trans (updateUser_frame hupdate).2.1)
  | setRole _ | setAccess _ =>
    simp only [applyChange, setRoleStatus, bind_eq_ok, mapError_eq_ok] at h
    obtain ⟨d, hupdate, h⟩ := h
    split at h
    · obtain ⟨rfl, -⟩ := Prod.mk.inj (pure_eq_ok.mp h)
      exact Directory.joins_of_same (updateUser_frame hupdate).2.1
    · simp only [bind_eq_ok, mapError_eq_ok, pure_eq_ok] at h
      obtain ⟨d₁, hset, d₂, hmembers, h⟩ := h
      obtain ⟨rfl, -⟩ := Prod.mk.inj h
      exact Directory.joins_of_same (((invalidateMembers_memberships hmembers).trans
        (setAgency_quiet hset).memberships).trans (updateUser_frame hupdate).2.1)

/-- A member of a user that is provisioned is that user. -/
theorem provisioningCommit_joins {u : ProviderUser} {grant : Grant} {draw : Draw}
    (h : provisioningCommit db now u grant draw = .ok db') : db.directory.Joins db'.directory := by
  obtain ⟨-, hnew, db₁, target, e₁, e₂, m, hgrant, -, -, -, rfl⟩ := provisioningCommit_ok h
  have hsub : ∀ agency, ∀ x ∈ db.directory.memberships ++ [⟨grant.userId, agency, .sub⟩],
      x ∈ db.directory.memberships ∨ x.kind = .owner ∨ ∀ u ∈ db.directory.users, u.id ≠ x.userId := by
    intro agency x hx
    rcases List.mem_append.mp hx with hx | hx
    · exact .inl hx
    · rw [List.mem_singleton.mp hx]
      exact .inr (.inr fun u hu => (hnew u hu).2)
  rw [grantRole] at hgrant
  split at hgrant
  · obtain ⟨target, -, hprovision⟩ := bind_eq_ok.mp hgrant
    obtain ⟨a, w, account, hprovisioned⟩ := provision_provisioned hprovision
    exact Directory.joins_of_owner hprovisioned.memberships rfl
  split at hgrant
  · simp only [bind_eq_ok, mapError_eq_ok] at hgrant
    obtain ⟨d, hupdate, hgrant⟩ := hgrant
    split at hgrant
    · obtain rfl := pure_eq_ok.mp hgrant
      exact Directory.joins_of_same (updateUser_frame hupdate).2.1
    · simp only [bind_eq_ok, mapError_eq_ok, pure_eq_ok] at hgrant
      obtain ⟨d₁, hmembership, rfl⟩ := hgrant
      obtain ⟨-, -, -, d₂, -, rfl⟩ := insertMembership_ok hmembership
      have hmembers : d.memberships = db.directory.memberships := (updateUser_frame hupdate).2.1
      rename_i agency _
      refine ⟨fun x hx => ?_, fun x hx => hsub agency x ?_⟩
      · show x ∈ d.memberships ++ _
        rw [hmembers]
        exact List.mem_append_left _ hx
      · rw [← hmembers]
        exact hx
  · obtain rfl := pure_eq_ok.mp hgrant
    exact Directory.joins_of_same rfl

theorem request_joins {r : Request} (hvalid : db.directory.Valid) (hdenies : (Event.request r now).denies = false)
    (h : r.run desk db now = .ok db') : db.directory.Joins db'.directory := by
  cases r with
  | bootstrap u draw =>
    simp only [Request.run, bootstrap, bind_eq_ok, mapError_eq_ok] at h
    obtain ⟨-, -, -, -, -, -, -, -, d, hinsert, hcommit⟩ := h
    obtain ⟨rfl, -⟩ := commit_ok hcommit
    obtain ⟨-, -, rfl⟩ := insertUser_ok hinsert
    exact Directory.joins_of_same rfl
  | onboard u draw =>
    simp only [Request.run, onboard, bind_eq_ok] at h
    obtain ⟨-, -, -, -, -, -, h⟩ := h
    split at h
    · obtain rfl := pure_eq_ok.mp h
      exact Directory.joins_of_same rfl
    · simp only [bind_eq_ok, mapError_eq_ok, pure_eq_ok] at h
      obtain ⟨-, -, -, -, -, -, -, -, d, hinsert, rfl⟩ := h
      exact Directory.joins_of_same (insertUser_quiet hinsert rfl).memberships
  | change input draw =>
    obtain rfl | ⟨a, target, role, status, -, -, -, -, -, -, hcommit⟩ := change_ok h
    · exact Directory.joins_of_same rfl
    · obtain ⟨db₁, affected, access, updated, e₁, e₂, happly, -, -, -, -, rfl, -⟩ := commitChange_ok hcommit
      have hjoins := applyChange_joins hvalid happly
      exact hjoins
  | finalizeCreate subject id clerk verified draw =>
    obtain rfl | ⟨r, a, db₁, -, -, -, -, -, hcommit, rfl, -⟩ := finalizeCreate_ok h
    · exact Directory.joins_of_same rfl
    · have hjoins := provisioningCommit_joins hcommit
      exact hjoins
  | prepareDeletion input => cases hdenies
  | finalizeDeletion subject id => cases hdenies
  | ingest e => exact Directory.joins_of_same (ingest_quiet hvalid h).memberships
  | review input draw =>
    obtain rfl | ⟨a, target, application, db₁, p, -, hdecide, -, rfl, -⟩ := review_ok h
    · exact Directory.joins_of_same rfl
    · unfold decideApplication at hdecide
      split at hdecide
      · obtain ⟨⟨agency, w, account, hprovisioned⟩, -⟩ := acceptApplication_provisioned hdecide
        exact Directory.joins_of_owner hprovisioned.memberships rfl
      · obtain rfl := pure_eq_ok.mp hdecide
        exact Directory.joins_of_same rfl
  | rename input draw =>
    obtain rfl | ⟨a, target, d, db₁, names, c, -, -, -, -, hupdate, heffects, rfl⟩ := rename_ok h
    · exact Directory.joins_of_same rfl
    · obtain ⟨current, e₁, e₂, mirrored, -, -, -, rfl⟩ := commandEffects_ok heffects
      exact Directory.joins_of_same (updateUser_frame hupdate).2.1
  | _ => exact Directory.joins_of_same (by rw [(request_frame h).directory (by simp [Request.writes])])

theorem agency_memberships {agency : Option Uuid}
    (h : d.suspendAgency agency = .ok d' ∨ d.archiveAgency agency = .ok d') : d'.memberships = d.memberships := by
  rcases h with h | h
  · rw [Directory.suspendAgency] at h
    split at h
    · rw [pure_eq_ok.mp h]
    · exact (setAgency_quiet h).memberships
  · rw [Directory.archiveAgency] at h
    split at h
    · rw [pure_eq_ok.mp h]
    · exact (setAgency_quiet h).memberships

theorem step_joins (h : Registered s) (hs : s.step desk ev = .ok s') : s.db.directory.Joins s'.db.directory := by
  cases hdenies : ev.denies with
  | true =>
    obtain ⟨hsame, -⟩ | ⟨target, status, d₁, agency, -, -, hupdate, hagency, -, -⟩ := step_denies hdenies hs
    · rw [hsame]
      exact Directory.joins_of_same rfl
    · exact Directory.joins_of_same ((agency_memberships hagency).trans (updateUser_frame hupdate).2.1)
  | false =>
    cases ev with
    | request r now =>
      obtain ⟨db, hrun, hstep⟩ := bind_eq_ok.mp hs
      obtain rfl := pure_eq_ok.mp hstep
      exact request_joins h.directory hdenies hrun
    | accept o result draw now =>
      simp only [System.step, bind_eq_ok, pure_eq_ok] at hs
      obtain ⟨-, -, db, haccept, rfl⟩ := hs
      obtain rfl | ⟨r, u, db₁, -, -, -, hcommit, -, rfl, -⟩ := accept_ok haccept
      · exact Directory.joins_of_same rfl
      · have hjoins := provisioningCommit_joins hcommit
        exact hjoins
    | applyEvent c answer now =>
      simp only [System.step, bind_eq_ok, pure_eq_ok] at hs
      obtain ⟨-, -, db, happly, rfl⟩ := hs
      exact Directory.joins_of_same (applyEvent_quiet h.directory happly).memberships
    | _ => exact Directory.joins_of_same (by rw [(step_frame hs).db.directory (by simp [Event.writes])])

end ShaponTravels.Identity
