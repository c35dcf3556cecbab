import ShaponTravels.Identity.Registry

/-!
# Statements — what every event does to users, agencies and memberships

One lemma for each transaction that writes the directory, and `step_stmts` for all events but the
two that deny an identity for good.
-/

namespace ShaponTravels.Identity

open Library

variable {desk : Desk} {i : Inbox} {b : String → Prop} {db db' : Db} {now : Int} {d d' : Directory}

/-! ## Changes -/

/-- The checks of a change that depend on what the target becomes. -/
theorem decideChange_ok {actor target : User} {input : ChangeRequest} {role : Role} {status : Status}
    (h : decideChange db actor target input = .ok (role, status)) :
    db.reserved input.operationId = false ∧ target.version = input.expectedVersion ∧
      requested db actor target input.change = .ok (role, status) ∧
      ¬ (role = target.role ∧ status = target.status) ∧
      (status = .active → role.requiresAgency → input.change.agencyChange = false →
        db.directory.usable target.id) ∧
      (status = .active → db.inbox.isDeleted target.subject = false) ∧
      guardLastSuperadmin db.directory target.id role status = .ok () := by
  simp only [decideChange, bind_eq_ok, ensure_eq_ok] at h
  obtain ⟨-, hreserved, -, hversion, x, hrequested, -, hchange, h⟩ := h
  have hlast : (x.2 = .active → db.inbox.isDeleted target.subject = false) ∧
      guardLastSuperadmin db.directory target.id x.1 x.2 = .ok () ∧ x = (role, status) ∧
      (x.2 = .active → x.1.requiresAgency → input.change.agencyChange = false →
        db.directory.usable target.id) := by
    have htail : ∀ {c : Prop} [Decidable c], (if c then do
          guardSubject db target.subject
          guardLastSuperadmin db.directory target.id x.1 x.2
          pure x
        else do
          guardLastSuperadmin db.directory target.id x.1 x.2
          pure x) = .ok (role, status) →
        (c → db.inbox.isDeleted target.subject = false) ∧
          guardLastSuperadmin db.directory target.id x.1 x.2 = .ok () ∧ x = (role, status) := by
      intro c _ h
      split at h
      · simp only [guardSubject, bind_eq_ok, ensure_eq_ok, pure_eq_ok] at h
        obtain ⟨-, hdeleted, _, hguard, rfl⟩ := h
        exact ⟨fun _ => by simpa using hdeleted, hguard, rfl⟩
      · rename_i hnot
        simp only [bind_eq_ok, pure_eq_ok] at h
        obtain ⟨_, hguard, rfl⟩ := h
        exact ⟨fun hc => absurd hc hnot, hguard, rfl⟩
    by_cases hneeded : x.2 = .active ∧ x.1.requiresAgency ∧ ¬ input.change.agencyChange
    · rw [if_pos hneeded] at h
      obtain ⟨_, husable, h⟩ := bind_eq_ok.mp h
      obtain ⟨hdeleted, hguard, hx⟩ := htail h
      exact ⟨hdeleted, hguard, hx, fun _ _ _ => ensure_eq_ok.mp husable⟩
    · rw [if_neg hneeded] at h
      obtain ⟨hdeleted, hguard, hx⟩ := htail h
      exact ⟨hdeleted, hguard, hx, fun hactive hagency hchange =>
        absurd ⟨hactive, hagency, by simp [hchange]⟩ hneeded⟩
  obtain ⟨hdeleted, hguard, rfl, husable⟩ := hlast
  exact ⟨by simpa using hreserved, hversion, hrequested, hchange, husable, hdeleted, hguard⟩

/-- What a change asks for is not a terminal status, and a new role only for nobody's member. -/
theorem requested_ok {actor target : User} {change : Change} {role : Role} {status : Status}
    (h : requested db actor target change = .ok (role, status)) :
    (status.terminal → status = target.status) ∧
      (change.agencyChange = false → role ≠ target.role → db.directory.isMember target.id = false) ∧
      (change.agencyChange → role = .b2b ∧ status = .active) := by
  cases change with
  | setRole role' =>
    simp only [requested, bind_eq_ok] at h
    obtain ⟨-, -, h⟩ := h
    split at h
    · simp only [bind_eq_ok, ensure_eq_ok, pure_eq_ok] at h
      obtain ⟨-, hmember, -, -, h⟩ := h
      obtain ⟨rfl, rfl⟩ := Prod.mk.inj h
      exact ⟨fun _ => rfl, fun _ _ => by simpa using hmember, fun h => by cases h⟩
    · rename_i hsame
      obtain ⟨rfl, rfl⟩ := Prod.mk.inj (pure_eq_ok.mp h)
      exact ⟨fun _ => rfl, fun _ hne => absurd hne hsame, fun h => by cases h⟩
  | setAccess active =>
    obtain ⟨rfl, rfl⟩ := Prod.mk.inj (pure_eq_ok.mp h)
    refine ⟨fun hterminal => ?_, fun _ hne => absurd rfl hne, fun h => by cases h⟩
    cases active <;> cases hterminal
  | provisionAgency | reactivateAgency expected =>
    simp only [requested, bind_eq_ok, pure_eq_ok] at h
    obtain ⟨-, -, h⟩ := h
    obtain ⟨rfl, rfl⟩ := Prod.mk.inj h
    exact ⟨fun hterminal => (by cases hterminal), fun hother => (by cases hother), fun _ => ⟨rfl, rfl⟩⟩

theorem setRoleStatus_stmts {target : User} {role : Role} {status : Status} {affected : List Uuid}
    (htarget : db.directory.user target.id = some target)
    (hdeleted : status = .active → i.isDeleted target.subject = false)
    (hmember : role ≠ target.role → db.directory.isMember target.id = false)
    (hterminal : status.terminal → status = target.status)
    (h : setRoleStatus db target role status = .ok (db', affected)) :
    Stmts i b db.directory db'.directory := by
  simp only [setRoleStatus, bind_eq_ok, mapError_eq_ok] at h
  obtain ⟨d, hupdate, h⟩ := h
  have hfirst : Stmt i b db.directory d := by
    refine .update _ _ _ hupdate fun old hold => ?_
    obtain rfl := Option.some.inj (hold.symm.trans htarget)
    exact ⟨fun hactive => .inr (hdeleted hactive), hmember, hterminal⟩
  split at h
  · obtain ⟨rfl, -⟩ := Prod.mk.inj (pure_eq_ok.mp h)
    exact .single hfirst
  · simp only [bind_eq_ok, mapError_eq_ok, pure_eq_ok] at h
    obtain ⟨d₁, hset, d₂, hmembers, h⟩ := h
    obtain ⟨rfl, -⟩ := Prod.mk.inj h
    exact ((Relation.ReflTransGen.single hfirst).tail (.agency _ _ _ hset)).trans
      (invalidateMembers_stmts hmembers)

/-- The statements of a change. -/
theorem applyChange_stmts {actor target : User} {input : ChangeRequest} {role : Role} {status : Status}
    {draw : Draw} {affected : List Uuid} (htarget : db.directory.user target.id = some target)
    (hdecide : decideChange db actor target input = .ok (role, status))
    (h : applyChange db target role status draw input.change = .ok (db', affected)) :
    Stmts db.inbox b db.directory db'.directory := by
  obtain ⟨-, -, hrequested, -, -, hdeleted, -⟩ := decideChange_ok hdecide
  obtain ⟨hterminal, hmember, hagency⟩ := requested_ok hrequested
  generalize input.change = c at *
  cases c with
  | provisionAgency =>
    obtain ⟨db₁, hprovision, h⟩ := bind_eq_ok.mp h
    obtain ⟨rfl, -⟩ := Prod.mk.inj (pure_eq_ok.mp h)
    exact provision_stmts htarget (hdeleted (hagency rfl).2) hprovision
  | reactivateAgency expected =>
    simp only [applyChange, reactivate, bind_eq_ok, mapError_eq_ok, pure_eq_ok] at h
    obtain ⟨x, ⟨-, -, -, -, a, -, -, -, -, -, d, hupdate, d₁, hset, rfl⟩, d₂, hmembers, h⟩ := h
    obtain ⟨rfl, -⟩ := Prod.mk.inj h
    have hfirst : Stmt db.inbox b db.directory d :=
      stmt_activate hupdate htarget rfl (hdeleted (hagency rfl).2) fun hne => absurd rfl hne
    exact ((Relation.ReflTransGen.single hfirst).tail (.agency _ _ _ hset)).trans
      (invalidateMembers_stmts hmembers)
  | setRole _ | setAccess _ =>
    exact setRoleStatus_stmts htarget hdeleted (hmember rfl) hterminal h

theorem change_stmts {hash : Uuid → ChangeRequest → Digest} {input : ChangeRequest} {draw : Draw}
    (h : change hash db now input draw = .ok db') : Stmts db.inbox b db.directory db'.directory := by
  obtain rfl | ⟨a, target, role, status, -, -, htarget, -, -, hdecide, hcommit⟩ := change_ok h
  · exact .refl
  · obtain ⟨db₁, affected, access, updated, e₁, e₂, happly, -, -, -, -, rfl, -⟩ := commitChange_ok hcommit
    rw [← show target.id = input.targetUserId from lookup_key htarget] at htarget
    have hstmts := applyChange_stmts (b := b) htarget hdecide happly
    exact hstmts

/-! ## Applications and names -/

theorem review_stmts {input : ReviewApplication} {draw : Draw}
    (h : review db now input draw = .ok db') : Stmts db.inbox b db.directory db'.directory := by
  obtain rfl | ⟨a, target, application, db₁, p, hreview, hdecide, -, rfl, -⟩ := review_ok h
  · exact .refl
  rw [decideApplication] at hdecide
  split at hdecide
  · obtain ⟨db₂, current, q, access, db₃, hprovision, -, -, heffects, rfl⟩ :=
      acceptApplication_ok hdecide
    obtain ⟨current', e₁, e₂, mirrored, -, -, -, rfl⟩ := commandEffects_ok heffects
    have htarget := hreview.applicant
    rw [← show target.id = input.targetUserId from lookup_key htarget] at htarget
    have hstmts := provision_stmts (b := b) htarget hreview.undeleted hprovision
    exact hstmts
  · obtain rfl := pure_eq_ok.mp hdecide
    exact .refl

theorem rename_stmts {input : Rename} {draw : Draw} (h : rename db now input draw = .ok db') :
    Stmts i b db.directory db'.directory := by
  obtain rfl | ⟨a, target, d, db₁, names, c, -, -, -, -, hupdate, heffects, rfl⟩ := rename_ok h
  · exact .refl
  · obtain ⟨current, e₁, e₂, mirrored, -, -, -, rfl⟩ := commandEffects_ok heffects
    exact .single (stmt_update hupdate (fun _ => rfl) fun _ => .inl rfl)

/-! ## First users -/

theorem bootstrap_stmts {u : ProviderUser} {draw : Draw} (hfirst : b u.id)
    (h : bootstrap db u draw = .ok db') : Stmts i b db.directory db'.directory := by
  simp only [bootstrap, bind_eq_ok, ensure_eq_ok, mapError_eq_ok] at h
  obtain ⟨-, -, -, -, -, ⟨hempty, -⟩, -, -, d, hinsert, hcommit⟩ := h
  obtain ⟨rfl, -⟩ := commit_ok hcommit
  have hadmit : Stmt i b db.directory d :=
    .insert _ _ hinsert ⟨rfl, rfl, .inr ⟨rfl, rfl, hempty, hfirst⟩⟩
  exact (Relation.ReflTransGen.single hadmit).tail (.mark draw.user)

theorem onboard_stmts {p : Platform} {u : ProviderUser} {draw : Draw}
    (h : onboard p db now u draw = .ok db') : Stmts db.inbox b db.directory db'.directory := by
  simp only [onboard, bind_eq_ok] at h
  obtain ⟨-, -, -, -, -, -, h⟩ := h
  split at h
  · obtain rfl := pure_eq_ok.mp h
    exact .refl
  · simp only [guardSubject, bind_eq_ok, ensure_eq_ok, mapError_eq_ok, pure_eq_ok] at h
    obtain ⟨-, hdeleted, -, -, -, -, -, -, d, hinsert, rfl⟩ := h
    have hknown : db.inbox.isDeleted u.id = false := by simpa using hdeleted
    exact .single (.insert _ _ hinsert ⟨rfl, rfl, .inl ⟨rfl, rfl, hknown⟩⟩)

/-! ## Events of the provider -/

theorem ingest_stmts {e : ProviderEvent} (h : ingest db now e = .ok db') :
    Stmts i b db.directory db'.directory := by
  simp only [ingest, bind_eq_ok] at h
  obtain ⟨-, -, h⟩ := h
  split at h
  · simp only [bind_eq_ok, pure_eq_ok] at h
    obtain ⟨-, -, rfl⟩ := h
    exact .refl
  · split at h
    · have hstmts := contain_stmts (i := i) (b := b) h
      exact hstmts
    · obtain rfl := pure_eq_ok.mp h
      exact .refl

theorem refreshProfile_stmts {d d' : Directory} {subject : String} {u : ProviderUser}
    (h : d.refreshProfile subject u = .ok d') : Stmts i b d d' := by
  rw [Directory.refreshProfile] at h
  split at h
  · obtain rfl := pure_eq_ok.mp h
    exact .refl
  · exact .single (stmt_update h (fun _ => rfl) fun _ => .inl rfl)

theorem applyEvent_stmts {c : InboxClaim} {answer : Except ApiError ProviderUser}
    (h : applyEvent db now c answer = .ok db') : Stmts i b db.directory db'.directory := by
  simp only [applyEvent, bind_eq_ok, pure_eq_ok] at h
  obtain ⟨r, -, -, -, x, hobserved, rfl⟩ := h
  rw [applyObserved.eq_def] at hobserved
  split at hobserved
  · obtain rfl := pure_eq_ok.mp hobserved
    exact .refl
  · obtain ⟨db₁, hprofile, hresult⟩ := bind_eq_ok.mp hobserved
    obtain rfl := pure_eq_ok.mp hresult
    rw [applyProfile] at hprofile
    split at hprofile
    · obtain rfl := pure_eq_ok.mp hprofile
      exact .refl
    · simp only [bind_eq_ok, mapError_eq_ok, pure_eq_ok] at hprofile
      obtain ⟨d, hrefresh, rfl⟩ := hprofile
      exact refreshProfile_stmts hrefresh
  · split at hobserved
    · obtain ⟨db₁, hcontain, hresult⟩ := bind_eq_ok.mp hobserved
      obtain rfl := pure_eq_ok.mp hresult
      have hstmts := contain_stmts (i := i) (b := b) hcontain
      exact hstmts
    · obtain rfl := pure_eq_ok.mp hobserved
      exact .refl

/-! ## The whole system -/

/-- An open reservation for an agency is one for a sub-user. -/
structure Db.Scoped (db : Db) : Prop where
  creates : ∀ r ∈ db.creates.rows, r.agencyId.isSome → r.role = .b2bSub
  invitations : ∀ r ∈ db.invitations.rows, r.agencyId.isSome → r.role = .b2bSub

/-- The events that deny an identity for good. -/
def Event.denies : Event → Bool
  | .request (.prepareDeletion ..) _ | .request (.finalizeDeletion ..) _ => true
  | _ => false

/-- The subject the event makes the first superadmin. -/
def Event.first (ev : Event) (subject : String) : Prop :=
  ∃ u draw now, ev = .request (.bootstrap u draw) now ∧ u.id = subject

theorem request_stmts {r : Request} (hvalid : db.directory.Valid) (hscoped : db.Scoped)
    (hdenies : (Event.request r now).denies = false) (h : r.run desk db now = .ok db') :
    Stmts db.inbox (Event.request r now).first db.directory db'.directory := by
  cases r with
  | bootstrap u draw => exact bootstrap_stmts ⟨u, draw, now, rfl, rfl⟩ h
  | onboard u draw => exact onboard_stmts h
  | change input draw => exact change_stmts h
  | finalizeCreate subject id clerk verified draw =>
    obtain rfl | ⟨r, a, db₁, hr, -, -, -, -, hcommit, rfl, -⟩ := finalizeCreate_ok h
    · exact .refl
    · have hstmts := provisioningCommit_stmts
        (b := (Event.request (.finalizeCreate subject id clerk verified draw) now).first) hvalid
        (hscoped.creates r (lookup_mem hr)) hcommit
      exact hstmts
  | prepareDeletion input => cases hdenies
  | finalizeDeletion subject id => cases hdenies
  | ingest e => exact ingest_stmts h
  | review input draw => exact review_stmts h
  | rename input draw => exact rename_stmts h
  | _ => rw [(request_frame h).directory (by simp [Request.writes])]

variable {s s' : System}

theorem step_stmts {ev : Event} (hvalid : s.db.directory.Valid) (hscoped : s.db.Scoped)
    (hdenies : ev.denies = false) (h : s.step desk ev = .ok s') :
    Stmts s.db.inbox ev.first s.db.directory s'.db.directory := by
  cases ev with
  | request r now =>
    obtain ⟨db, hrun, hs⟩ := bind_eq_ok.mp h
    obtain rfl := pure_eq_ok.mp hs
    exact request_stmts hvalid hscoped hdenies hrun
  | accept o result draw now =>
    simp only [System.step, bind_eq_ok, pure_eq_ok] at h
    obtain ⟨-, -, db, haccept, rfl⟩ := h
    obtain rfl | ⟨r, u, db₁, hr, -, -, hcommit, -, rfl, -⟩ := accept_ok haccept
    · exact .refl
    · have hstmts := provisioningCommit_stmts (b := (Event.accept o result draw now).first) hvalid
        (hscoped.invitations r (lookup_mem hr)) hcommit
      exact hstmts
  | applyEvent c answer now =>
    simp only [System.step, bind_eq_ok, pure_eq_ok] at h
    obtain ⟨-, -, db, happly, rfl⟩ := h
    exact applyEvent_stmts happly
  | _ => rw [(step_frame h).db.directory (by simp [Event.writes])]

/-! ## The user that is added -/

/-- An update of the user that was added last. -/
theorem updateUser_last {users : List User} {last : User} {f : User → User}
    (hnew : ∀ u ∈ users, u.id ≠ last.id) (hd : d.users = users ++ [last])
    (h : d.updateUser last.id f = .ok d') :
    ∃ row, Guarded last (f last) row ∧ d'.users = users ++ [row] := by
  have hlast : d.user last.id = some last := by
    rw [Directory.user, hd, lookup_concat, lookup_eq_none.mpr hnew]
    simp
  obtain ⟨hnone, -⟩ | ⟨old, row, hold, hguard, rfl⟩ := updateUser_ok h
  · rw [hlast] at hnone
    cases hnone
  · obtain rfl := Option.some.inj (hold.symm.trans hlast)
    refine ⟨row, hguard, ?_⟩
    show Library.modify User.id old.id (fun _ => row) d.users = _
    rw [hd, Library.modify, List.map_append]
    have hsame : Library.modify User.id old.id (fun _ => row) users = users := modify_of_absent hnew
    rw [show users.map _ = users from hsame]
    simp

/-- The new member is the user that was added last. -/
theorem insertMembership_last {users : List User} {last : User} {m : Membership}
    (h : d.insertMembership m = .ok d') (hm : m.userId = last.id) (hnew : ∀ u ∈ users, u.id ≠ last.id)
    (hd : d.users = users ++ [last]) : ∃ row : User, row.id = last.id ∧ row.subject = last.subject ∧
      row.role = last.role ∧ row.status = last.status ∧ d'.users = users ++ [row] ∧
      d'.memberships = d.memberships ++ [m] ∧ d'.agencies = d.agencies := by
  obtain ⟨-, -, -, d₁, hupdate, rfl⟩ := insertMembership_ok h
  rw [hm] at hupdate
  obtain ⟨row, hguard, husers⟩ := updateUser_last hnew hd hupdate
  exact ⟨row, hguard.row_id, hguard.row_subject, hguard.row_role, hguard.row_status, husers, rfl,
    (updateUser_frame hupdate).1⟩

/-- Provisioning adds one user, with the role and the agency of the grant. -/
theorem provisioningCommit_adds {u : ProviderUser} {grant : Grant} {draw : Draw}
    (hagency : grant.agencyId.isSome → grant.role = .b2bSub)
    (h : provisioningCommit db now u grant draw = .ok db') :
    ∃ user : User, db'.directory.users = db.directory.users ++ [user] ∧ user.id = grant.userId ∧
      user.subject = u.id ∧ user.role = grant.role ∧
      ∀ agency, grant.agencyId = some agency →
        db'.directory.memberships = db.directory.memberships ++ [⟨grant.userId, agency, .sub⟩] := by
  obtain ⟨-, hnew, db₁, target, e₁, e₂, m, hgrant, -, -, -, rfl⟩ := provisioningCommit_ok h
  let last := newUser grant.userId u .customer .onboarding
  have hids : ∀ u' ∈ db.directory.users, u'.id ≠ last.id := fun u' hu' => (hnew u' hu').2
  rw [grantRole] at hgrant
  split at hgrant
  · rename_i hrole
    obtain ⟨target, htarget, hprovision⟩ := bind_eq_ok.mp hgrant
    simp only [provision, bind_eq_ok, mapError_eq_ok, pure_eq_ok] at hprovision
    obtain ⟨-, -, -, -, -, -, code, -, d, hprovision, b, -, rfl⟩ := hprovision
    simp only [Directory.provision, bind_eq_ok] at hprovision
    obtain ⟨d₁, hupdate, d₂, hinsert, hmembership⟩ := hprovision
    have hid : target.id = last.id := by
      simp only [user, fetch_eq_ok] at htarget
      exact lookup_key htarget
    rw [hid] at hupdate hmembership
    obtain ⟨row, hguard, husers⟩ := updateUser_last hids rfl hupdate
    obtain ⟨-, -, -, rfl⟩ := insertAgency_ok hinsert
    have hrid : row.id = last.id := hguard.row_id
    obtain ⟨row', hid', hsubject', hrole', -, husers', -⟩ :=
      insertMembership_last hmembership hrid.symm (fun u' hu' => hrid ▸ hids u' hu') husers
    refine ⟨row', husers', hid'.trans hrid, hsubject'.trans hguard.row_subject,
      hrole'.trans (hguard.row_role.trans hrole.symm), fun agency hsome => ?_⟩
    rw [hagency (by rw [hsome]; rfl)] at hrole
    cases hrole
  split at hgrant
  · simp only [bind_eq_ok, mapError_eq_ok] at hgrant
    obtain ⟨d, hupdate, hgrant⟩ := hgrant
    obtain ⟨row, hguard, husers⟩ := updateUser_last hids rfl hupdate
    have hrid : row.id = last.id := hguard.row_id
    split at hgrant
    · rename_i hnone
      obtain rfl := pure_eq_ok.mp hgrant
      refine ⟨row, husers, hrid, hguard.row_subject, hguard.row_role, fun agency hsome => ?_⟩
      rw [hnone] at hsome
      cases hsome
    · rename_i agency hsome
      simp only [bind_eq_ok, mapError_eq_ok, pure_eq_ok] at hgrant
      obtain ⟨d₁, hmembership, rfl⟩ := hgrant
      obtain ⟨row', hid', hsubject', hrole', -, husers', hmembers, -⟩ :=
        insertMembership_last hmembership hrid.symm (fun u' hu' => hrid ▸ hids u' hu') husers
      refine ⟨row', husers', hid'.trans hrid, hsubject'.trans hguard.row_subject,
        hrole'.trans hguard.row_role, fun agency' hsome' => ?_⟩
      obtain rfl := Option.some.inj (hsome.symm.trans hsome')
      rw [show d.memberships = db.directory.memberships from (updateUser_frame hupdate).2.1] at hmembers
      exact hmembers
  · rename_i hnot hcustomer
    obtain rfl := pure_eq_ok.mp hgrant
    refine ⟨last, rfl, rfl, rfl, ?_, fun agency hsome => ?_⟩
    · exact (not_not.mp hcustomer).symm
    · rw [hagency (by rw [hsome]; rfl)] at hcustomer
      exact absurd (by decide) hcustomer

end ShaponTravels.Identity
