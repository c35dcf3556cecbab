import ShaponTravels.Identity.Members

/-!
# Deeds — what one event does to users, agencies and memberships, and who does it

One case for each workflow that writes the directory, with the checks it has passed; the invariants of
the directory are case analyses of it.
-/

namespace ShaponTravels.Identity

open Library

/-! ## Who acts -/

/-- An active identity acts on somebody else who is not on the way out. -/
structure Directory.Acts (d : Directory) (a target : User) : Prop where
  actor : a ∈ d.users
  active : a.status = .active
  other : a.id ≠ target.id
  found : d.user target.id = some target
  standing : target.status.terminal = false

/-- An active identity grants a role: its own role permits it, or it owns the active agency the sub-user
joins. -/
structure Directory.Grants (d : Directory) (a : User) (role : Role) (agency : Option Uuid) : Prop where
  actor : a ∈ d.users
  active : a.status = .active
  permitted : a.role.canGrant role ∨ a.role = .b2b ∧ role = .b2bSub ∧
    ∃ x ∈ d.agencies, some x.id = agency ∧ x.ownerUserId = a.id ∧ x.status = .active

/-! ## What is done -/

/-- The agency of an owner who is suspended is suspended as well; of anybody else nothing changes. -/
def Directory.Suspends (d : Directory) (target : User) (status : Status) (d' : Directory) : Prop :=
  (target.role = .b2b → status = .suspended →
      ∀ x, d.ownedAgency target.id = some x → x.status = .archived) ∧ d' = d ∨
    target.role = .b2b ∧ status = .suspended ∧ ∃ x d₁, d.ownedAgency target.id = some x ∧
      x.status ≠ .archived ∧ d.setAgency x.id .suspended = .ok d₁ ∧ d₁.invalidateMembers x.id = .ok d'

/-- The role and the membership of a new user. -/
inductive Directory.Admits (d : Directory) (id : Uuid) : Role → Option Uuid → Directory → Prop where
  | owner (agency : Option Uuid) (x : Uuid) (code : String) (d' : Directory)
      (h : d.provision id x code = .ok d') : d.Admits id .b2b agency d'
  | customer (agency : Option Uuid) : d.Admits id .customer agency d
  | staff (role : Role) (d' : Directory) (hrole : role ≠ .b2b ∧ role ≠ .customer)
      (h : d.updateUser id (fun u => { u with role := role, status := .active }) = .ok d') :
      d.Admits id role none d'
  | member (role : Role) (x : Uuid) (d₁ d' : Directory) (hrole : role ≠ .b2b ∧ role ≠ .customer)
      (h : d.updateUser id (fun u => { u with role := role, status := .active }) = .ok d₁)
      (hmember : d₁.insertMembership ⟨id, x, .sub⟩ = .ok d') : d.Admits id role (some x) d'

/-- The events that contain an identity the provider no longer has. -/
def Event.contains : Event → Bool
  | .request (.ingest _) _ | .applyEvent .. => true
  | _ => false

/-- The one event that has no identity before it. -/
def Event.bootstraps : Event → Bool
  | .request (.bootstrap ..) _ => true
  | _ => false

/-- The event in which a subject becomes a customer by itself. -/
def Event.onboards (ev : Event) (subject : String) : Prop :=
  match ev with
  | .request (.onboard u _) _ => u.id = subject
  | _ => False

/-- The identity in whose name an event changes others: the actor of the request, or the issuer of the
invitation that is accepted. -/
def Event.by (ev : Event) (i : Invitations) (a : User) : Prop :=
  match ev with
  | .request (.change input _) _ => a.subject = input.clerkUserId
  | .request (.review input _) _ => a.subject = input.clerkUserId
  | .request (.finalizeCreate subject ..) _ => a.subject = subject
  | .request (.prepareDeletion input) _ => a.subject = input.clerkUserId
  | .request (.finalizeDeletion subject _) _ => a.subject = subject
  | .accept o .. => ∃ r ∈ i.rows, r.id = o.id ∧ r.issuerUserId = a.id
  | _ => False

/-- Every sub-user of the agency is deleted. -/
def Directory.Deserted (d : Directory) (agency : Option Uuid) : Prop :=
  ∀ m ∈ d.memberships, some m.agencyId = agency → m.kind = .sub →
    ∀ u ∈ d.users, u.id = m.userId → u.status = .deleted

/-- What an event does to the directory. -/
inductive Deed (d : Directory) (x : Deletions) (i : Invitations) (ev : Event) : Directory → Prop where
  | rest : Deed d x i ev d
  | rename (id : Uuid) (f : User → User) (d' : Directory) (h : d.updateUser id f = .ok d')
      (hsame : ∀ u, (f u).role = u.role ∧ (f u).status = u.status ∧
        (f u).authorizationVersion = u.authorizationVersion) : Deed d x i ev d'
  | bootstrap (u : User) (hempty : d.users = []) (hu : u.role = .superadmin ∧ u.status = .active)
      (hev : ev.bootstraps) : Deed d x i ev { d with users := [u], bootstrap := some u.id }
  | onboard (u : User) (d' : Directory) (hev : ev.onboards u.subject)
      (hu : u.role = .customer ∧ u.status = .onboarding) (h : d.insertUser u = .ok d') : Deed d x i ev d'
  | assign (a target : User) (role : Role) (status : Status) (d₁ d' : Directory)
      (hby : ev.by i a) (hacts : d.Acts a target) (hchange : ¬ (role = target.role ∧ status = target.status))
      (hrole : role ≠ target.role → a.role.canGrant role ∧ d.isMember target.id = false ∧
        role.requiresAgency = false)
      (hstatus : status = target.status ∨ status = .active ∨ status = .suspended)
      (husable : status = .active → role.requiresAgency → d.usable target.id)
      (hlast : guardLastSuperadmin d target.id role status = .ok ())
      (h : d.updateUser target.id (fun u => { u with role := role, status := status }) = .ok d₁)
      (hagency : d₁.Suspends target status d') : Deed d x i ev d'
  | reactivate (a target : User) (y : Agency) (d₁ d₂ d' : Directory) (hby : ev.by i a) (hacts : d.Acts a target)
      (hrole : target.role = .b2b) (hstatus : target.status = .suspended)
      (hagency : d.ownedAgency target.id = some y) (hsuspended : y.status = .suspended)
      (h : d.updateUser target.id (fun u => { u with status := .active }) = .ok d₁)
      (hset : d₁.setAgency y.id .active = .ok d₂) (hmembers : d₂.invalidateMembers y.id = .ok d') :
      Deed d x i ev d'
  | provision (a target : User) (y : Uuid) (code : String) (d' : Directory)
      (hby : ev.by i a) (hacts : d.Acts a target) (hgrants : a.role.canGrant .b2b) (hcustomer : target.role = .customer)
      (hmember : d.isMember target.id = false)
      (howner : ∀ z ∈ d.agencies, z.ownerUserId ≠ target.id)
      (h : d.provision target.id y code = .ok d') : Deed d x i ev d'
  | enrol (a u : User) (role : Role) (agency : Option Uuid) (d' : Directory)
      (hby : ev.by i a) (hgrants : d.Grants a role agency)
      (hnew : ∀ u' ∈ d.users, u'.subject ≠ u.subject ∧ u'.id ≠ u.id)
      (hu : u.role = .customer ∧ u.status = .onboarding)
      (h : Directory.Admits { d with users := d.users ++ [u] } u.id role agency d') :
      Deed d x i ev d'
  | contain (u : User) (d₁ d' : Directory) (hu : d.user u.id = some u) (hev : ev.contains)
      (h : d.suspendUser u.id = .ok d₁) (hagency : d₁.suspendOwned u.id = .ok d') : Deed d x i ev d'
  | deny (a target : User) (d₁ d' : Directory) (hby : ev.by i a) (hacts : d.Acts a target)
      (hlive : d.Deserted ((d.ownedAgency target.id).map Agency.id))
      (hlast : target.role = .superadmin → target.status = .active →
        1 < d.users.countP fun u => u.role = .superadmin ∧ u.status = .active)
      (h : d.updateUser target.id (fun u => { u with status := .deleting }) = .ok d₁)
      (hagency : d₁.suspendAgency ((d.ownedAgency target.id).map Agency.id) = .ok d') :
      Deed d x i ev d'
  | erase (a target : User) (r : Deletion) (d₁ d' : Directory) (hr : r ∈ x.rows)
      (hconfirmed : r.state = .providerConfirmed) (hid : target.id = r.targetUserId)
      (hby : ev.by i a) (hactor : a ∈ d.users ∧ a.status = .active ∧ a.id ≠ target.id)
      (htarget : d.user target.id = some target) (hstatus : target.status = .deleting)
      (hlive : d.Deserted r.agencyId)
      (h : d.updateUser target.id (fun u => { u with status := .deleted }) = .ok d₁)
      (hagency : d₁.archiveAgency r.agencyId = .ok d') : Deed d x i ev d'

/-! ## The checks behind a deed -/

variable {desk : Desk} {db db' : Db} {x : Deletions} {i : Invitations} {ev : Event} {now : Int}

/-- The actor of a request is active. -/
theorem actor_ok {subject : String} {a : User} (h : actor db subject = .ok a) :
    a ∈ db.directory.users ∧ a.subject = subject ∧ a.status = .active ∧
      db.inbox.isDeleted a.subject = false := by
  simp only [actor, guardSubject, bind_eq_ok, ensure_eq_ok, fetch_eq_ok, pure_eq_ok] at h
  obtain ⟨u, hu, -, hdeleted, -, hactive, rfl⟩ := h
  have hsubject : u.subject = subject := lookup_key hu
  exact ⟨lookup_mem hu, hsubject, hactive, by simpa [hsubject] using hdeleted⟩

theorem phase5Actor_mem {subject : String} {a : User} (h : phase5Actor db subject = .ok a) :
    a ∈ db.directory.users ∧ a.subject = subject := by
  simp only [phase5Actor, bind_eq_ok, fetch_eq_ok] at h
  obtain ⟨-, -, -, -, u, hu, -, -, -, -, h⟩ := h
  have hua : u = a := by
    split at h
    · obtain ⟨-, -, h⟩ := bind_eq_ok.mp h
      exact pure_eq_ok.mp h
    · exact pure_eq_ok.mp h
  exact hua ▸ ⟨lookup_mem hu, lookup_key hu⟩

/-- Whoever is in scope of a change acts on somebody else. -/
theorem scope_acts {a target : User} (ha : a ∈ db.directory.users)
    (htarget : db.directory.user target.id = some target) (h : scope db a target = .ok ()) :
    db.directory.Acts a target := by
  rw [scope] at h
  split at h
  · simp only [authorizeManagement, bind_eq_ok, ensure_eq_ok] at h
    obtain ⟨-, ⟨hactive, -⟩, -, hother, -, -, -, -, hstanding⟩ := h
    exact ⟨ha, hactive, hother, htarget, by simpa using hstanding⟩
  · simp only [authorizeSubUser, ensure_eq_ok] at h
    obtain ⟨hactive, -, hother, -, hstanding, -⟩ := h
    exact ⟨ha, hactive, hother, htarget, by simpa using hstanding⟩

theorem manages_grants {r : Role} (h : r.managesUsers) : r.canGrant .b2b := by
  cases r <;> first | rfl | cases h

theorem authorizeDeletion_ok {subject : String} {id : Uuid} {a : User}
    (h : authorizeDeletion db subject id = .ok a) :
    a.subject = subject ∧ a ∈ db.directory.users ∧ a.status = .active ∧ a.id ≠ id := by
  simp only [authorizeDeletion, deletionScope, user, bind_eq_ok, ensure_eq_ok, fetch_eq_ok, pure_eq_ok] at h
  obtain ⟨u, hu, target, htarget, -, ⟨-, hother, -, hactive, -⟩, rfl⟩ := h
  have hid : target.id = id := lookup_key htarget
  obtain ⟨hmem, hsubject, -⟩ := actor_ok hu
  exact ⟨hsubject, hmem, hactive, hid ▸ hother⟩

/-- What an issuer shows again when its invitation is accepted. -/
theorem checkIssuer_grants {r : Invitation} (h : checkIssuer db r = .ok ()) :
    ∃ a, db.directory.Grants a r.role r.agencyId ∧ a.id = r.issuerUserId := by
  simp only [checkIssuer, user, permitted, bind_eq_ok, ensure_eq_ok, fetch_eq_ok] at h
  obtain ⟨a, ha, -, hactive, h⟩ := h
  refine ⟨a, ⟨lookup_mem ha, hactive, ?_⟩, lookup_key ha⟩
  split at h
  · exact .inl (ensure_eq_ok.mp h)
  · simp only [bind_eq_ok, ensure_eq_ok] at h
    obtain ⟨-, ⟨howner, hsub⟩, hagency⟩ := h
    obtain ⟨x, hx, hfacts⟩ := List.any_eq_true.mp hagency
    exact .inr ⟨howner, hsub, x, hx, by simpa using hfacts⟩

/-! ## Every event is a deed -/

/-- The rows of a grant. -/
theorem grantRole_admits {grant : Grant} {draw : Draw} (h : grantRole db grant draw = .ok db') :
    db.directory.Admits grant.userId grant.role grant.agencyId db'.directory := by
  rw [grantRole] at h
  split at h
  · rename_i hrole
    obtain ⟨target, htarget, hprovision⟩ := bind_eq_ok.mp h
    simp only [provision, bind_eq_ok, mapError_eq_ok, pure_eq_ok] at hprovision
    obtain ⟨-, -, -, -, -, -, code, -, d, hprovision, b, -, rfl⟩ := hprovision
    rw [user, fetch_eq_ok] at htarget
    rw [lookup_key htarget] at hprovision
    rw [hrole]
    exact .owner _ _ _ _ hprovision
  rename_i howner
  split at h
  · rename_i hcustomer
    simp only [bind_eq_ok, mapError_eq_ok] at h
    obtain ⟨d, hupdate, h⟩ := h
    split at h
    · rename_i hnone
      obtain rfl := pure_eq_ok.mp h
      rw [hnone]
      exact .staff _ _ ⟨howner, hcustomer⟩ hupdate
    · rename_i x hsome
      simp only [bind_eq_ok, mapError_eq_ok, pure_eq_ok] at h
      obtain ⟨d', hmember, rfl⟩ := h
      rw [hsome]
      exact .member _ _ _ _ ⟨howner, hcustomer⟩ hupdate hmember
  · rename_i hcustomer
    obtain rfl := pure_eq_ok.mp h
    rw [not_not.mp hcustomer]
    exact .customer _

theorem provisioningCommit_deed {u : ProviderUser} {grant : Grant} {draw : Draw} {a : User} (hby : ev.by i a)
    (hgrants : db.directory.Grants a grant.role grant.agencyId)
    (h : provisioningCommit db now u grant draw = .ok db') : Deed db.directory x i ev db'.directory := by
  obtain ⟨-, hnew, db₁, target, e₁, e₂, m, hgrant, -, -, -, rfl⟩ := provisioningCommit_ok h
  have hadmits := grantRole_admits hgrant
  exact .enrol a (newUser grant.userId u .customer .onboarding) grant.role grant.agencyId _ hby hgrants hnew
    ⟨rfl, rfl⟩ hadmits

theorem provision_deed {a target : User} {draw : Draw} (hby : ev.by i a) (hacts : db.directory.Acts a target)
    (hgrants : a.role.canGrant .b2b) (h : provision db target draw = .ok db') : Deed db.directory x i ev db'.directory := by
  simp only [provision, bind_eq_ok, ensure_eq_ok, mapError_eq_ok, pure_eq_ok] at h
  obtain ⟨-, hnone, -, ⟨hcustomer, -⟩, -, -, code, -, d, hprovision, b, -, rfl⟩ := h
  simp only [not_or, List.any_eq_true, decide_eq_true_eq, not_exists, not_and] at hnone
  exact .provision a target _ code _ hby hacts hgrants hcustomer (isMember_eq_false.mpr hnone.1) hnone.2 hprovision

/-- The writes of a change of role or access. -/
theorem setRoleStatus_suspends {target : User} {role : Role} {status : Status} {affected : List Uuid}
    (h : setRoleStatus db target role status = .ok (db', affected)) :
    ∃ d₁, db.directory.updateUser target.id (fun u => { u with role := role, status := status }) = .ok d₁ ∧
      d₁.Suspends target status db'.directory := by
  simp only [setRoleStatus, bind_eq_ok, mapError_eq_ok] at h
  obtain ⟨d₁, hupdate, h⟩ := h
  refine ⟨d₁, hupdate, ?_⟩
  split at h
  · rename_i hnone
    obtain ⟨rfl, -⟩ := Prod.mk.inj (pure_eq_ok.mp h)
    refine .inl ⟨fun hrole hstatus x hx => ?_, rfl⟩
    rw [if_pos ⟨hrole, hstatus⟩, hx] at hnone
    simpa using hnone
  · rename_i x hsome
    simp only [bind_eq_ok, mapError_eq_ok, pure_eq_ok] at h
    obtain ⟨d₂, hset, d₃, hmembers, h⟩ := h
    obtain ⟨rfl, -⟩ := Prod.mk.inj h
    split at hsome
    · rename_i hboth
      obtain ⟨hx, hlive⟩ := Option.filter_eq_some_iff.mp hsome
      exact .inr ⟨hboth.1, hboth.2, x, d₂, hx, by simpa using hlive, hset, hmembers⟩
    · cases hsome

theorem change_deed {hash : Uuid → ChangeRequest → Digest} {input : ChangeRequest} {draw : Draw}
    (h : change hash db now input draw = .ok db') :
    Deed db.directory x i (.request (.change input draw) now) db'.directory := by
  obtain rfl | ⟨a, target, role, status, -, ha, htarget, hscope, -, hdecide, hcommit⟩ := change_ok h
  · exact .rest
  obtain ⟨db₁, affected, access, updated, e₁, e₂, happly, -, -, -, -, rfl, -⟩ := commitChange_ok hcommit
  rw [← show target.id = input.targetUserId from lookup_key htarget] at htarget
  obtain ⟨hactor, hby, -⟩ := actor_ok ha
  have hacts := scope_acts hactor htarget hscope
  obtain ⟨-, -, hrequested, hchange, husable, -, hlast⟩ := decideChange_ok hdecide
  generalize input.change = c at *
  cases c with
  | provisionAgency =>
    obtain ⟨db₂, hprovision, h⟩ := bind_eq_ok.mp happly
    obtain ⟨rfl, -⟩ := Prod.mk.inj (pure_eq_ok.mp h)
    simp only [requested, bind_eq_ok, ensure_eq_ok] at hrequested
    obtain ⟨-, hmanages, -⟩ := hrequested
    have hdeed := provision_deed (x := x) (i := i)
      (show (Event.request (.change input draw) now).by i _ from hby) hacts
      (manages_grants hmanages) hprovision
    exact hdeed
  | reactivateAgency expected =>
    simp only [applyChange, reactivate, bind_eq_ok, ensure_eq_ok, fetch_eq_ok, mapError_eq_ok,
      pure_eq_ok] at happly
    obtain ⟨x, ⟨-, -, -, ⟨hrole, hstatus⟩, y, hy, -, -, -, hsuspended, d, hupdate, d₁, hset, rfl⟩, d₂,
      hmembers, h⟩ := happly
    obtain ⟨rfl, -⟩ := Prod.mk.inj h
    obtain ⟨hy, -⟩ := Option.filter_eq_some_iff.mp hy
    have hdeed : Deed db.directory x i (.request (.change input draw) now) d₂ :=
      .reactivate a target y d d₁ d₂ hby hacts hrole hstatus hy hsuspended hupdate hset hmembers
    exact hdeed
  | setRole role' =>
    obtain ⟨d₁, hupdate, hsuspends⟩ := setRoleStatus_suspends happly
    simp only [requested, bind_eq_ok, ensure_eq_ok] at hrequested
    obtain ⟨-, hgrant, hrequested⟩ := hrequested
    -- a role that stays is refused as no change, so the one that is set differs
    have hdeed : Deed db.directory x i (.request (.change input draw) now) db₁.directory := by
      split at hrequested
      · simp only [bind_eq_ok, ensure_eq_ok, pure_eq_ok] at hrequested
        obtain ⟨-, hmember, -, hagency, hrequested⟩ := hrequested
        obtain ⟨rfl, rfl⟩ := Prod.mk.inj hrequested
        exact .assign a target _ _ d₁ _ hby hacts hchange
          (fun _ => ⟨hgrant, by simpa using hmember, by simpa using hagency⟩) (.inl rfl)
          (fun hactive hneeds => husable hactive hneeds rfl) hlast hupdate hsuspends
      · rename_i hsame
        obtain ⟨rfl, rfl⟩ := Prod.mk.inj (pure_eq_ok.mp hrequested)
        exact absurd ⟨not_not.mp hsame, rfl⟩ hchange
    exact hdeed
  | setAccess active =>
    obtain ⟨d₁, hupdate, hsuspends⟩ := setRoleStatus_suspends happly
    obtain ⟨rfl, rfl⟩ := Prod.mk.inj (pure_eq_ok.mp hrequested)
    have hstatus : (if active then Status.active else .suspended) = .active ∨
        (if active then Status.active else .suspended) = .suspended := by
      cases active <;> decide
    have hdeed : Deed db.directory x i (.request (.change input draw) now) db₁.directory :=
      .assign a target _ _ d₁ _ hby hacts hchange (fun hne => absurd rfl hne) (.inr hstatus)
        (fun hactive hneeds => husable hactive hneeds rfl) hlast hupdate hsuspends
    exact hdeed

theorem review_deed {input : ReviewApplication} {draw : Draw} (h : review db now input draw = .ok db') :
    Deed db.directory x i (.request (.review input draw) now) db'.directory := by
  obtain rfl | ⟨a, target, application, db₁, p, hreview, hdecide, -, rfl, -⟩ := review_ok h
  · exact .rest
  rw [decideApplication] at hdecide
  split at hdecide
  · obtain ⟨db₂, current, q, access, db₃, hprovision, -, -, heffects, rfl⟩ := acceptApplication_ok hdecide
    obtain ⟨current', e₁, e₂, mirrored, -, -, -, rfl⟩ := commandEffects_ok heffects
    have hid : target.id = input.targetUserId := lookup_key hreview.applicant
    have hstanding : target.status.terminal = false := by
      rcases hreview.status with hstatus | hstatus <;> rw [hstatus] <;> rfl
    obtain ⟨hactor, hby⟩ := phase5Actor_mem hreview.reviewer
    have hacts : db.directory.Acts a target := ⟨hactor, hreview.active,
      hid ▸ hreview.other, hid ▸ hreview.applicant, hstanding⟩
    have hdeed := provision_deed (x := x) (i := i)
      (show (Event.request (.review input draw) now).by i _ from hby) hacts
      hreview.grants hprovision
    exact hdeed
  · obtain rfl := pure_eq_ok.mp hdecide
    exact .rest

theorem contain_deed {subject : String} (hev : ev.contains) (hvalid : db.directory.Valid)
    (h : contain db subject = .ok db') : Deed db.directory x i ev db'.directory := by
  rw [contain] at h
  split at h
  · obtain rfl := pure_eq_ok.mp h
    exact .rest
  · rename_i u hu
    simp only [bind_eq_ok, mapError_eq_ok] at h
    obtain ⟨d₁, huser, d₂, howned, hrevoke⟩ := h
    obtain ⟨access, rfl⟩ := revokeClients_frame hrevoke
    exact .contain u d₁ d₂ (hvalid.ids.lookup (lookup_mem hu)) hev huser howned

theorem ingest_deed {e : ProviderEvent} (hev : ev.contains) (hvalid : db.directory.Valid)
    (h : ingest db now e = .ok db') : Deed db.directory x i ev db'.directory := by
  simp only [ingest, bind_eq_ok] at h
  obtain ⟨-, -, h⟩ := h
  split at h
  · simp only [bind_eq_ok, pure_eq_ok] at h
    obtain ⟨-, -, rfl⟩ := h
    exact .rest
  · split at h
    · have hdeed := contain_deed (x := x) (i := i) hev (by exact hvalid) h
      exact hdeed
    · obtain rfl := pure_eq_ok.mp h
      exact .rest

theorem applyEvent_deed {c : InboxClaim} {answer : Except ApiError ProviderUser} (hev : ev.contains)
    (hvalid : db.directory.Valid) (h : applyEvent db now c answer = .ok db') :
    Deed db.directory x i ev db'.directory := by
  simp only [applyEvent, bind_eq_ok, pure_eq_ok] at h
  obtain ⟨r, -, -, -, y, hobserved, rfl⟩ := h
  rw [applyObserved.eq_def] at hobserved
  split at hobserved
  · obtain rfl := pure_eq_ok.mp hobserved
    exact .rest
  · obtain ⟨db₁, hprofile, hresult⟩ := bind_eq_ok.mp hobserved
    obtain rfl := pure_eq_ok.mp hresult
    rw [applyProfile] at hprofile
    split at hprofile
    · obtain rfl := pure_eq_ok.mp hprofile
      exact .rest
    · simp only [bind_eq_ok, mapError_eq_ok, pure_eq_ok] at hprofile
      obtain ⟨d, hrefresh, rfl⟩ := hprofile
      rw [Directory.refreshProfile] at hrefresh
      split at hrefresh
      · obtain rfl := pure_eq_ok.mp hrefresh
        exact .rest
      · have hdeed : Deed db.directory x i ev d := .rename _ _ d hrefresh fun _ => ⟨rfl, rfl, rfl⟩
        exact hdeed
  · split at hobserved
    · obtain ⟨db₁, hcontain, hresult⟩ := bind_eq_ok.mp hobserved
      obtain rfl := pure_eq_ok.mp hresult
      have hdeed := contain_deed (x := x) (i := i) hev hvalid hcontain
      exact hdeed
    · obtain rfl := pure_eq_ok.mp hobserved
      exact .rest

theorem liveMembers_deserted {agency : Option Uuid} (h : liveMembers db agency = false) :
    db.directory.Deserted agency := by
  intro m hm hagency hsub u hu huser
  by_contra hlive
  have hthere : liveMembers db agency = true := by
    simp only [liveMembers, List.any_eq_true, decide_eq_true_eq]
    exact ⟨m, hm, hagency, hsub, u, hu, huser, hlive⟩
  rw [h] at hthere
  cases hthere

/-- Nothing stands for the target, so nobody is left in the agency. -/
theorem dependencies_deserted {target : User} {agency : Option Uuid} (h : dependencies db target agency = []) :
    db.directory.Deserted agency := by
  refine liveMembers_deserted ?_
  by_contra hlive
  rw [Bool.not_eq_false] at hlive
  rw [dependencies] at h
  simp [hlive] at h

theorem prepareDeletion_deed {review : Review} {input : PrepareDeletion}
    (h : prepareDeletion review db now input = .ok db') :
    Deed db.directory x i (.request (.prepareDeletion input) now) db'.directory := by
  obtain rfl | ⟨a, target, ha, -, -, -, -, -, htarget, -, hblockers, hcommit⟩ := prepareDeletion_ok h
  · exact .rest
  obtain ⟨d₁, d₂, access, hupdate, hsuspend, -, rfl, -⟩ := commitDeletion_ok hcommit
  have hid : target.id = input.targetUserId := lookup_key htarget
  rw [← hid] at htarget ha
  obtain ⟨hby, hactor, hactive, hother⟩ := authorizeDeletion_ok ha
  simp only [previewBlockers, List.append_eq_nil_iff, ite_eq_right_iff, List.cons_ne_nil, imp_false] at hblockers
  obtain ⟨⟨hclear, hstanding⟩, hlast⟩ := hblockers
  refine .deny a target d₁ _ hby ⟨hactor, hactive, hother, htarget, by simpa using hstanding⟩
    (dependencies_deserted hclear) (fun hrole hstatus => ?_) hupdate hsuspend
  by_contra hfew
  exact hlast ⟨hrole, hstatus, by omega⟩

theorem finalizeDeletion_deed {subject : String} {id : Uuid} {y : Settled Unit}
    (h : finalizeDeletion db subject id = .ok y) :
    Deed db.directory db.deletions i (.request (.finalizeDeletion subject id) now) y.db.directory := by
  have hok := finalizeDeletion_ok h
  simp only [finalizeDeletion, deletionRow, bind_eq_ok, fetch_eq_ok] at h
  obtain ⟨-, -, r, hr, a, ha, -⟩ := h
  obtain hsame | ⟨r', hr', ⟨e, hdenial, -⟩ | ⟨target, d₁, d₂, access, htarget, hstate, -, hclear, -, hupdate,
    harchive, hdb, -⟩⟩ := hok
  · rw [hsame]
    exact .rest
  · obtain ⟨b, hb⟩ := maintainDenial_frame hdenial
    rw [hb]
    exact .rest
  · obtain rfl := Option.some.inj (hr.symm.trans hr')
    have hid : target.id = r.targetUserId := lookup_key htarget
    simp only [deletionClear, Bool.and_eq_true, decide_eq_true_eq] at hclear
    rw [← hid] at htarget hupdate ha
    rw [hdb]
    exact .erase a target r d₁ d₂ (lookup_mem hr) hstate hid (authorizeDeletion_ok ha).1 (authorizeDeletion_ok ha).2 htarget hclear.1
      (dependencies_deserted hclear.2) hupdate harchive

theorem request_deed {r : Request} (hvalid : db.directory.Valid) (h : r.run desk db now = .ok db') :
    Deed db.directory db.deletions i (.request r now) db'.directory := by
  cases r with
  | bootstrap u draw =>
    simp only [Request.run, bootstrap, bind_eq_ok, ensure_eq_ok, mapError_eq_ok] at h
    obtain ⟨-, -, -, -, -, ⟨hempty, -⟩, -, -, d, hinsert, hcommit⟩ := h
    obtain ⟨rfl, -⟩ := commit_ok hcommit
    obtain ⟨-, -, rfl⟩ := insertUser_ok hinsert
    have hdeed : Deed db.directory db.deletions i (.request (.bootstrap u draw) now) _ :=
      .bootstrap (newUser draw.user u .superadmin .active) hempty ⟨rfl, rfl⟩ rfl
    rw [hempty]
    exact hdeed
  | onboard u draw =>
    simp only [Request.run, onboard, bind_eq_ok] at h
    obtain ⟨-, -, -, -, -, -, h⟩ := h
    split at h
    · obtain rfl := pure_eq_ok.mp h
      exact .rest
    · simp only [bind_eq_ok, mapError_eq_ok, pure_eq_ok] at h
      obtain ⟨-, -, -, -, -, -, -, -, d, hinsert, rfl⟩ := h
      have hdeed : Deed db.directory db.deletions i (.request (.onboard u draw) now) d :=
        .onboard (newUser draw.user u .customer .onboarding) d rfl ⟨rfl, rfl⟩ hinsert
      exact hdeed
  | change input draw => exact change_deed h
  | finalizeCreate subject id clerk verified draw =>
    obtain rfl | ⟨r, a, db₁, hr, -, -, ha, -, hcommit, rfl, -⟩ := finalizeCreate_ok h
    · exact .rest
    · simp only [authorizeCreate, bind_eq_ok, ensure_eq_ok, pure_eq_ok] at ha
      obtain ⟨a', ha', -, ⟨hgrant, -⟩, rfl⟩ := ha
      obtain ⟨hactor, hby, hactive, -⟩ := actor_ok ha'
      have hgrants : db.directory.Grants a' r.role r.agencyId := ⟨hactor, hactive, .inl hgrant⟩
      have hdeed := provisioningCommit_deed (x := db.deletions) (i := i)
        (show (Event.request (.finalizeCreate subject id clerk verified draw) now).by i _ from hby) hgrants hcommit
      exact hdeed
  | prepareDeletion input => exact prepareDeletion_deed h
  | finalizeDeletion subject id =>
    obtain ⟨y, hy, rfl⟩ := map_eq_ok.mp h
    exact finalizeDeletion_deed hy
  | ingest e => exact ingest_deed rfl hvalid h
  | review input draw => exact review_deed h
  | rename input draw =>
    obtain rfl | ⟨a, target, d, db₁, names, c, -, -, -, -, hupdate, heffects, rfl⟩ := rename_ok h
    · exact .rest
    · obtain ⟨current, e₁, e₂, mirrored, -, -, -, rfl⟩ := commandEffects_ok heffects
      have hdeed : Deed db.directory db.deletions i (.request (.rename input draw) now) d :=
        .rename _ _ d hupdate fun _ => ⟨rfl, rfl, rfl⟩
      exact hdeed
  | _ =>
    rw [(request_frame h).directory (by simp [Request.writes])]
    exact .rest

variable {s s' : System}

/-- Whatever an event does to the directory is one of the deeds. -/
theorem step_deed (hvalid : s.db.directory.Valid) (h : s.step desk ev = .ok s') :
    Deed s.db.directory s.db.deletions s.db.invitations ev s'.db.directory := by
  cases ev with
  | request r now =>
    obtain ⟨db, hrun, hs⟩ := bind_eq_ok.mp h
    obtain rfl := pure_eq_ok.mp hs
    exact request_deed hvalid hrun
  | accept o result draw now =>
    simp only [System.step, bind_eq_ok, pure_eq_ok] at h
    obtain ⟨-, -, db, haccept, rfl⟩ := h
    obtain rfl | ⟨r, u, db₁, hr, -, hcheck, hcommit, -, rfl, -⟩ := accept_ok haccept
    · exact .rest
    · simp only [checkAcceptance, bind_eq_ok] at hcheck
      obtain ⟨-, -, ⟨⟩, hissuer, -⟩ := hcheck
      obtain ⟨a, hgrants, hby⟩ := checkIssuer_grants hissuer
      have hdeed := provisioningCommit_deed (x := s.db.deletions) (i := s.db.invitations)
        (show (Event.accept o result draw now).by s.db.invitations a from
          ⟨r, lookup_mem hr, lookup_key hr, hby.symm⟩) hgrants hcommit
      exact hdeed
  | applyEvent c answer now =>
    simp only [System.step, bind_eq_ok, pure_eq_ok] at h
    obtain ⟨-, -, db, happly, rfl⟩ := h
    exact applyEvent_deed rfl hvalid happly
  | _ =>
    rw [(step_frame h).db.directory (by simp [Event.writes])]
    exact .rest

end ShaponTravels.Identity
