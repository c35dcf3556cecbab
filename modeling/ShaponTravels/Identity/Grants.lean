import ShaponTravels.Identity.ProfileEdits
import ShaponTravels.Identity.Standing

/-!
# Grants — who gives a role, and who is the last superadmin

Every event is about one identity: it is new, its role or its status is changed by somebody else, or the
provider no longer has it.
-/

namespace ShaponTravels.Identity

open Library

variable {desk : Desk} {d d' d₁ d₂ : Directory} {x : Deletions} {i : Invitations} {ev : Event} {s s' : System}
  {u u' : User}

/-- An active superadmin. -/
def User.Rules (u : User) : Prop := u.role = .superadmin ∧ u.status = .active

/-- What becomes of the identity an event is about. -/
inductive Turn (d : Directory) (i : Invitations) (ev : Event) (u' : User) : Prop where
  | kept (u : User) (hu : u ∈ d.users) (hid : u.id = u'.id) (hrole : u.role = u'.role)
      (hstatus : u.status = u'.status)
  | first (hempty : d.users = []) (hev : ev.bootstraps) (hrules : u'.Rules)
  | onboarded (hnew : ∀ u ∈ d.users, u.id ≠ u'.id) (hev : ev.onboards u'.subject)
      (hcustomer : u'.role = .customer ∧ u'.status = .onboarding)
  | granted (hnew : ∀ u ∈ d.users, u.id ≠ u'.id) (a : User) (agency : Option Uuid) (hby : ev.by i a)
      (hgrants : d.Grants a u'.role agency)
  | changed (u a : User) (hu : u ∈ d.users) (hid : u.id = u'.id) (hby : ev.by i a)
      (hactor : a ∈ d.users ∧ a.status = .active ∧ a.id ≠ u.id)
      (hgrants : u'.role ≠ u.role → a.role.canGrant u'.role)
      (hlast : u.Rules → u'.Rules ∨ ∃ v ∈ d.users, v.id ≠ u.id ∧ v.Rules)
  | contained (u : User) (hu : u ∈ d.users) (hid : u.id = u'.id) (hev : ev.contains) (hrole : u'.role = u.role)
      (hstatus : u'.status = u.status ∨ u'.status = .suspended)

/-- An event is about one identity, and the others keep their roles and their statuses. -/
structure Concerns (d : Directory) (i : Invitations) (ev : Event) (d' : Directory) (t : Uuid) : Prop where
  others : ∀ u' ∈ d'.users, u'.id ≠ t → ∃ u ∈ d.users, u.id = u'.id ∧ u.role = u'.role ∧ u.status = u'.status
  one : ∀ u' ∈ d'.users, u'.id = t → Turn d i ev u'

/-! ## Steps of the directory -/

/-- Everybody keeps the role and the status. -/
def Directory.Same (d d' : Directory) : Prop :=
  ∀ u' ∈ d'.users, ∃ u ∈ d.users, u.id = u'.id ∧ u.role = u'.role ∧ u.status = u'.status

theorem Directory.Same.refl (d : Directory) : d.Same d := fun u hu => ⟨u, hu, rfl, rfl, rfl⟩

theorem Directory.Same.trans (h : d.Same d₁) (h' : d₁.Same d₂) : d.Same d₂ := by
  intro u'' hu''
  obtain ⟨u', hu', hid', hrole', hstatus'⟩ := h' u'' hu''
  obtain ⟨u, hu, hid, hrole, hstatus⟩ := h u' hu'
  exact ⟨u, hu, hid.trans hid', hrole.trans hrole', hstatus.trans hstatus'⟩

theorem Directory.same_of_users (h : d'.users = d.users) : d.Same d' := fun u hu => ⟨u, h ▸ hu, rfl, rfl, rfl⟩

theorem updateUser_same {id : Uuid} {f : User → User} (h : d.updateUser id f = .ok d')
    (hf : ∀ u, (f u).role = u.role ∧ (f u).status = u.status) : d.Same d' := by
  obtain ⟨-, rfl⟩ | ⟨old, row, hold, hguard, rfl⟩ := updateUser_ok h
  · exact .refl _
  · intro u' hu'
    rcases modify_cases hu' with ⟨hmem, -⟩ | ⟨u, -, -, rfl⟩
    · exact ⟨u', hmem, rfl, rfl, rfl⟩
    · exact ⟨old, lookup_mem hold, hguard.row_id.symm, (hguard.row_role.trans (hf old).1).symm,
        (hguard.row_status.trans (hf old).2).symm⟩

theorem invalidateMembers_same {agency : Uuid} (hvalid : d.Valid) (h : d.invalidateMembers agency = .ok d') :
    d.Same d' := by
  intro u' hu'
  obtain ⟨u, hu | hfresh, hraised⟩ := (invalidateMembers_raises hvalid h).1.traced u' hu'
  · exact ⟨u, hu, hraised.id.symm, hraised.role.symm, hraised.status.symm⟩
  · exact hfresh.elim

/-- The user an update is about gets the role and the status it asks for. -/
theorem updateUser_target {f : User → User} (hu : d.user u.id = some u) (h : d.updateUser u.id f = .ok d') :
    (∀ u' ∈ d'.users, u'.id ≠ u.id → ∃ v ∈ d.users, v.id = u'.id ∧ v.role = u'.role ∧ v.status = u'.status) ∧
      ∀ u' ∈ d'.users, u'.id = u.id → u'.role = (f u).role ∧ u'.status = (f u).status := by
  obtain ⟨hnone, -⟩ | ⟨old, row, hold, hguard, rfl⟩ := updateUser_ok h
  · rw [hu] at hnone
    cases hnone
  · obtain rfl := Option.some.inj (hold.symm.trans hu)
    refine ⟨fun u' hu' hne => ?_, fun u' hu' hid => ?_⟩
    · rcases modify_cases hu' with ⟨hmem, -⟩ | ⟨v, -, -, rfl⟩
      · exact ⟨u', hmem, rfl, rfl, rfl⟩
      · exact absurd hguard.row_id hne
    · rcases modify_cases hu' with ⟨-, hne⟩ | ⟨v, -, -, rfl⟩
      · exact absurd hid hne
      · exact ⟨hguard.row_role, hguard.row_status⟩

/-- What is done to one user, and then to nobody's role or status. -/
theorem concerns_of_target {f : User → User} (hu : d.user u.id = some u) (h : d.updateUser u.id f = .ok d₁)
    (hsame : d₁.Same d') (hturn : ∀ u' : User, u'.id = u.id → u'.role = (f u).role → u'.status = (f u).status →
      Turn d i ev u') : Concerns d i ev d' u.id := by
  obtain ⟨hothers, hone⟩ := updateUser_target hu h
  refine ⟨fun u' hu' hne => ?_, fun u' hu' hid => ?_⟩
  · obtain ⟨v, hv, hvid, hvrole, hvstatus⟩ := hsame u' hu'
    obtain ⟨w, hw, hwid, hwrole, hwstatus⟩ := hothers v hv (hvid ▸ hne)
    exact ⟨w, hw, hwid.trans hvid, hwrole.trans hvrole, hwstatus.trans hvstatus⟩
  · obtain ⟨v, hv, hvid, hvrole, hvstatus⟩ := hsame u' hu'
    obtain ⟨hrole, hstatus⟩ := hone v hv (hvid.trans hid)
    exact hturn u' hid (hvrole.symm.trans hrole) (hvstatus.symm.trans hstatus)

theorem concerns_of_same (h : d.Same d') (t : Uuid) : Concerns d i ev d' t := by
  refine ⟨fun u' hu' _ => h u' hu', fun u' hu' _ => ?_⟩
  obtain ⟨u, hu, hid, hrole, hstatus⟩ := h u' hu'
  exact .kept u hu hid hrole hstatus

/-- A new agency is given to one user. -/
theorem provision_writes {id y : Uuid} {code : String} (h : d.provision id y code = .ok d') :
    ∃ d₁, d.updateUser id (fun u => { u with role := .b2b, status := .active }) = .ok d₁ ∧ d₁.Same d' := by
  simp only [Directory.provision, bind_eq_ok] at h
  obtain ⟨d₁, hupdate, d₂, hinsert, hmembership⟩ := h
  obtain ⟨-, -, -, rfl⟩ := insertAgency_ok hinsert
  obtain ⟨-, -, -, d₃, hbump, rfl⟩ := insertMembership_ok hmembership
  have hsame := updateUser_same hbump fun _ => ⟨rfl, rfl⟩
  exact ⟨d₁, hupdate, hsame⟩

/-- A new user gets the role it is granted. -/
theorem admits_role {role : Role} {agency : Option Uuid} (hnew : ∀ v ∈ d.users, v.subject ≠ u.subject ∧ v.id ≠ u.id)
    (hcustomer : u.role = .customer)
    (h : Directory.Admits { d with users := d.users ++ [u] } u.id role agency d') :
    (∀ u' ∈ d'.users, u'.id ≠ u.id → ∃ v ∈ d.users, v.id = u'.id ∧ v.role = u'.role ∧ v.status = u'.status) ∧
      ∀ u' ∈ d'.users, u'.id = u.id → u'.role = role := by
  have hfound : Directory.user { d with users := d.users ++ [u] } u.id = some u :=
    user_concat fun v hv => (hnew v hv).2
  have hold : ∀ v ∈ d.users ++ [u], v.id ≠ u.id → v ∈ d.users := by
    intro v hv hne
    rcases List.mem_append.mp hv with hv | hv
    · exact hv
    · exact absurd (congrArg User.id (List.mem_singleton.mp hv)) hne
  -- the role is written once, and what follows leaves it
  have hwritten : ∀ {f : User → User} {d₁}, Directory.updateUser { d with users := d.users ++ [u] } u.id f = .ok d₁ →
      d₁.Same d' → (f u).role = role → (∀ u' ∈ d'.users, u'.id ≠ u.id → ∃ v ∈ d.users, v.id = u'.id ∧
        v.role = u'.role ∧ v.status = u'.status) ∧ ∀ u' ∈ d'.users, u'.id = u.id → u'.role = role := by
    intro f d₁ hupdate hsame hrole
    obtain ⟨hothers, hone⟩ := updateUser_target hfound hupdate
    refine ⟨fun u' hu' hne => ?_, fun u' hu' hid => ?_⟩
    · obtain ⟨v, hv, hvid, hvrole, hvstatus⟩ := hsame u' hu'
      obtain ⟨w, hw, hwid, hwrole, hwstatus⟩ := hothers v hv (hvid ▸ hne)
      have hwne : w.id ≠ u.id := hwid ▸ hvid ▸ hne
      exact ⟨w, hold w hw hwne, hwid.trans hvid, hwrole.trans hvrole, hwstatus.trans hvstatus⟩
    · obtain ⟨v, hv, hvid, hvrole, -⟩ := hsame u' hu'
      exact hvrole.symm.trans ((hone v hv (hvid.trans hid)).1.trans hrole)
  cases h with
  | owner _ y code _ hprovision =>
    obtain ⟨d₁, hupdate, hsame⟩ := provision_writes hprovision
    exact hwritten hupdate hsame rfl
  | customer _ =>
    refine ⟨fun u' hu' hne => ⟨u', hold u' hu' hne, rfl, rfl, rfl⟩, fun u' hu' hid => ?_⟩
    rcases List.mem_append.mp hu' with hmem | hlast
    · exact absurd hid (hnew u' hmem).2
    · rw [List.mem_singleton.mp hlast]
      exact hcustomer
  | staff _ _ hrole hupdate => exact hwritten hupdate (.refl _) rfl
  | member _ y d₁ _ hrole hupdate hmember =>
    obtain ⟨-, -, -, d₂, hbump, rfl⟩ := insertMembership_ok hmember
    have hsame := updateUser_same hbump fun _ => ⟨rfl, rfl⟩
    exact hwritten hupdate hsame rfl

/-! ## The last superadmin -/

/-- More than one active superadmin, so there is another one. -/
theorem another_ruler (hvalid : d.Valid) (h : 1 < d.users.countP fun v => v.role = .superadmin ∧ v.status = .active) :
    ∃ v ∈ d.users, v.id ≠ u.id ∧ v.Rules := by
  by_contra hnone
  have hall : ∀ v ∈ d.users, v.Rules → v.id = u.id := by
    intro v hv hrules
    by_contra hne
    exact hnone ⟨v, hv, hne, hrules⟩
  rw [List.countP_eq_length_filter] at h
  generalize hlist : d.users.filter (fun v => v.role = .superadmin ∧ v.status = .active) = rulers at h
  have hmem : ∀ v ∈ rulers, v ∈ d.users ∧ v.id = u.id := by
    intro v hv
    rw [← hlist] at hv
    obtain ⟨hvd, hrules⟩ := List.mem_filter.mp hv
    exact ⟨hvd, hall v hvd (by simpa [User.Rules] using hrules)⟩
  have hnodup : rulers.Nodup := hlist ▸ (List.Nodup.of_map _ hvalid.ids).filter _
  cases rulers with
  | nil => exact absurd h (by decide)
  | cons v rest =>
    cases rest with
    | nil => exact absurd h (lt_irrefl 1)
    | cons w rest =>
      obtain ⟨hvd, hvid⟩ := hmem v List.mem_cons_self
      obtain ⟨hwd, hwid⟩ := hmem w (List.mem_cons_of_mem _ List.mem_cons_self)
      have heq := hvalid.ids.eq_of_key hvd hwd (hvid.trans hwid.symm)
      exact (List.nodup_cons.mp hnodup).1 (heq ▸ List.mem_cons_self)

theorem guardLastSuperadmin_ok {role : Role} {status : Status} (hu : d.user u.id = some u)
    (h : guardLastSuperadmin d u.id role status = .ok ()) (hrules : u.Rules) :
    role = .superadmin ∧ status = .active ∨ ∃ v ∈ d.users, v.id ≠ u.id ∧ v.Rules := by
  rw [guardLastSuperadmin] at h
  split at h
  · rename_i hsame
    exact .inl hsame
  · simp only [bind_eq_ok, fetch_eq_ok, ensure_eq_ok] at h
    obtain ⟨v, hv, hother⟩ := h
    obtain rfl := Option.some.inj (hv.symm.trans hu)
    exact .inr (hother hrules.1 hrules.2)

/-! ## Every deed is about one identity -/

theorem Deed.concerns (h : Deed d x i ev d') (hvalid : d.Valid) : ∃ t, Concerns d i ev d' t := by
  cases h with
  | rest => exact ⟨0, concerns_of_same (.refl d) 0⟩
  | rename id f _ hupdate hf =>
    exact ⟨0, concerns_of_same (updateUser_same hupdate fun u => ⟨(hf u).1, (hf u).2.1⟩) 0⟩
  | bootstrap u hempty hu hev =>
    refine ⟨u.id, fun u' hu' hne => absurd (congrArg User.id (List.mem_singleton.mp hu')) hne, fun u' hu' _ => ?_⟩
    rw [List.mem_singleton.mp hu']
    exact .first hempty hev hu
  | onboard u _ hev hu hinsert =>
    obtain ⟨hnew, -, rfl⟩ := insertUser_ok hinsert
    refine ⟨u.id, fun u' hu' hne => ?_, fun u' hu' hid => ?_⟩
    · rcases List.mem_append.mp hu' with hmem | hlast
      · exact ⟨u', hmem, rfl, rfl, rfl⟩
      · exact absurd (congrArg User.id (List.mem_singleton.mp hlast)) hne
    · rcases List.mem_append.mp hu' with hmem | hlast
      · exact absurd hid (hnew u' hmem)
      · rw [List.mem_singleton.mp hlast]
        exact .onboarded hnew hev hu
  -- the agency of the target may change as well, its users' roles and statuses do not
  | assign a target role status d₁ _ hby hacts hchange hrole hstatus husable hlast hupdate hagency =>
    have hvalid₁ : d₁.Valid := hvalid.update hupdate fun old hold hne => by
      obtain rfl := Option.some.inj (hold.symm.trans hacts.found)
      exact (hrole hne).2.1
    have hsame : d₁.Same d' := by
      rcases hagency with ⟨-, rfl⟩ | ⟨-, -, y, d₂, hy, -, hset, hmembers⟩
      · exact .refl _
      · have husers := (setAgency_agencies hvalid₁ ((ownedAgency_iff hvalid₁).mp hy).1 hset).2.1
        exact (Directory.same_of_users husers).trans (invalidateMembers_same (hvalid₁.setAgency hset) hmembers)
    refine ⟨target.id, concerns_of_target hacts.found hupdate hsame fun u' hid hrole' hstatus' => ?_⟩
    refine .changed target a (lookup_mem hacts.found) hid.symm hby ⟨hacts.actor, hacts.active, hacts.other⟩
      (fun hne => ?_) fun hrules => ?_
    · rw [hrole'] at hne ⊢
      exact (hrole hne).1
    · rcases guardLastSuperadmin_ok hacts.found hlast hrules with ⟨hsuper, hactive⟩ | hother
      · exact .inl ⟨hrole'.trans hsuper, hstatus'.trans hactive⟩
      · exact .inr hother
  | reactivate a target y d₁ d₂ _ hby hacts hrole hstatus hagency hsuspended hupdate hset hmembers =>
    have hvalid₁ := hvalid.status hupdate
    have hy := (ownedAgency_iff hvalid).mp hagency
    have husers := (setAgency_agencies hvalid₁ ((updateUser_frame hupdate).1 ▸ hy.1) hset).2.1
    have hsame := (Directory.same_of_users husers).trans (invalidateMembers_same (hvalid₁.setAgency hset) hmembers)
    refine ⟨target.id, concerns_of_target hacts.found hupdate hsame fun u' hid hrole' hstatus' => ?_⟩
    refine .changed target a (lookup_mem hacts.found) hid.symm hby ⟨hacts.actor, hacts.active, hacts.other⟩
      (fun hne => absurd hrole' hne) fun hrules => ?_
    rw [User.Rules, hstatus] at hrules
    cases hrules.2
  | provision a target y code _ hby hacts hgrants hcustomer hmember howner hprovision =>
    obtain ⟨d₁, hupdate, hsame⟩ := provision_writes hprovision
    refine ⟨target.id, concerns_of_target hacts.found hupdate hsame fun u' hid hrole' hstatus' => ?_⟩
    refine .changed target a (lookup_mem hacts.found) hid.symm hby ⟨hacts.actor, hacts.active, hacts.other⟩
      (fun _ => hrole' ▸ hgrants) fun hrules => ?_
    rw [User.Rules, hcustomer] at hrules
    cases hrules.1
  | enrol a u role agency _ hby hgrants hnew hu hadmits =>
    obtain ⟨hothers, hone⟩ := admits_role hnew hu.1 hadmits
    refine ⟨u.id, hothers, fun u' hu' hid => ?_⟩
    exact .granted (fun v hv => hid ▸ (hnew v hv).2) a agency hby (hone u' hu' hid ▸ hgrants)
  | contain u d₁ _ hu hev hsuspend hagency =>
    have hvalid₁ : d₁.Valid :=
      hvalid.stmts (suspendUser_stmts (i := ⟨[], [], 0⟩) (b := fun _ => False) hsuspend)
    have hsame : d₁.Same d' := by
      rw [Directory.suspendOwned] at hagency
      split at hagency
      · obtain rfl := pure_eq_ok.mp hagency
        exact .refl _
      · rename_i y hy
        obtain ⟨d₂, hset, hmembers⟩ := bind_eq_ok.mp hagency
        obtain ⟨hfound, -⟩ := Option.filter_eq_some_iff.mp hy
        have husers := (setAgency_agencies hvalid₁ ((ownedAgency_iff hvalid₁).mp hfound).1 hset).2.1
        exact (Directory.same_of_users husers).trans (invalidateMembers_same (hvalid₁.setAgency hset) hmembers)
    rw [Directory.suspendUser] at hsuspend
    split at hsuspend
    · obtain rfl := pure_eq_ok.mp hsuspend
      exact ⟨0, concerns_of_same hsame 0⟩
    · refine ⟨u.id, concerns_of_target hu hsuspend hsame fun u' hid hrole' hstatus' => ?_⟩
      exact .contained u (lookup_mem hu) hid.symm hev hrole' (.inr hstatus')
  | deny a target d₁ _ hby hacts hlive hlast hupdate hagency =>
    have hsame : d₁.Same d' := Directory.same_of_users (agency_users (.inl hagency))
    refine ⟨target.id, concerns_of_target hacts.found hupdate hsame fun u' hid hrole' hstatus' => ?_⟩
    exact .changed target a (lookup_mem hacts.found) hid.symm hby ⟨hacts.actor, hacts.active, hacts.other⟩
      (fun hne => absurd hrole' hne) fun hrules => .inr (another_ruler hvalid (hlast hrules.1 hrules.2))
  | erase a target r d₁ _ hr hconfirmed htid hby hactor htarget hstatus hlive hupdate hagency =>
    have hsame : d₁.Same d' := Directory.same_of_users (agency_users (.inr hagency))
    refine ⟨target.id, concerns_of_target htarget hupdate hsame fun u' hid hrole' hstatus' => ?_⟩
    refine .changed target a (lookup_mem htarget) hid.symm hby hactor (fun hne => absurd hrole' hne) fun hrules => ?_
    rw [User.Rules, hstatus] at hrules
    cases hrules.2

/-! ## Every transaction of a run -/

/-- The role of an identity after a transaction: it had it before, or it is the first superadmin, or it
became a customer by itself, or somebody else who was active and might grant the role gave it. -/
def Granted (d : Directory) (i : Invitations) (ev : Event) (u' : User) : Prop :=
  (∃ u ∈ d.users, u.id = u'.id ∧ u.role = u'.role) ∨ (ev.bootstraps ∧ u'.role = .superadmin) ∨
    (ev.onboards u'.subject ∧ u'.role = .customer ∧ ∀ u ∈ d.users, u.id ≠ u'.id) ∨
    ∃ a agency, ev.by i a ∧ d.Grants a u'.role agency ∧ a.id ≠ u'.id

theorem Concerns.granted {t : Uuid} (h : Concerns d i ev d' t) (hu' : u' ∈ d'.users) : Granted d i ev u' := by
  by_cases hid : u'.id = t
  · cases h.one u' hu' hid with
    | kept u hu huid hrole _ => exact .inl ⟨u, hu, huid, hrole⟩
    | first _ hev hrules => exact .inr (.inl ⟨hev, hrules.1⟩)
    | onboarded hnew hev hcustomer => exact .inr (.inr (.inl ⟨hev, hcustomer.1, hnew⟩))
    | granted hnew a agency hby hgrants => exact .inr (.inr (.inr ⟨a, agency, hby, hgrants, hnew a hgrants.actor⟩))
    | changed u a hu huid hby hactor hgrants _ =>
      by_cases hrole : u'.role = u.role
      · exact .inl ⟨u, hu, huid, hrole.symm⟩
      · exact .inr (.inr (.inr ⟨a, none, hby, ⟨hactor.1, hactor.2.1, .inl (hgrants hrole)⟩, huid ▸ hactor.2.2⟩))
    | contained u hu huid _ hrole _ => exact .inl ⟨u, hu, huid, hrole.symm⟩
  · obtain ⟨u, hu, huid, hrole, -⟩ := h.others u' hu' hid
    exact .inl ⟨u, hu, huid, hrole⟩

/-- Whoever's role or status changes is changed by somebody else, or contained. -/
theorem Concerns.by_others {t : Uuid} (h : Concerns d i ev d' t) (hvalid : d.Valid) (hu : u ∈ d.users)
    (hu' : u' ∈ d'.users) (hid : u'.id = u.id) : (u'.role = u.role ∧ u'.status = u.status) ∨
      (ev.contains ∧ u'.role = u.role) ∨ ∃ a ∈ d.users, ev.by i a ∧ a.status = .active ∧ a.id ≠ u.id := by
  have hone : ∀ v ∈ d.users, v.id = u'.id → v = u := fun v hv hvid => hvalid.ids.eq_of_key hv hu (hvid.trans hid)
  by_cases ht : u'.id = t
  · cases h.one u' hu' ht with
    | kept v hv hvid hrole hstatus =>
      obtain rfl := hone v hv hvid
      exact .inl ⟨hrole.symm, hstatus.symm⟩
    | first hempty _ _ =>
      rw [hempty] at hu
      cases hu
    | onboarded hnew _ _ => exact absurd hid.symm (hnew u hu)
    | granted hnew _ _ _ _ => exact absurd hid.symm (hnew u hu)
    | changed v a hv hvid hby hactor _ _ =>
      obtain rfl := hone v hv hvid
      exact .inr (.inr ⟨a, hactor.1, hby, hactor.2.1, hactor.2.2⟩)
    | contained v hv hvid hev hrole _ =>
      obtain rfl := hone v hv hvid
      exact .inr (.inl ⟨hev, hrole⟩)
  · obtain ⟨v, hv, hvid, hrole, hstatus⟩ := h.others u' hu' ht
    obtain rfl := hone v hv hvid
    exact .inl ⟨hrole.symm, hstatus.symm⟩

/-- Some superadmin stays active, unless the provider no longer has it. -/
theorem Concerns.ruled {t : Uuid} (h : Concerns d i ev d' t) (hvalid : d.Valid)
    (hkept : ∀ v ∈ d.users, ∃ v' ∈ d'.users, v'.id = v.id) (hcontains : ev.contains = false)
    (hu : u ∈ d.users) (hrules : u.Rules) : ∃ u' ∈ d'.users, u'.Rules := by
  have hother : ∀ v ∈ d.users, v.Rules → v.id ≠ t → ∃ u' ∈ d'.users, u'.Rules := by
    intro v hv hvrules hne
    obtain ⟨v', hv', hid⟩ := hkept v hv
    obtain ⟨w, hw, hwid, hrole, hstatus⟩ := h.others v' hv' (hid ▸ hne)
    obtain rfl := hvalid.ids.eq_of_key hw hv (hwid.trans hid)
    exact ⟨v', hv', hrole.symm.trans hvrules.1, hstatus.symm.trans hvrules.2⟩
  by_cases ht : u.id = t
  · obtain ⟨u', hu', hid⟩ := hkept u hu
    have hone : ∀ v ∈ d.users, v.id = u'.id → v = u := fun v hv hvid => hvalid.ids.eq_of_key hv hu (hvid.trans hid)
    cases h.one u' hu' (hid.trans ht) with
    | kept v hv hvid hrole hstatus =>
      obtain rfl := hone v hv hvid
      exact ⟨u', hu', hrole.symm.trans hrules.1, hstatus.symm.trans hrules.2⟩
    | first hempty _ _ =>
      rw [hempty] at hu
      cases hu
    | onboarded hnew _ _ => exact absurd hid.symm (hnew u hu)
    | granted hnew _ _ _ _ => exact absurd hid.symm (hnew u hu)
    | changed v a hv hvid _ _ _ hlast =>
      obtain rfl := hone v hv hvid
      rcases hlast hrules with hself | ⟨w, hw, hne, hwrules⟩
      · exact ⟨u', hu', hself⟩
      · exact hother w hw hwrules (ht ▸ hne)
    | contained v _ _ hev _ _ =>
      rw [hcontains] at hev
      cases hev
  · exact hother u hu hrules ht

/-- The invariant of agencies and their owners, of active agency users and their memberships. -/
def Directory.Governed (d : Directory) : Prop :=
  (∀ a ∈ d.agencies, ∃ u ∈ d.users, u.id = a.ownerUserId ∧
    (a.status ≠ .archived → (a.status = .active ↔ u.status = .active ∧ u.role = .b2b)) ∧
    (a.status = .archived ↔ u.status = .deleted)) ∧
  ∀ u ∈ d.users, u.status = .active → u.role.requiresAgency →
    ∃ m, d.memberships.filter (fun m => m.userId = u.id) = [m] ∧ m.kind.userRole = u.role

theorem Orderly.governed (h : Orderly s) : s.db.directory.Governed := by
  have hvalid := h.registered.directory
  refine ⟨fun a ha => ?_, fun u hu hactive hagency => ?_⟩
  · obtain ⟨u, hu, hid, hrole⟩ := h.consistent.owners a ha
    obtain ⟨hmatches, harchived⟩ := h.standing.coupled a ha u hu hid
    exact ⟨u, hu, hid, fun _ => ⟨fun hactive => ⟨hmatches.mp hactive, hrole⟩, fun hboth => hmatches.mpr hboth.1⟩,
      harchived⟩
  · obtain ⟨m, hm, huser, hkind⟩ := h.consistent.agencyUsers u hu hactive hagency
    refine ⟨m, hvalid.members.filter_eq hm (by simpa using huser) fun m' _ hm' => ?_, hkind⟩
    exact (by simpa using hm' : m'.userId = u.id).trans huser.symm

/-- In every run, roles are granted by active identities that may grant them, save for the first
superadmin and for customers who onboard themselves; nobody changes its own role or status; agencies
stand and fall with their owners; and only containment takes the last active superadmin. -/
theorem identity_authority {s₀ : System} {t : List (Transition System Event)} (hinit : (machine desk).init s₀)
    (hrun : (machine desk).Run s₀ t s) :
    s.db.directory.Governed ∧ ∀ q ∈ t,
      (∀ u' ∈ q.after.db.directory.users, Granted q.before.db.directory q.before.db.invitations q.label u') ∧
      (∀ u ∈ q.before.db.directory.users, ∀ u' ∈ q.after.db.directory.users, u'.id = u.id →
        (u'.role = u.role ∧ u'.status = u.status) ∨ (q.label.contains ∧ u'.role = u.role) ∨
          ∃ a ∈ q.before.db.directory.users, q.label.by q.before.db.invitations a ∧ a.status = .active ∧
            a.id ≠ u.id) ∧
      (q.label.contains = false → (∃ u ∈ q.before.db.directory.users, u.Rules) →
        ∃ u' ∈ q.after.db.directory.users, u'.Rules) := by
  refine ⟨(orderly_of_reachable ⟨s₀, t, hinit, hrun⟩).governed, fun q hq => ?_⟩
  obtain ⟨⟨t', hbefore⟩, hstep⟩ := hrun.mem hq
  have horderly := orderly_of_reachable ⟨s₀, t', hinit, hbefore⟩
  have hvalid := horderly.registered.directory
  obtain ⟨target, hconcerns⟩ := (step_deed hvalid hstep).concerns hvalid
  refine ⟨fun u' hu' => hconcerns.granted hu', fun u hu u' hu' hid => hconcerns.by_others hvalid hu hu' hid, ?_⟩
  intro hcontains hruled
  obtain ⟨u, hu, hrules⟩ := hruled
  refine hconcerns.ruled hvalid (fun v hv => ?_) hcontains hu hrules
  obtain ⟨v', hv', hnext⟩ := (horderly.registered.step_users hstep).2.kept v hv
  exact ⟨v', hv', hnext.id⟩

/-! ### Runs -/

/-- The first superadmin is deleted at the provider, and somebody else onboards. -/
def abandonedEvents : List Event := [
  .request (.bootstrap (sampleUser "user_a") (sampleDraw 1)) 0,
  .request (.ingest ⟨"evt_1", 7, "user_a", .deleted, 1⟩) 0]

def abandoned : Except ApiError (System × System) := do
  let s ← abandonedEvents.foldlM (System.step sampleDesk) (.start sampleBusiness)
  let s' ← s.step sampleDesk (.request (.onboard (sampleUser "user_b") (sampleDraw 2)) 0)
  return (s, s')

/-- Nobody is active when the customer gets its role. -/
theorem customer_ungranted : ∃ t s s' u', (machine sampleDesk).Run (.start sampleBusiness) t s ∧
    s.step sampleDesk (.request (.onboard (sampleUser "user_b") (sampleDraw 2)) 0) = .ok s' ∧
    u' ∈ s'.db.directory.users ∧ (∀ u ∈ s.db.directory.users, u.id ≠ u'.id) ∧ u'.role = .customer ∧
    ∀ a ∈ s.db.directory.users, a.status ≠ .active := by
  have hrun : abandoned.map (fun x => (x.1.db.directory.users.map fun u => (u.id, u.status),
      x.2.db.directory.users.map fun u => (u.id, u.role))) =
        .ok ([(100, .suspended)], [(100, .superadmin), (200, .customer)]) := by
    decide +kernel
  obtain ⟨⟨s, s'⟩, h, hout⟩ := map_eq_ok.mp hrun
  obtain ⟨hbefore, hafter⟩ := Prod.mk.inj hout
  simp only [abandoned, bind_eq_ok, pure_eq_ok] at h
  obtain ⟨s₁, hs, s₂, hstep, heq⟩ := h
  obtain ⟨rfl, rfl⟩ := Prod.mk.inj heq
  obtain ⟨t, ht⟩ := Machine.Run.foldlM (M := machine sampleDesk) (fun _ _ _ h => h) (.nil _) hs
  have hlast : ((200 : Uuid), Role.customer) ∈ s₂.db.directory.users.map fun u => (u.id, u.role) := by
    rw [hafter]
    decide
  obtain ⟨u', hu', hpair⟩ := List.mem_map.mp hlast
  obtain ⟨hid, hrole⟩ := Prod.mk.inj hpair
  have hold : ∀ u ∈ s₁.db.directory.users, u.id = 100 ∧ u.status = .suspended := by
    intro u hu
    have hmem : (u.id, u.status) ∈ s₁.db.directory.users.map fun u => (u.id, u.status) :=
      List.mem_map.mpr ⟨u, hu, rfl⟩
    rw [hbefore] at hmem
    exact Prod.mk.inj (List.mem_singleton.mp hmem)
  refine ⟨t, s₁, s₂, u', ht, hstep, hu', fun u hu => ?_, hrole, fun a ha => ?_⟩
  · rw [(hold u hu).1, hid]
    decide
  · rw [(hold a ha).2]
    decide

theorem identity_authority_approved : ∃ t s, (machine sampleDesk).Run (.start sampleBusiness) t s ∧
    s.db.directory.Governed ∧ s.db.directory.agencies.length = 1 := by
  have hrun : (approval "Road 1").map (fun x => x.2.db.directory.agencies.length) = .ok 1 := by
    decide +kernel
  obtain ⟨⟨s, s'⟩, hs, hlength⟩ := map_eq_ok.mp hrun
  obtain ⟨t, ht, -⟩ := approval_run hs
  exact ⟨_, s', ht, (identity_authority ⟨sampleBusiness, sampleBusiness_valid, rfl⟩ ht).1, hlength⟩

end ShaponTravels.Identity
