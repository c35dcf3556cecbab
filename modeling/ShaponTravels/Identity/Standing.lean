import ShaponTravels.Identity.Deeds

/-!
# Standing — an agency stands and falls with its owner

The owner of an agency is active exactly while the agency is, and deleted exactly when it is archived;
every workflow writes the two together.
-/

namespace ShaponTravels.Identity

open Library

variable {desk : Desk} {d d' d₁ d₂ : Directory} {x : Deletions} {i : Invitations} {ev : Event} {s s' : System} {id : Uuid}

/-- The status of an agency is the one its owner's status asks for. -/
def AgencyStatus.matches (a : AgencyStatus) (u : Status) : Prop :=
  (a = .active ↔ u = .active) ∧ (a = .archived ↔ u = .deleted)

instance (a : AgencyStatus) (u : Status) : Decidable (a.matches u) := inferInstanceAs (Decidable (_ ∧ _))

/-- Agencies with their owners. -/
structure Directory.Standing (d : Directory) : Prop where
  owned : ∀ m ∈ d.memberships, m.kind = .owner → ∀ a ∈ d.agencies, a.id = m.agencyId → a.ownerUserId = m.userId
  coupled : ∀ a ∈ d.agencies, ∀ u ∈ d.users, u.id = a.ownerUserId → a.status.matches u.status

/-! ## Users whose versions are raised -/

/-- A user whose authorization version is raised when it is in the list. -/
structure User.Raised (ids : List Uuid) (u u' : User) : Prop where
  id : u'.id = u.id
  role : u'.role = u.role
  status : u'.status = u.status
  version : u.authorizationVersion ≤ u'.authorizationVersion
  raised : u.id ∈ ids → u.authorizationVersion < u'.authorizationVersion

theorem User.Raised.refl (u : User) : u.Raised [] u :=
  ⟨rfl, rfl, rfl, le_refl _, fun h => absurd h List.not_mem_nil⟩

theorem User.Raised.trans {ids ids' : List Uuid} {u u' u'' : User} (h : u.Raised ids u')
    (h' : u'.Raised ids' u'') : u.Raised (ids ++ ids') u'' := by
  refine ⟨h'.id.trans h.id, h'.role.trans h.role, h'.status.trans h.status, h.version.trans h'.version, ?_⟩
  intro hmem
  rcases List.mem_append.mp hmem with hmem | hmem
  · exact lt_of_lt_of_le (h.raised hmem) h'.version
  · exact lt_of_le_of_lt h.version (h'.raised (h.id ▸ hmem))

theorem invalidateMember_raises (hvalid : d.Valid) (h : invalidateMember d id = .ok d') :
    Follows (User.Raised [id]) (fun _ => False) d.users d'.users := by
  have hother : ∀ u : User, u.id ≠ id → u.Raised [id] u := fun u hu =>
    ⟨rfl, rfl, rfl, le_refl _, fun hmem => absurd (List.mem_singleton.mp hmem) hu⟩
  obtain ⟨hnone, rfl⟩ | ⟨old, row, hold, hguard, rfl⟩ := updateUser_ok h
  · -- nobody has the identifier, so nobody is raised
    have hkept : ∀ u ∈ d'.users, u.Raised [id] u := fun u hu => hother u (lookup_eq_none.mp hnone u hu)
    exact ⟨fun u hu => ⟨u, hu, hkept u hu⟩, fun u hu => ⟨u, .inl hu, hkept u hu⟩⟩
  have hraised : row.authorizationVersion = old.authorizationVersion + 1 := by
    rcases hguard.row_authorization with ⟨-, -, -, hsame⟩ | hraised
    · exact absurd hsame (by simp)
    · exact hraised
  have hpair : ∀ u ∈ d.users, u.Raised [id] (if u.id = id then row else u) := by
    intro u hu
    split
    · rename_i huid
      obtain rfl := hvalid.ids.eq_of_key hu (lookup_mem hold) (huid.trans (lookup_key hold).symm)
      exact ⟨hguard.row_id, hguard.row_role, hguard.row_status, by omega, fun _ => by omega⟩
    · rename_i huid
      exact hother u huid
  refine ⟨fun u hu => ⟨_, mem_modify.mpr ⟨u, hu, rfl⟩, hpair u hu⟩, fun u' hu' => ?_⟩
  obtain ⟨u, hu, rfl⟩ := mem_modify.mp hu'
  exact ⟨u, .inl hu, hpair u hu⟩

/-- Every sub-user of the agency is raised, and nothing else of the directory changes. -/
theorem invalidateMembers_raises (hvalid : d.Valid) (h : d.invalidateMembers id = .ok d') :
    Follows (User.Raised (d.subs id)) (fun _ => False) d.users d'.users ∧ d'.agencies = d.agencies ∧
      d'.memberships = d.memberships := by
  suffices hfold : ∀ (ids : List Uuid) {d : Directory}, d.Valid → ids.foldlM invalidateMember d = .ok d' →
      Follows (User.Raised ids) (fun _ => False) d.users d'.users ∧ d'.agencies = d.agencies ∧
        d'.memberships = d.memberships from hfold _ hvalid h
  intro ids
  induction ids with
  | nil =>
    intro d _ h
    obtain rfl := pure_eq_ok.mp h
    exact ⟨.refl .refl _, rfl, rfl⟩
  | cons i ids ih =>
    intro d hvalid h
    rw [List.foldlM_cons, bind_eq_ok] at h
    obtain ⟨d₁, hfirst, hrest⟩ := h
    obtain ⟨hafter, hagencies, hmembers⟩ := ih (hvalid.bump hfirst) hrest
    have hbefore := invalidateMember_raises hvalid hfirst
    obtain ⟨hagencies₁, hmembers₁, -⟩ := updateUser_frame hfirst
    refine ⟨⟨fun u hu => ?_, fun u hu => ?_⟩, hagencies.trans hagencies₁, hmembers.trans hmembers₁⟩
    · obtain ⟨u₁, hu₁, hraised₁⟩ := hbefore.kept u hu
      obtain ⟨u₂, hu₂, hraised₂⟩ := hafter.kept u₁ hu₁
      exact ⟨u₂, hu₂, hraised₁.trans hraised₂⟩
    · obtain ⟨u₁, hu₁ | hfresh, hraised₂⟩ := hafter.traced u hu
      · obtain ⟨u₀, hu₀, hraised₁⟩ := hbefore.traced u₁ hu₁
        exact ⟨u₀, hu₀, hraised₁.trans hraised₂⟩
      · exact hfresh.elim

/-! ## One owner at a time -/

/-- The statuses of all users but one stay, and that one has a new status. -/
structure Directory.Becomes (d : Directory) (id : Uuid) (status : Status) (d' : Directory) : Prop where
  others : ∀ u' ∈ d'.users, u'.id ≠ id → ∃ u ∈ d.users, u.id = u'.id ∧ u.status = u'.status
  own : ∀ u' ∈ d'.users, u'.id = id → u'.status = status

/-- Nobody's status changes. -/
def Directory.Unmoved (d d' : Directory) : Prop := ∀ u' ∈ d'.users, ∃ u ∈ d.users, u.id = u'.id ∧ u.status = u'.status

theorem Directory.Unmoved.refl (d : Directory) : d.Unmoved d := fun u hu => ⟨u, hu, rfl, rfl⟩

theorem Directory.Becomes.keeps {status : Status} (h : d.Becomes id status d₁) (hkeeps : d₁.Unmoved d₂) :
    d.Becomes id status d₂ := by
  refine ⟨fun u'' hu'' hne => ?_, fun u'' hu'' hid => ?_⟩
  · obtain ⟨u', hu', hid', hstatus'⟩ := hkeeps u'' hu''
    obtain ⟨u, hu, hid, hstatus⟩ := h.others u' hu' (hid' ▸ hne)
    exact ⟨u, hu, hid.trans hid', hstatus.trans hstatus'⟩
  · obtain ⟨u', hu', hid', hstatus'⟩ := hkeeps u'' hu''
    exact hstatus'.symm.trans (h.own u' hu' (hid'.trans hid))

theorem updateUser_becomes {f : User → User} {status : Status} (h : d.updateUser id f = .ok d')
    (hf : ∀ u, d.user id = some u → (f u).status = status) : d.Becomes id status d' := by
  obtain ⟨hnone, rfl⟩ | ⟨old, row, hold, hguard, rfl⟩ := updateUser_ok h
  · exact ⟨fun u hu _ => ⟨u, hu, rfl, rfl⟩, fun u hu hid => absurd hid (lookup_eq_none.mp hnone u hu)⟩
  have hrow : row.status = status := hguard.row_status.trans (hf old hold)
  refine ⟨fun u' hu' hne => ?_, fun u' hu' hid => ?_⟩
  · rcases modify_cases hu' with ⟨hmem, -⟩ | ⟨u, -, -, rfl⟩
    · exact ⟨u', hmem, rfl, rfl⟩
    · exact absurd (hguard.row_id.trans (lookup_key hold)) hne
  · rcases modify_cases hu' with ⟨-, hne⟩ | ⟨u, -, -, rfl⟩
    · exact absurd hid hne
    · exact hrow

theorem updateUser_keeps {f : User → User} (h : d.updateUser id f = .ok d')
    (hf : ∀ u, (f u).status = u.status) : d.Unmoved d' := by
  obtain ⟨-, rfl⟩ | ⟨old, row, hold, hguard, rfl⟩ := updateUser_ok h
  · exact .refl _
  · intro u' hu'
    rcases modify_cases hu' with ⟨hmem, -⟩ | ⟨u, -, -, rfl⟩
    · exact ⟨u', hmem, rfl, rfl⟩
    · exact ⟨old, lookup_mem hold, hguard.row_id.symm, (hguard.row_status.trans (hf old)).symm⟩

theorem invalidateMembers_keeps {agency : Uuid} (hvalid : d.Valid) (h : d.invalidateMembers agency = .ok d') :
    d.Unmoved d' := by
  intro u' hu'
  obtain ⟨u, hu | hfresh, hraised⟩ := (invalidateMembers_raises hvalid h).1.traced u' hu'
  · exact ⟨u, hu, hraised.id.symm, hraised.status.symm⟩
  · exact hfresh.elim

namespace Directory.Standing

/-- The agencies and the memberships stay, and nobody's status changes but that of somebody who owns no
agency. -/
theorem keeps (h : d.Standing) (hmembers : d'.memberships = d.memberships) (hagencies : d'.agencies = d.agencies)
    (hkeeps : ∀ u' ∈ d'.users, (∃ u ∈ d.users, u.id = u'.id ∧ u.status = u'.status) ∨
      ∀ a ∈ d.agencies, a.ownerUserId ≠ u'.id) : d'.Standing := by
  refine ⟨?_, fun a ha u' hu' howner => ?_⟩
  · rw [hmembers, hagencies]
    exact h.owned
  · rw [hagencies] at ha
    rcases hkeeps u' hu' with ⟨u, hu, hid, hstatus⟩ | hnone
    · rw [← hstatus]
      exact h.coupled a ha u hu (hid.trans howner)
    · exact absurd howner.symm (hnone a ha)

/-- The status of one user changes, and that of the agency it owns with it. -/
theorem becomes {status : Status} (h : d.Standing) (hmembers : d'.memberships = d.memberships)
    (hagencies : ∀ a' ∈ d'.agencies, ∃ a ∈ d.agencies, a'.id = a.id ∧ a'.ownerUserId = a.ownerUserId ∧
      (a.ownerUserId ≠ id → a'.status = a.status))
    (howned : ∀ a' ∈ d'.agencies, a'.ownerUserId = id → a'.status.matches status)
    (hbecomes : d.Becomes id status d') : d'.Standing := by
  refine ⟨fun m hm hkind a' ha' hid => ?_, fun a' ha' u' hu' howner => ?_⟩
  · obtain ⟨a, ha, haid, haowner, -⟩ := hagencies a' ha'
    exact haowner.trans (h.owned m (hmembers ▸ hm) hkind a ha (haid.symm.trans hid))
  · by_cases hid : u'.id = id
    · rw [hbecomes.own u' hu' hid]
      exact howned a' ha' (howner.symm.trans hid)
    · obtain ⟨u, hu, huid, hustatus⟩ := hbecomes.others u' hu' hid
      obtain ⟨a, ha, -, haowner, hastatus⟩ := hagencies a' ha'
      rw [← hustatus, hastatus (fun heq => hid (howner.trans (haowner.trans heq)))]
      exact h.coupled a ha u hu (huid.trans (howner.trans haowner))

end Directory.Standing

/-! ## Every deed keeps the standing -/

theorem ownedAgency_iff (hvalid : d.Valid) {a : Agency} :
    d.ownedAgency id = some a ↔ a ∈ d.agencies ∧ a.ownerUserId = id :=
  hvalid.owners.lookup_iff

/-- The agency whose status is set, and the others. -/
theorem setAgency_agencies {y : Agency} {status : AgencyStatus} (hvalid : d.Valid) (hy : y ∈ d.agencies)
    (h : d.setAgency y.id status = .ok d') :
    (∀ a' ∈ d'.agencies, a' ∈ d.agencies ∧ a'.id ≠ y.id ∨
      a'.id = y.id ∧ a'.code = y.code ∧ a'.ownerUserId = y.ownerUserId ∧ a'.status = status) ∧
      d'.users = d.users ∧ d'.memberships = d.memberships := by
  have hfound : d.agency y.id = some y := hvalid.agencies.lookup hy
  obtain ⟨hnone, -⟩ | ⟨old, hold, -, rfl⟩ := setAgency_ok h
  · rw [hfound] at hnone
    cases hnone
  · obtain rfl := Option.some.inj (hold.symm.trans hfound)
    refine ⟨fun a' ha' => ?_, rfl, rfl⟩
    rcases modify_cases ha' with hother | ⟨a, -, -, rfl⟩
    · exact .inl hother
    · exact .inr ⟨rfl, rfl, rfl, rfl⟩

/-- The agency of a user and the user get matching statuses. -/
theorem Directory.Standing.pair {y : Agency} {status : Status} {agency : AgencyStatus} (h : d.Standing)
    (hvalid : d.Valid) (hy : y ∈ d.agencies) (howner : y.ownerUserId = id)
    (hagencies : ∀ a' ∈ d'.agencies, a' ∈ d.agencies ∧ a'.id ≠ y.id ∨
      a'.id = y.id ∧ a'.code = y.code ∧ a'.ownerUserId = y.ownerUserId ∧ a'.status = agency)
    (hmembers : d'.memberships = d.memberships) (hmatches : agency.matches status)
    (hbecomes : d.Becomes id status d') : d'.Standing := by
  refine h.becomes hmembers (fun a' ha' => ?_) (fun a' ha' hid => ?_) hbecomes
  · rcases hagencies a' ha' with ⟨hmem, -⟩ | ⟨haid, -, haowner, -⟩
    · exact ⟨a', hmem, rfl, rfl, fun _ => rfl⟩
    · exact ⟨y, hy, haid, haowner, fun hne => absurd howner hne⟩
  · rcases hagencies a' ha' with ⟨hmem, hne⟩ | ⟨-, -, -, hstatus⟩
    · -- an owner has one agency only
      exact absurd (congrArg Agency.id (hvalid.owners.eq_of_key hmem hy (hid.trans howner.symm))) hne
    · rw [hstatus]
      exact hmatches

/-- The status of an owner is written, and then that of its agency. -/
theorem Directory.Standing.joint {y : Agency} {f : User → User} {status : Status} {agency : AgencyStatus}
    (h : d.Standing) (hvalid : d.Valid) (hvalid₁ : d₁.Valid) (hy : y ∈ d.agencies) (howner : y.ownerUserId = id)
    (hupdate : d.updateUser id f = .ok d₁) (hf : ∀ u, d.user id = some u → (f u).status = status)
    (hset : d₁.setAgency y.id agency = .ok d₂) (hmatches : agency.matches status) : d₂.Standing := by
  obtain ⟨hagencies₁, hmembers₁, -⟩ := updateUser_frame hupdate
  obtain ⟨hagencies₂, husers₂, hmembers₂⟩ := setAgency_agencies hvalid₁ (hagencies₁ ▸ hy) hset
  rw [hagencies₁] at hagencies₂
  have hbecomes : d.Becomes id status d₂ := by
    refine (updateUser_becomes hupdate hf).keeps ?_
    rw [Directory.Unmoved, husers₂]
    exact Directory.Unmoved.refl d₁
  exact h.pair hvalid hy howner hagencies₂ (hmembers₂.trans hmembers₁) hmatches hbecomes

theorem Directory.Standing.invalidate {agency : Uuid} (h : d.Standing) (hvalid : d.Valid)
    (hmembers : d.invalidateMembers agency = .ok d') : d'.Standing := by
  obtain ⟨-, hagencies, hmemberships⟩ := invalidateMembers_raises hvalid hmembers
  exact h.keeps hmemberships hagencies fun u hu => .inl (invalidateMembers_keeps hvalid hmembers u hu)

/-- Setting the status of an agency keeps the directory valid. -/
theorem Directory.Valid.setAgency {y : Uuid} {status : AgencyStatus} (h : d.Valid)
    (hset : d.setAgency y status = .ok d') : d'.Valid :=
  h.stmt (i := ⟨[], [], 0⟩) (b := fun _ => False) (.agency _ _ _ hset)

/-- The owner of an agency is a member of it, in the role of an owner. -/
theorem Directory.Consistent.owner {a : Agency} {u : User} (h : d.Consistent) (hvalid : d.Valid)
    (ha : a ∈ d.agencies) (hu : u ∈ d.users) (howner : u.id = a.ownerUserId) :
    u.role = .b2b ∧ ∃ m ∈ d.memberships, m.userId = u.id ∧ m.agencyId = a.id := by
  obtain ⟨v, hv, hid, hrole⟩ := h.owners a ha
  obtain rfl := hvalid.ids.eq_of_key hv hu (hid.trans howner.symm)
  obtain ⟨m, hm, huser, hagency, -⟩ := h.ownerships a ha
  exact ⟨hrole, m, hm, huser.trans howner.symm, hagency⟩

/-- The agency of somebody who may become active is active, which an owner's is only with the owner. -/
theorem Directory.Standing.usable {a : Agency} {u : User} (h : d.Standing) (hvalid : d.Valid)
    (hc : d.Consistent) (ha : a ∈ d.agencies) (hu : u ∈ d.users) (howner : u.id = a.ownerUserId)
    (husable : d.usable u.id) : u.status = .active := by
  simp only [Directory.usable, List.any_eq_true, decide_eq_true_eq] at husable
  obtain ⟨m, hm, huser, b, hb, hid, hactive, -⟩ := husable
  obtain ⟨-, m', hm', huser', hagency'⟩ := hc.owner hvalid ha hu howner
  obtain rfl := hvalid.members.eq_of_key hm hm' (huser.trans huser'.symm)
  obtain rfl := hvalid.agencies.eq_of_key ha hb (hagency'.symm.trans hid.symm)
  exact (h.coupled a ha u hu howner).1.mp hactive

/-- A change of role or access. -/
theorem assign_standing {a target : User} {role : Role} {status : Status} (h : d.Standing) (hvalid : d.Valid)
    (hc : d.Consistent) (hacts : d.Acts a target) (hchange : ¬ (role = target.role ∧ status = target.status))
    (hrole : role ≠ target.role → a.role.canGrant role ∧ d.isMember target.id = false ∧ role.requiresAgency = false)
    (hstatus : status = target.status ∨ status = .active ∨ status = .suspended)
    (husable : status = .active → role.requiresAgency → d.usable target.id)
    (hupdate : d.updateUser target.id (fun u => { u with role := role, status := status }) = .ok d₁)
    (hagency : d₁.Suspends target status d') : d'.Standing := by
  have htarget := lookup_mem hacts.found
  have hbecomes : d.Becomes target.id status d₁ := updateUser_becomes hupdate fun _ _ => rfl
  obtain ⟨hagencies₁, hmembers₁, -⟩ := updateUser_frame hupdate
  -- whoever owns an agency keeps its role
  have howner : ∀ y ∈ d.agencies, y.ownerUserId = target.id → role = target.role ∧ target.role = .b2b := by
    intro y hy hid
    obtain ⟨hb2b, m, hm, huser, -⟩ := hc.owner hvalid hy htarget hid.symm
    refine ⟨?_, hb2b⟩
    by_contra hne
    exact isMember_eq_false.mp (hrole hne).2.1 m hm huser
  rcases hagency with ⟨hnone, rfl⟩ | ⟨hb2b, rfl, y, d₂, hy, hlive, hset, hmembers⟩
  · refine h.becomes hmembers₁ (fun y hy => ⟨y, hagencies₁ ▸ hy, rfl, rfl, fun _ => rfl⟩) (fun y hy hid => ?_)
      hbecomes
    have hyd : y ∈ d.agencies := hagencies₁ ▸ hy
    obtain ⟨rfl, hb2b⟩ := howner y hyd hid
    have hmatches := h.coupled y hyd target htarget hid.symm
    rcases hstatus with rfl | rfl | rfl
    · exact hmatches
    · -- an owner is reactivated with its agency only
      have hactive := h.usable hvalid hc hyd htarget hid.symm (husable rfl (by rw [hb2b]; rfl))
      exact absurd ⟨rfl, hactive.symm⟩ hchange
    · have hfound : d'.ownedAgency target.id = some y := by
        rw [Directory.ownedAgency, hagencies₁]
        exact (ownedAgency_iff hvalid).mpr ⟨hyd, hid⟩
      have hdeleted := hmatches.2.mp (hnone hb2b rfl y hfound)
      have hstanding := hacts.standing
      rw [hdeleted] at hstanding
      cases hstanding
  · have hvalid₁ : d₁.Valid := hvalid.update hupdate fun old hold hne => by
      obtain rfl := Option.some.inj (hold.symm.trans hacts.found)
      exact (hrole hne).2.1
    obtain ⟨hyd, hid⟩ := (ownedAgency_iff hvalid₁).mp hy
    rw [hagencies₁] at hyd
    have hjoint := h.joint hvalid hvalid₁ hyd hid hupdate (fun _ _ => rfl) hset (by decide)
    exact hjoint.invalidate (hvalid₁.setAgency hset) hmembers

/-- An update of the status alone keeps the directory valid. -/
theorem Directory.Valid.status {status : Status} (h : d.Valid)
    (hupdate : d.updateUser id (fun u => { u with status := status }) = .ok d') : d'.Valid :=
  h.update hupdate fun _ _ hne => absurd rfl hne

/-- A user that owns no agency becomes the owner of a new one. -/
theorem provision_standing {y : Uuid} {code : String} (h : d.Standing) (hvalid : d.Valid)
    (howner : ∀ z ∈ d.agencies, z.ownerUserId ≠ id) (hprovision : d.provision id y code = .ok d') :
    d'.Standing := by
  simp only [Directory.provision, bind_eq_ok] at hprovision
  obtain ⟨d₁, hupdate, d₂, hinsert, hmembership⟩ := hprovision
  have hbecomes : d.Becomes id .active d₁ := updateUser_becomes hupdate fun _ _ => rfl
  obtain ⟨hagencies₁, hmembers₁, -⟩ := updateUser_frame hupdate
  obtain ⟨hnew, -, -, rfl⟩ := insertAgency_ok hinsert
  rw [hagencies₁] at hnew
  obtain ⟨-, -, -, d₃, hbump, rfl⟩ := insertMembership_ok hmembership
  have hkeeps := updateUser_keeps hbump fun _ => rfl
  have hall : d.Becomes id .active d₃ := hbecomes.keeps hkeeps
  have hagencies : d₃.agencies = d.agencies ++ [⟨y, code, id, .active, 1⟩] := by
    rw [(updateUser_frame hbump).1, ← hagencies₁]
  refine ⟨fun m hm hkind a ha hid => ?_, fun a ha u hu huid => ?_⟩
  · replace ha : a ∈ d.agencies ++ [⟨y, code, id, .active, 1⟩] := hagencies ▸ ha
    rcases List.mem_append.mp hm with hm | hm
    · replace hm : m ∈ d.memberships := hmembers₁ ▸ hm
      rcases List.mem_append.mp ha with ha | ha
      · exact h.owned m hm hkind a ha hid
      · -- a member of an agency that was there is no member of the new one
        obtain ⟨z, hz, hzid⟩ := hvalid.within m hm
        rw [List.mem_singleton.mp ha] at hid
        exact absurd (hzid.trans hid.symm) (hnew z hz)
    · rw [List.mem_singleton.mp hm] at hid ⊢
      rcases List.mem_append.mp ha with ha | ha
      · exact absurd hid (hnew a ha)
      · rw [List.mem_singleton.mp ha]
  · replace ha : a ∈ d.agencies ++ [⟨y, code, id, .active, 1⟩] := hagencies ▸ ha
    rcases List.mem_append.mp ha with ha | ha
    · have hne : u.id ≠ id := fun heq => howner a ha (huid.symm.trans heq)
      obtain ⟨v, hv, hvid, hvstatus⟩ := hall.others u hu hne
      rw [← hvstatus]
      exact h.coupled a ha v hv (hvid.trans huid)
    · rw [List.mem_singleton.mp ha] at huid ⊢
      rw [hall.own u hu huid]
      exact (by decide : AgencyStatus.active.matches .active)

/-- Whoever is added owns nothing. -/
theorem concat_standing {u : User} (h : d.Standing) (hc : d.Consistent) (hnew : ∀ u' ∈ d.users, u'.id ≠ u.id) :
    Directory.Standing { d with users := d.users ++ [u] } := by
  refine h.keeps rfl rfl fun u' hu' => ?_
  rcases List.mem_append.mp hu' with hu' | hu'
  · exact .inl ⟨u', hu', rfl, rfl⟩
  · rw [List.mem_singleton.mp hu']
    refine .inr fun a ha howner => ?_
    obtain ⟨v, hv, hid, -⟩ := hc.owners a ha
    exact hnew v hv (hid.trans howner)

theorem Directory.Valid.concat {u : User} (h : d.Valid)
    (hnew : ∀ u' ∈ d.users, u'.subject ≠ u.subject ∧ u'.id ≠ u.id) :
    Directory.Valid { d with users := d.users ++ [u] } := by
  refine ⟨keyUnique_concat.mpr ⟨h.ids, fun u' hu' => (hnew u' hu').2⟩,
    keyUnique_concat.mpr ⟨h.subjects, fun u' hu' => (hnew u' hu').1⟩, h.agencies, h.codes, h.owners, h.members,
    fun m hm => ?_, h.within⟩
  obtain ⟨v, hv, hknown⟩ := h.known m hm
  exact ⟨v, List.mem_append_left _ hv, hknown⟩

theorem admits_standing {role : Role} {agency : Option Uuid} (h : d.Standing) (hvalid : d.Valid)
    (howner : ∀ z ∈ d.agencies, z.ownerUserId ≠ id) (hadmits : d.Admits id role agency d') : d'.Standing := by
  have hgrant : ∀ {d₁}, d.updateUser id (fun u => { u with role := role, status := .active }) = .ok d₁ →
      d₁.Standing := by
    intro d₁ hupdate
    obtain ⟨hagencies₁, hmembers₁, -⟩ := updateUser_frame hupdate
    refine h.becomes hmembers₁ (fun a ha => ⟨a, hagencies₁ ▸ ha, rfl, rfl, fun _ => rfl⟩)
      (fun a ha hid => absurd hid (howner a (hagencies₁ ▸ ha))) (updateUser_becomes hupdate fun _ _ => rfl)
  cases hadmits with
  | owner _ x code _ hprovision => exact provision_standing h hvalid howner hprovision
  | customer _ => exact h
  | staff _ _ hrole hupdate => exact hgrant hupdate
  | member _ x d₁ _ hrole hupdate hmember =>
    have h₁ := hgrant hupdate
    obtain ⟨-, -, -, d₂, hbump, rfl⟩ := insertMembership_ok hmember
    obtain ⟨hagencies₂, -, -⟩ := updateUser_frame hbump
    refine ⟨fun m hm hkind a ha hid => ?_, fun a ha u hu huid => ?_⟩
    · rcases List.mem_append.mp hm with hm | hm
      · exact h₁.owned m hm hkind a (hagencies₂ ▸ ha) hid
      · -- the new member is a sub-user
        rw [List.mem_singleton.mp hm] at hkind
        cases hkind
    · obtain ⟨v, hv, hvid, hvstatus⟩ := updateUser_keeps hbump (fun _ => rfl) u hu
      rw [← hvstatus]
      exact h₁.coupled a (hagencies₂ ▸ ha) v hv (hvid.trans huid)

theorem contain_standing {u : User} (h : d.Standing) (hvalid : d.Valid) (hu : d.user u.id = some u)
    (hsuspend : d.suspendUser u.id = .ok d₁) (hagency : d₁.suspendOwned u.id = .ok d') : d'.Standing := by
  rw [Directory.suspendUser] at hsuspend
  rw [Directory.suspendOwned] at hagency
  split at hsuspend
  · -- a user that is not active has no active agency
    rename_i hnone
    obtain rfl := pure_eq_ok.mp hsuspend
    split at hagency
    · obtain rfl := pure_eq_ok.mp hagency
      exact h
    · rename_i y hy
      obtain ⟨hfound, hactive⟩ := Option.filter_eq_some_iff.mp hy
      obtain ⟨hyd, hid⟩ := (ownedAgency_iff hvalid).mp hfound
      have hstatus := (h.coupled y hyd u (lookup_mem hu) hid.symm).1.mp (by simpa using hactive)
      rw [hu, Option.filter_some, hstatus] at hnone
      cases hnone
  · rename_i v hv
    obtain ⟨hfound, hlive⟩ := Option.filter_eq_some_iff.mp hv
    obtain rfl := Option.some.inj (hfound.symm.trans hu)
    have hvalid₁ := hvalid.status hsuspend
    obtain ⟨hagencies₁, hmembers₁, -⟩ := updateUser_frame hsuspend
    split at hagency
    · rename_i hnone
      obtain rfl := pure_eq_ok.mp hagency
      refine h.becomes hmembers₁ (fun a ha => ⟨a, hagencies₁ ▸ ha, rfl, rfl, fun _ => rfl⟩) (fun a ha hid => ?_)
        (updateUser_becomes hsuspend fun _ _ => rfl)
      have hmatches := h.coupled a (hagencies₁ ▸ ha) v (lookup_mem hu) hid.symm
      have hinactive : a.status ≠ .active := by
        intro hactive
        rw [(ownedAgency_iff hvalid₁).mpr ⟨ha, hid⟩, Option.filter_some, hactive] at hnone
        cases hnone
      refine ⟨⟨fun hactive => absurd hactive hinactive, fun hfalse => by cases hfalse⟩,
        fun harchived => ?_, fun hfalse => by cases hfalse⟩
      rw [hmatches.2.mp harchived] at hlive
      cases hlive
    · rename_i y hy
      obtain ⟨d₂, hset, hmembers⟩ := bind_eq_ok.mp hagency
      obtain ⟨hfound, -⟩ := Option.filter_eq_some_iff.mp hy
      obtain ⟨hyd, hid⟩ := (ownedAgency_iff hvalid₁).mp hfound
      rw [hagencies₁] at hyd
      have hjoint := h.joint hvalid hvalid₁ hyd hid hsuspend (fun _ _ => rfl) hset (by decide)
      exact hjoint.invalidate (hvalid₁.setAgency hset) hmembers

theorem deny_standing {a target : User} (h : d.Standing) (hvalid : d.Valid) (hacts : d.Acts a target)
    (hupdate : d.updateUser target.id (fun u => { u with status := .deleting }) = .ok d₁)
    (hagency : d₁.suspendAgency ((d.ownedAgency target.id).map Agency.id) = .ok d') : d'.Standing := by
  have htarget := lookup_mem hacts.found
  have hvalid₁ := hvalid.status hupdate
  obtain ⟨hagencies₁, hmembers₁, -⟩ := updateUser_frame hupdate
  rw [Directory.suspendAgency] at hagency
  split at hagency
  · rename_i hnone
    obtain rfl := pure_eq_ok.mp hagency
    refine h.becomes hmembers₁ (fun y hy => ⟨y, hagencies₁ ▸ hy, rfl, rfl, fun _ => rfl⟩) (fun y hy hid => ?_)
      (updateUser_becomes hupdate fun _ _ => rfl)
    have hyd : y ∈ d.agencies := hagencies₁ ▸ hy
    have hmatches := h.coupled y hyd target htarget hid.symm
    have hinactive : y.status ≠ .active := by
      intro hactive
      rw [(ownedAgency_iff hvalid).mpr ⟨hyd, hid⟩] at hnone
      simp only [Option.map_some, Option.bind_some] at hnone
      rw [show d₁.agency y.id = some y from hvalid₁.agencies.lookup hy, Option.filter_some, hactive] at hnone
      cases hnone
    refine ⟨⟨fun hactive => absurd hactive hinactive, fun hfalse => by cases hfalse⟩,
      fun harchived => ?_, fun hfalse => by cases hfalse⟩
    have hstanding := hacts.standing
    rw [hmatches.2.mp harchived] at hstanding
    cases hstanding
  · rename_i y hy
    obtain ⟨hfound, -⟩ := Option.filter_eq_some_iff.mp hy
    obtain ⟨yid, hmap, hy₁⟩ := Option.bind_eq_some_iff.mp hfound
    obtain ⟨z, hz, rfl⟩ := Option.map_eq_some_iff.mp hmap
    obtain ⟨hzd, hid⟩ := (ownedAgency_iff hvalid).mp hz
    obtain rfl := hvalid₁.agencies.eq_of_key (lookup_mem hy₁) (hagencies₁ ▸ hzd) (lookup_key hy₁)
    exact h.joint hvalid hvalid₁ hzd hid hupdate (fun _ _ => rfl) hagency (by decide)

theorem erase_standing {target : User} {r : Deletion} (h : d.Standing) (hvalid : d.Valid)
    (hlink : r.agencyId = (d.ownedAgency target.id).map Agency.id)
    (hupdate : d.updateUser target.id (fun u => { u with status := .deleted }) = .ok d₁)
    (hagency : d₁.archiveAgency r.agencyId = .ok d') : d'.Standing := by
  have hvalid₁ := hvalid.status hupdate
  obtain ⟨hagencies₁, hmembers₁, -⟩ := updateUser_frame hupdate
  rw [Directory.archiveAgency, hlink] at hagency
  split at hagency
  · rename_i hnone
    obtain rfl := pure_eq_ok.mp hagency
    refine h.becomes hmembers₁ (fun y hy => ⟨y, hagencies₁ ▸ hy, rfl, rfl, fun _ => rfl⟩) (fun y hy hid => ?_)
      (updateUser_becomes hupdate fun _ _ => rfl)
    have harchived : y.status = .archived := by
      rw [(ownedAgency_iff hvalid).mpr ⟨hagencies₁ ▸ hy, hid⟩] at hnone
      simp only [Option.map_some, Option.bind_some] at hnone
      rw [show d₁.agency y.id = some y from hvalid₁.agencies.lookup hy] at hnone
      simpa using hnone
    rw [harchived]
    decide
  · rename_i y hy
    obtain ⟨hfound, -⟩ := Option.filter_eq_some_iff.mp hy
    obtain ⟨yid, hmap, hy₁⟩ := Option.bind_eq_some_iff.mp hfound
    obtain ⟨z, hz, rfl⟩ := Option.map_eq_some_iff.mp hmap
    obtain ⟨hzd, hid⟩ := (ownedAgency_iff hvalid).mp hz
    obtain rfl := hvalid₁.agencies.eq_of_key (lookup_mem hy₁) (hagencies₁ ▸ hzd) (lookup_key hy₁)
    exact h.joint hvalid hvalid₁ hzd hid hupdate (fun _ _ => rfl) hagency (by decide)

/-! ## Agencies that deletions name -/

/-- The agency a deletion names is the one its target owns. -/
def Directory.Linked (d : Directory) (x : Deletions) : Prop :=
  ∀ r ∈ x.rows, r.agencyId = (d.ownedAgency r.targetUserId).map Agency.id

theorem Deed.standing (h : Deed d x i ev d') (hvalid : d.Valid) (hc : d.Consistent) (hs : d.Standing)
    (hlinked : d.Linked x) : d'.Standing := by
  cases h with
  | rest => exact hs
  | rename id f _ hupdate hsame =>
    obtain ⟨hagencies, hmembers, -⟩ := updateUser_frame hupdate
    exact hs.keeps hmembers hagencies fun u hu => .inl (updateUser_keeps hupdate (fun u => (hsame u).2.1) u hu)
  | bootstrap u hempty hu hev =>
    refine ⟨hs.owned, fun a ha => ?_⟩
    obtain ⟨v, hv, -⟩ := hc.owners a ha
    rw [hempty] at hv
    cases hv
  | onboard u _ hev hu hinsert =>
    obtain ⟨hnew, -, rfl⟩ := insertUser_ok hinsert
    exact concat_standing hs hc hnew
  | assign a target role status d₁ _ hby hacts hchange hrole hstatus husable hlast hupdate hagency =>
    exact assign_standing hs hvalid hc hacts hchange hrole hstatus husable hupdate hagency
  | reactivate a target y d₁ d₂ _ hby hacts hrole hstatus hagency hsuspended hupdate hset hmembers =>
    obtain ⟨hy, hid⟩ := (ownedAgency_iff hvalid).mp hagency
    have hvalid₁ := hvalid.status hupdate
    have hjoint := hs.joint hvalid hvalid₁ hy hid hupdate (fun _ _ => rfl) hset (by decide)
    exact hjoint.invalidate (hvalid₁.setAgency hset) hmembers
  | provision a target y code _ hby hacts hgrants hcustomer hmember howner hprovision =>
    exact provision_standing hs hvalid howner hprovision
  | enrol a u role agency _ hby hgrants hnew hu hadmits =>
    refine admits_standing (concat_standing hs hc fun u' hu' => (hnew u' hu').2) (hvalid.concat hnew) ?_ hadmits
    intro z hz howner
    obtain ⟨v, hv, hid, -⟩ := hc.owners z hz
    exact (hnew v hv).2 (hid.trans howner)
  | contain u d₁ _ hu hev hsuspend hagency => exact contain_standing hs hvalid hu hsuspend hagency
  | deny a target d₁ _ hby hacts hlive hlast hupdate hagency => exact deny_standing hs hvalid hacts hupdate hagency
  | erase a target r d₁ _ hr hconfirmed hid hby hactor htarget hstatus hlive hupdate hagency =>
    exact erase_standing hs hvalid (hid ▸ hlinked r hr) hupdate hagency

/-- The agencies with their owners. -/
def Directory.titles (d : Directory) : List (Uuid × Uuid) := d.agencies.map fun a => (a.id, a.ownerUserId)

theorem ownedAgency_titles (d : Directory) (owner : Uuid) :
    (d.ownedAgency owner).map Agency.id = (lookup Prod.snd owner d.titles).map Prod.fst := by
  rw [Directory.ownedAgency, Directory.titles, lookup, lookup, List.find?_map, Option.map_map]
  rfl

theorem setAgency_titles {status : AgencyStatus} (hvalid : d.Valid) (h : d.setAgency id status = .ok d') :
    d'.titles = d.titles := by
  obtain ⟨-, rfl⟩ | ⟨old, hold, -, rfl⟩ := setAgency_ok h
  · rfl
  rw [Directory.titles, Directory.titles, Library.modify, List.map_map]
  apply List.map_congr_left
  intro a ha
  simp only [Function.comp]
  split
  · rename_i hid
    rw [hvalid.agencies.eq_of_key ha (lookup_mem hold) (hid.trans (lookup_key hold).symm)]
  · rfl

theorem titles_of_agencies (h : d'.agencies = d.agencies) : d'.titles = d.titles := by
  rw [Directory.titles, h, Directory.titles]

theorem provision_titles {y : Uuid} {code : String} (h : d.provision id y code = .ok d') :
    d'.titles = d.titles ++ [(y, id)] := by
  simp only [Directory.provision, bind_eq_ok] at h
  obtain ⟨d₁, hupdate, d₂, hinsert, hmembership⟩ := h
  obtain ⟨-, -, -, rfl⟩ := insertAgency_ok hinsert
  obtain ⟨-, -, -, d₃, hbump, rfl⟩ := insertMembership_ok hmembership
  rw [Directory.titles, (updateUser_frame hbump).1, (updateUser_frame hupdate).1, List.map_append]
  rfl

/-- A deed keeps the owners of agencies, and a new agency is for somebody who is not on the way out. -/
theorem Deed.titles (h : Deed d x i ev d') (hvalid : d.Valid) :
    d'.titles = d.titles ∨ ∃ y owner, d'.titles = d.titles ++ [(y, owner)] ∧
      ∀ u ∈ d.users, u.id = owner → u.status.terminal = false := by
  cases h with
  | rest => exact .inl rfl
  | rename id f _ hupdate hsame => exact .inl (titles_of_agencies (updateUser_frame hupdate).1)
  | bootstrap u hempty hu hev => exact .inl rfl
  | onboard u _ hev hu hinsert =>
    obtain ⟨-, -, rfl⟩ := insertUser_ok hinsert
    exact .inl rfl
  | assign a target role status d₁ _ hby hacts hchange hrole hstatus husable hlast hupdate hagency =>
    have hfirst := titles_of_agencies (updateUser_frame hupdate).1
    rcases hagency with ⟨-, rfl⟩ | ⟨-, -, y, d₂, -, -, hset, hmembers⟩
    · exact .inl hfirst
    · have hvalid₁ : d₁.Valid := hvalid.update hupdate fun old hold hne => by
        obtain rfl := Option.some.inj (hold.symm.trans hacts.found)
        exact (hrole hne).2.1
      have hlast := titles_of_agencies (invalidateMembers_raises (hvalid₁.setAgency hset) hmembers).2.1
      exact .inl ((hlast.trans (setAgency_titles hvalid₁ hset)).trans hfirst)
  | reactivate a target y d₁ d₂ _ hby hacts hrole hstatus hagency hsuspended hupdate hset hmembers =>
    have hvalid₁ := hvalid.status hupdate
    have hfirst := titles_of_agencies (updateUser_frame hupdate).1
    have hlast := titles_of_agencies (invalidateMembers_raises (hvalid₁.setAgency hset) hmembers).2.1
    exact .inl ((hlast.trans (setAgency_titles hvalid₁ hset)).trans hfirst)
  -- whom an actor may act on is not on the way out
  | provision a target y code _ hby hacts hgrants hcustomer hmember howner hprovision =>
    refine .inr ⟨y, target.id, provision_titles hprovision, fun u hu hid => ?_⟩
    obtain rfl := hvalid.ids.eq_of_key hu (lookup_mem hacts.found) hid
    exact hacts.standing
  -- an invited owner is a new user, and no row of the directory has its id yet
  | enrol a u role agency _ hby hgrants hnew hu hadmits =>
    cases hadmits with
    | owner _ y code _ hprovision =>
      have htitles := provision_titles hprovision
      exact .inr ⟨y, u.id, htitles, fun v hv hid => absurd hid (hnew v hv).2⟩
    | customer _ => exact .inl rfl
    | staff _ _ hrole hupdate => exact .inl (titles_of_agencies (updateUser_frame hupdate).1)
    | member _ y d₁ _ hrole hupdate hmember =>
      obtain ⟨-, -, -, d₂, hbump, rfl⟩ := insertMembership_ok hmember
      exact .inl (titles_of_agencies ((updateUser_frame hbump).1.trans (updateUser_frame hupdate).1))
  | contain u d₁ _ hu hev hsuspend hagency =>
    have hvalid₁ : d₁.Valid := hvalid.stmts (suspendUser_stmts (i := ⟨[], [], 0⟩) (b := fun _ => False) hsuspend)
    have hfirst : d₁.titles = d.titles := by
      rw [Directory.suspendUser] at hsuspend
      split at hsuspend
      · rw [pure_eq_ok.mp hsuspend]
      · exact titles_of_agencies (updateUser_frame hsuspend).1
    rw [Directory.suspendOwned] at hagency
    split at hagency
    · obtain rfl := pure_eq_ok.mp hagency
      exact .inl hfirst
    · obtain ⟨d₂, hset, hmembers⟩ := bind_eq_ok.mp hagency
      have hlast := titles_of_agencies (invalidateMembers_raises (hvalid₁.setAgency hset) hmembers).2.1
      exact .inl ((hlast.trans (setAgency_titles hvalid₁ hset)).trans hfirst)
  | deny a target d₁ _ hby hacts hlive hlast hupdate hagency =>
    have hfirst := titles_of_agencies (updateUser_frame hupdate).1
    rw [Directory.suspendAgency] at hagency
    split at hagency
    · obtain rfl := pure_eq_ok.mp hagency
      exact .inl hfirst
    · exact .inl ((setAgency_titles (hvalid.status hupdate) hagency).trans hfirst)
  | erase a target r d₁ _ hr hconfirmed hid hby hactor htarget hstatus hlive hupdate hagency =>
    have hfirst := titles_of_agencies (updateUser_frame hupdate).1
    rw [Directory.archiveAgency] at hagency
    split at hagency
    · obtain rfl := pure_eq_ok.mp hagency
      exact .inl hfirst
    · exact .inl ((setAgency_titles (hvalid.status hupdate) hagency).trans hfirst)

/-- Who is on the way out keeps its agency, or none. -/
theorem Deed.keeps_owned {u : User} (h : Deed d x i ev d') (hvalid : d.Valid) (hu : u ∈ d.users)
    (hterminal : u.status.terminal) :
    (d'.ownedAgency u.id).map Agency.id = (d.ownedAgency u.id).map Agency.id := by
  rw [ownedAgency_titles, ownedAgency_titles]
  rcases h.titles hvalid with hsame | ⟨y, owner, hconcat, hstanding⟩
  · rw [hsame]
  · have hne : owner ≠ u.id := by
      intro heq
      rw [hstanding u hu heq.symm] at hterminal
      cases hterminal
    rw [hconcat, lookup_concat, if_neg hne, Option.or_none]

/-! ## In every reachable state -/

/-- A deletion that was there names the agency it named. -/
theorem linked_kept {r r' : Deletion} (hregistered : Registered s) (hlinked : s.db.directory.Linked s.db.deletions)
    (hs : s.step desk ev = .ok s') (hr : r ∈ s.db.deletions.rows) (hfixed : r'.fixed = r.fixed) :
    r'.agencyId = (s'.db.directory.ownedAgency r'.targetUserId).map Agency.id := by
  obtain ⟨u, hu, hid, -, hstatus⟩ := hregistered.targets r hr
  obtain ⟨-, htarget, -, hagency, -⟩ := Deletion.of_fixed hfixed
  have hterminal : u.status.terminal := by
    rw [hstatus]
    split <;> rfl
  rw [hagency, htarget, hlinked r hr, ← hid]
  exact ((step_deed hregistered.directory hs).keeps_owned hregistered.directory hu hterminal).symm

theorem step_linked (hregistered : Registered s) (hlinked : s.db.directory.Linked s.db.deletions)
    (hs : s.step desk ev = .ok s') : s'.db.directory.Linked s'.db.deletions := by
  intro r' hr'
  obtain ⟨r, hr | ⟨-, input, now, rfl, -⟩, hnext⟩ :=
    ((step_deletions hs).extends hregistered.deletions).traced r' hr'
  · exact linked_kept hregistered hlinked hs hr hnext.fixed
  · have hs' := hs
    obtain ⟨db, hrun, hstep⟩ := bind_eq_ok.mp hs
    obtain rfl := pure_eq_ok.mp hstep
    obtain rfl | ⟨a, target, -, -, -, -, -, -, -, -, -, hcommit⟩ := prepareDeletion_ok hrun
    · exact linked_kept hregistered hlinked hs' hr' rfl
    obtain ⟨d₁, d₂, access, hupdate, hsuspend, -, rfl, -⟩ := commitDeletion_ok hcommit
    rcases List.mem_append.mp hr' with hold | hnew
    · exact linked_kept hregistered hlinked hs' hold rfl
    · rw [List.mem_singleton.mp hnew]
      -- the target owned the agency before, and nothing has been given to anybody since
      have hfirst := titles_of_agencies (updateUser_frame hupdate).1
      have htitles : d₂.titles = s.db.directory.titles := by
        rw [Directory.suspendAgency] at hsuspend
        split at hsuspend
        · rw [← pure_eq_ok.mp hsuspend]
          exact hfirst
        · exact (setAgency_titles (hregistered.directory.status hupdate) hsuspend).trans hfirst
      show Option.map Agency.id (s.db.directory.ownedAgency target.id) =
        Option.map Agency.id (d₂.ownedAgency target.id)
      rw [ownedAgency_titles, ownedAgency_titles, htitles]

/-- What the identities of every reachable state keep. -/
structure Orderly (s : System) : Prop where
  registered : Registered s
  consistent : s.db.directory.Consistent
  standing : s.db.directory.Standing
  linked : s.db.directory.Linked s.db.deletions

namespace Orderly

theorem start (b : Business) : Orderly (.start b) where
  registered := registered_start b
  consistent := Directory.consistent_empty
  standing := ⟨fun _ h => absurd h List.not_mem_nil, fun _ h => absurd h List.not_mem_nil⟩
  linked _ h := absurd h List.not_mem_nil

theorem step (h : Orderly s) (hs : s.step desk ev = .ok s') : Orderly s' where
  registered := h.registered.step hs
  consistent := step_consistent h.registered h.consistent hs
  standing := (step_deed h.registered.directory hs).standing h.registered.directory h.consistent h.standing h.linked
  linked := step_linked h.registered h.linked hs

end Orderly

theorem orderly_of_reachable (h : (machine desk).Reachable s) : Orderly s := by
  refine h.invariant ?_ fun _ _ _ h hs => h.step hs
  rintro _ ⟨b, -, rfl⟩
  exact .start b

end ShaponTravels.Identity
