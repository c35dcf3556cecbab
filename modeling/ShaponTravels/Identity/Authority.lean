import ShaponTravels.Identity.ProfileEdits
import ShaponTravels.Identity.Standing

/-!
# Authority — what a business request may rely on until it commits

The authorization version of a user counts the changes of its role, its status and its membership and
the suspensions of its agency; a transaction that finds it unchanged finds the authority unchanged.
-/

namespace ShaponTravels.Identity

open Library

variable {desk : Desk} {db : Db} {d d' d₁ d₂ : Directory} {x : Deletions} {i : Invitations} {ev : Event} {s s' : System}
  {u u' : User}

/-! ## What stays with a version -/

/-- The membership of a user and what its agency is. -/
structure Directory.Still (d d' : Directory) (u : User) : Prop where
  membership : d'.membership u.id = d.membership u.id
  agency : u.status ≠ .deleted → ∀ m, d.membership u.id = some m → ∃ y y', d.agency m.agencyId = some y ∧
    d'.agency m.agencyId = some y' ∧ y'.code = y.code ∧ y'.ownerUserId = y.ownerUserId ∧ y'.status = y.status

/-- Rows are added that are not about the user. -/
theorem still_of_concat (ms : List Membership) (ys : List Agency) (hvalid : d.Valid)
    (hmembers : d'.memberships = d.memberships ++ ms) (hms : ∀ m ∈ ms, m.userId ≠ u.id)
    (hagencies : d'.agencies = d.agencies ++ ys) : d.Still d' u := by
  have hfound : ∀ {α : Type} {κ : Type} [DecidableEq κ] (key : α → κ) (k : κ) (l l' : List α) (r : α),
      lookup key k l = some r → lookup key k (l ++ l') = some r := by
    intro α κ _ key k l l' r h
    rw [lookup, List.find?_append, show List.find? (fun r => key r = k) l = some r from h]
    rfl
  refine ⟨?_, fun _ m hm => ?_⟩
  · have hnone : ms.find? (fun m => m.userId = u.id) = none :=
      List.find?_eq_none.mpr fun m hm => by simpa using hms m hm
    rw [Directory.membership, hmembers, lookup, List.find?_append, hnone, Option.or_none]
    rfl
  · obtain ⟨y, hy, hid⟩ := hvalid.within m (lookup_mem hm)
    have hold : d.agency m.agencyId = some y := hid ▸ hvalid.agencies.lookup hy
    refine ⟨y, y, hold, ?_, rfl, rfl, rfl⟩
    rw [Directory.agency, hagencies]
    exact hfound _ _ _ _ _ hold

theorem still_of_same (hvalid : d.Valid) (hmembers : d'.memberships = d.memberships)
    (hagencies : d'.agencies = d.agencies) : d.Still d' u :=
  still_of_concat [] [] hvalid (by rw [hmembers, List.append_nil])
    (fun _ h => absurd h List.not_mem_nil) (by rw [hagencies, List.append_nil])

/-- An update that changes the role or the status raises the version. -/
theorem updateUser_raises {f : User → User} (hu : d.user u.id = some u)
    (h : d.updateUser u.id f = .ok d') (hchange : (f u).role ≠ u.role ∨ (f u).status ≠ u.status) :
    ∃ row, d'.user u.id = some row ∧ u.authorizationVersion < row.authorizationVersion := by
  obtain ⟨row, hguard, hrow⟩ := user_updateUser h hu
  refine ⟨row, hrow, ?_⟩
  rcases hguard.row_authorization with ⟨-, hrole, hstatus, -⟩ | hraised
  · rcases hchange with hne | hne
    · exact absurd (hguard.row_role.symm.trans hrole) hne
    · exact absurd (hguard.row_status.symm.trans hstatus) hne
  · omega

/-- The status of an owner is written and that of its agency, and the sub-users are raised: whoever is
not raised is not of that agency. -/
theorem joint_still {target : User} {y : Agency} {f : User → User} {status : AgencyStatus} {ids : List Uuid}
    (hvalid : d.Valid) (hs : d.Standing) (hvalid₁ : d₁.Valid) (hvalid' : d'.Valid)
    (htarget : d.user target.id = some target) (hy : y ∈ d.agencies) (howner : y.ownerUserId = target.id)
    (hupdate : d.updateUser target.id f = .ok d₁)
    (hchange : (f target).role ≠ target.role ∨ (f target).status ≠ target.status)
    (hset : d₁.setAgency y.id status = .ok d₂) (hlater : Follows (User.Raised ids) (fun _ => False) d₂.users d'.users)
    (hagencies : d'.agencies = d₂.agencies) (hmembers : d'.memberships = d₂.memberships)
    (hids : ∀ m ∈ d.memberships, m.agencyId = y.id → m.kind = .sub →
      m.userId ∈ ids ∨ ∀ v ∈ d.users, v.id = m.userId → v.status = .deleted)
    (hu : u ∈ d.users) (hu' : u' ∈ d'.users) (hid : u'.id = u.id)
    (hsame : u'.authorizationVersion = u.authorizationVersion) : d.Still d' u := by
  obtain ⟨hagencies₁, hmembers₁, -⟩ := updateUser_frame hupdate
  obtain ⟨hagencies₂, husers₂, hmembers₂⟩ := setAgency_agencies hvalid₁ (hagencies₁ ▸ hy) hset
  -- a raised user is another one than `u`
  have hnot : ∀ row ∈ d₁.users, row.id = u.id → ¬ (u.authorizationVersion < row.authorizationVersion) ∧
      (u.authorizationVersion ≤ row.authorizationVersion → u.id ∉ ids) := by
    intro row hrow hrowid
    obtain ⟨last, hlast, hraised⟩ := hlater.kept row (husers₂ ▸ hrow)
    obtain rfl := hvalid'.ids.eq_of_key hlast hu' (hraised.id.trans (hrowid.trans hid.symm))
    have hle := hraised.version
    refine ⟨fun hlt => by omega, fun hge hmem => ?_⟩
    have hlt := hraised.raised (hrowid ▸ hmem)
    omega
  have hne : u.id ≠ target.id := by
    intro heq
    obtain rfl := hvalid.ids.eq_of_key hu (lookup_mem htarget) heq
    obtain ⟨row, hrow, hlt⟩ := updateUser_raises htarget hupdate hchange
    exact (hnot row (lookup_mem hrow) (lookup_key hrow)).1 hlt
  have hu₁ : u ∈ d₁.users := by
    have hfound := user_updateUser_ne hupdate hne
    rw [show d.user u.id = some u from hvalid.ids.lookup hu] at hfound
    exact lookup_mem hfound
  have hunlisted := (hnot u hu₁ rfl).2 (le_refl _)
  have hm : d'.memberships = d.memberships := hmembers.trans (hmembers₂.trans hmembers₁)
  refine ⟨by rw [Directory.membership, hm, Directory.membership], fun hlive m hfound => ?_⟩
  have hmem := lookup_mem hfound
  have huser : m.userId = u.id := lookup_key hfound
  obtain ⟨z, hz, hzid⟩ := hvalid.within m hmem
  have hother : m.agencyId ≠ y.id := by
    intro heq
    cases hkind : m.kind with
    | owner => exact hne (huser.symm.trans ((hs.owned m hmem hkind y hy heq.symm).symm.trans howner))
    | sub =>
      rcases hids m hmem heq hkind with hlisted | hdeleted
      · exact hunlisted (huser ▸ hlisted)
      · exact hlive (hdeleted u hu huser.symm)
  have hz' : z ∈ d'.agencies := by
    rw [hagencies]
    obtain ⟨-, rfl⟩ | ⟨old, -, -, rfl⟩ := setAgency_ok hset
    · exact hagencies₁ ▸ hz
    · exact mem_modify_of_ne (hagencies₁ ▸ hz) (hzid ▸ hother)
  exact ⟨z, z, hzid ▸ hvalid.agencies.lookup hz, hzid ▸ hvalid'.agencies.lookup hz', rfl, rfl, rfl⟩

/-- The sub-users of an agency are the members `invalidate_members` raises. -/
theorem mem_subs {m : Membership} {agency : Uuid} (hm : m ∈ d.memberships) (hagency : m.agencyId = agency)
    (hkind : m.kind = .sub) : m.userId ∈ d.subs agency :=
  List.mem_map.mpr ⟨m, List.mem_filter.mpr ⟨hm, by simp [hagency, hkind]⟩, rfl⟩

/-- Nobody but the listed is raised by an agency whose sub-users are all deleted. -/
theorem deserted_listed {agency : Uuid} {ids : List Uuid} (h : d.Deserted (some agency)) :
    ∀ m ∈ d.memberships, m.agencyId = agency → m.kind = .sub →
      m.userId ∈ ids ∨ ∀ v ∈ d.users, v.id = m.userId → v.status = .deleted :=
  fun m hm hagency hkind => .inr (h m hm (by rw [hagency]) hkind)

/-- A user that is the owner of nothing gets an agency. -/
theorem provision_still {id y : Uuid} {code : String} (hvalid : d.Valid) (hprovision : d.provision id y code = .ok d')
    (hne : u.id ≠ id) : d.Still d' u := by
  simp only [Directory.provision, bind_eq_ok] at hprovision
  obtain ⟨d₁, hupdate, d₂, hinsert, hmembership⟩ := hprovision
  obtain ⟨hagencies₁, hmembers₁, -⟩ := updateUser_frame hupdate
  obtain ⟨-, -, -, rfl⟩ := insertAgency_ok hinsert
  obtain ⟨-, -, -, d₃, hbump, rfl⟩ := insertMembership_ok hmembership
  refine still_of_concat [⟨id, y, .owner⟩] [⟨y, code, id, .active, 1⟩] hvalid ?_ ?_ ?_
  · show d₁.memberships ++ _ = _
    rw [hmembers₁]
  · intro m hm
    rw [List.mem_singleton.mp hm]
    exact hne.symm
  · show d₃.agencies = _
    rw [(updateUser_frame hbump).1, ← hagencies₁]

/-- A user that becomes the owner of an agency is raised. -/
theorem provision_raises {y : Uuid} {code : String} (hvalid' : d'.Valid) (hu : d.user u.id = some u)
    (hcustomer : u.role = .customer) (h : d.provision u.id y code = .ok d') (hu' : u' ∈ d'.users)
    (hid : u'.id = u.id) : u.authorizationVersion < u'.authorizationVersion := by
  simp only [Directory.provision, bind_eq_ok] at h
  obtain ⟨d₁, hupdate, d₂, hinsert, hmembership⟩ := h
  have hchange : Role.b2b ≠ u.role := by
    rw [hcustomer]
    decide
  obtain ⟨row, hrow, hlt⟩ := updateUser_raises hu hupdate (.inl hchange)
  obtain ⟨-, -, -, rfl⟩ := insertAgency_ok hinsert
  obtain ⟨-, -, -, d₃, hbump, rfl⟩ := insertMembership_ok hmembership
  obtain ⟨last, hguard, hlast⟩ := user_updateUser hbump hrow
  obtain rfl := hvalid'.ids.eq_of_key (lookup_mem hlast) hu' ((lookup_key hlast).trans hid.symm)
  rcases hguard.row_authorization with ⟨hsame, -⟩ | hraised <;> omega

theorem Deed.still (h : Deed d x i ev d') (hvalid : d.Valid) (hvalid' : d'.Valid)
    (hs : d.Standing) (hlinked : d.Linked x) (hu : u ∈ d.users) (hu' : u' ∈ d'.users) (hid : u'.id = u.id)
    (hsame : u'.authorizationVersion = u.authorizationVersion) : d.Still d' u := by
  cases h with
  | rest => exact still_of_same hvalid rfl rfl
  | rename id f _ hupdate hf =>
    obtain ⟨hagencies, hmembers, -⟩ := updateUser_frame hupdate
    exact still_of_same hvalid hmembers hagencies
  | bootstrap v hempty hv hev => exact still_of_same hvalid rfl rfl
  | onboard v _ hev hv hinsert =>
    obtain ⟨-, -, rfl⟩ := insertUser_ok hinsert
    exact still_of_same hvalid rfl rfl
  | assign a target role status d₁ _ hby hacts hchange hrole hstatus husable hlast hupdate hagency =>
    obtain ⟨hagencies₁, hmembers₁, -⟩ := updateUser_frame hupdate
    rcases hagency with ⟨-, rfl⟩ | ⟨hb2b, hsuspended, y, d₂, hy, -, hset, hmembers⟩
    · exact still_of_same hvalid hmembers₁ hagencies₁
    · have hvalid₁ : d₁.Valid := hvalid.update hupdate fun old hold hne => by
        obtain rfl := Option.some.inj (hold.symm.trans hacts.found)
        exact (hrole hne).2.1
      obtain ⟨hyd, howner⟩ := (ownedAgency_iff hvalid₁).mp hy
      obtain ⟨hlater, hagencies₃, hmembers₃⟩ := invalidateMembers_raises (hvalid₁.setAgency hset) hmembers
      have hmembers₂ := (setAgency_agencies hvalid₁ hyd hset).2.2
      rw [hagencies₁] at hyd
      refine joint_still hvalid hs hvalid₁ hvalid' hacts.found hyd howner hupdate ?_ hset hlater hagencies₃ hmembers₃
        (fun m hm hagency hkind => .inl (mem_subs ?_ hagency hkind)) hu hu' hid hsame
      · by_cases hrole' : role = target.role
        · exact .inr fun hstatus' => hchange ⟨hrole', hstatus'⟩
        · exact .inl hrole'
      · rw [hmembers₂, hmembers₁]
        exact hm
  | reactivate a target y d₁ d₂ _ hby hacts hrole hstatus hagency hsuspended hupdate hset hmembers =>
    obtain ⟨hyd, howner⟩ := (ownedAgency_iff hvalid).mp hagency
    obtain ⟨hagencies₁, hmembers₁, -⟩ := updateUser_frame hupdate
    have hvalid₁ := hvalid.status hupdate
    obtain ⟨hlater, hagencies₃, hmembers₃⟩ := invalidateMembers_raises (hvalid₁.setAgency hset) hmembers
    have hmembers₂ := (setAgency_agencies hvalid₁ (hagencies₁ ▸ hyd) hset).2.2
    refine joint_still hvalid hs hvalid₁ hvalid' hacts.found hyd howner hupdate (.inr ?_) hset hlater hagencies₃
      hmembers₃ (fun m hm hagency hkind => .inl (mem_subs ?_ hagency hkind)) hu hu' hid hsame
    · show Status.active ≠ target.status
      rw [hstatus]
      decide
    · rw [hmembers₂, hmembers₁]
      exact hm
  | provision a target y code _ hby hacts hgrants hcustomer hmember howner hprovision =>
    refine provision_still hvalid hprovision fun heq => ?_
    obtain rfl := hvalid.ids.eq_of_key hu (lookup_mem hacts.found) heq
    have hlt := provision_raises hvalid' hacts.found hcustomer hprovision hu' hid
    omega
  | enrol a v role agency _ hby hgrants hnew hv hadmits =>
    have hne : u.id ≠ v.id := (hnew u hu).2
    cases hadmits with
    | owner _ y code _ hprovision =>
      have hstill := provision_still (hvalid.concat hnew) hprovision hne
      exact ⟨hstill.membership, hstill.agency⟩
    | customer _ => exact still_of_same hvalid rfl rfl
    | staff _ _ hrole hupdate =>
      obtain ⟨hagencies, hmembers, -⟩ := updateUser_frame hupdate
      exact still_of_same hvalid hmembers hagencies
    | member _ y d₁ _ hrole hupdate hmember =>
      obtain ⟨hagencies₁, hmembers₁, -⟩ := updateUser_frame hupdate
      obtain ⟨-, -, -, d₂, hbump, rfl⟩ := insertMembership_ok hmember
      refine still_of_concat [⟨v.id, y, .sub⟩] [] hvalid ?_ ?_ ?_
      · show d₁.memberships ++ _ = _
        rw [hmembers₁]
      · intro m hm
        rw [List.mem_singleton.mp hm]
        exact hne.symm
      · show d₂.agencies = _
        rw [(updateUser_frame hbump).1, hagencies₁, List.append_nil]
  | contain v d₁ _ hv hev hsuspend hagency =>
    rw [Directory.suspendUser] at hsuspend
    rw [Directory.suspendOwned] at hagency
    split at hsuspend
    · obtain rfl := pure_eq_ok.mp hsuspend
      rename_i hnone
      split at hagency
      · obtain rfl := pure_eq_ok.mp hagency
        exact still_of_same hvalid rfl rfl
      · -- an active agency has an active owner, who would have been suspended first
        rename_i y hy
        obtain ⟨hfound, hactive⟩ := Option.filter_eq_some_iff.mp hy
        obtain ⟨hyd, howner⟩ := (ownedAgency_iff hvalid).mp hfound
        have hstatus := (hs.coupled y hyd v (lookup_mem hv) howner.symm).1.mp (by simpa using hactive)
        rw [hv, Option.filter_some, hstatus] at hnone
        cases hnone
    · rename_i w hw
      obtain ⟨hfound, hlive⟩ := Option.filter_eq_some_iff.mp hw
      obtain rfl := Option.some.inj (hfound.symm.trans hv)
      obtain ⟨hagencies₁, hmembers₁, -⟩ := updateUser_frame hsuspend
      have hvalid₁ := hvalid.status hsuspend
      split at hagency
      · obtain rfl := pure_eq_ok.mp hagency
        exact still_of_same hvalid hmembers₁ hagencies₁
      · rename_i y hy
        obtain ⟨d₂, hset, hmembers⟩ := bind_eq_ok.mp hagency
        obtain ⟨hfound, -⟩ := Option.filter_eq_some_iff.mp hy
        obtain ⟨hyd, howner⟩ := (ownedAgency_iff hvalid₁).mp hfound
        obtain ⟨hlater, hagencies₃, hmembers₃⟩ := invalidateMembers_raises (hvalid₁.setAgency hset) hmembers
        have hmembers₂ := (setAgency_agencies hvalid₁ hyd hset).2.2
        rw [hagencies₁] at hyd
        refine joint_still hvalid hs hvalid₁ hvalid' hv hyd howner hsuspend (.inr ?_) hset hlater hagencies₃ hmembers₃
          (fun m hm hagency hkind => .inl (mem_subs ?_ hagency hkind)) hu hu' hid hsame
        · intro heq
          rw [← show Status.suspended = w.status from heq] at hlive
          cases hlive
        · rw [hmembers₂, hmembers₁]
          exact hm
  | deny a target d₁ _ hby hacts hlive hlast hupdate hagency =>
    obtain ⟨hagencies₁, hmembers₁, -⟩ := updateUser_frame hupdate
    have hvalid₁ := hvalid.status hupdate
    rw [Directory.suspendAgency] at hagency
    split at hagency
    · obtain rfl := pure_eq_ok.mp hagency
      exact still_of_same hvalid hmembers₁ hagencies₁
    · rename_i y hy
      obtain ⟨hfound, -⟩ := Option.filter_eq_some_iff.mp hy
      obtain ⟨yid, hmap, hy₁⟩ := Option.bind_eq_some_iff.mp hfound
      obtain ⟨z, hz, rfl⟩ := Option.map_eq_some_iff.mp hmap
      obtain ⟨hzd, howner⟩ := (ownedAgency_iff hvalid).mp hz
      obtain rfl := hvalid₁.agencies.eq_of_key (lookup_mem hy₁) (hagencies₁ ▸ hzd) (lookup_key hy₁)
      rw [hz] at hlive
      refine joint_still hvalid hs hvalid₁ hvalid' hacts.found hzd howner hupdate (.inr ?_) hagency
        (.refl User.Raised.refl _) rfl rfl (deserted_listed hlive) hu hu' hid hsame
      intro heq
      have hstanding := hacts.standing
      rw [← show Status.deleting = target.status from heq] at hstanding
      cases hstanding
  | erase a target r d₁ _ hr hconfirmed htid hby hactor htarget hstatus hlive hupdate hagency =>
    obtain ⟨hagencies₁, hmembers₁, -⟩ := updateUser_frame hupdate
    have hvalid₁ := hvalid.status hupdate
    have hlink := hlinked r hr
    rw [← htid] at hlink
    rw [Directory.archiveAgency, hlink] at hagency
    split at hagency
    · obtain rfl := pure_eq_ok.mp hagency
      exact still_of_same hvalid hmembers₁ hagencies₁
    · rename_i y hy
      obtain ⟨hfound, -⟩ := Option.filter_eq_some_iff.mp hy
      obtain ⟨yid, hmap, hy₁⟩ := Option.bind_eq_some_iff.mp hfound
      obtain ⟨z, hz, rfl⟩ := Option.map_eq_some_iff.mp hmap
      obtain ⟨hzd, howner⟩ := (ownedAgency_iff hvalid).mp hz
      obtain rfl := hvalid₁.agencies.eq_of_key (lookup_mem hy₁) (hagencies₁ ▸ hzd) (lookup_key hy₁)
      rw [hlink, hz] at hlive
      refine joint_still hvalid hs hvalid₁ hvalid' htarget hzd howner hupdate (.inr ?_) hagency
        (.refl User.Raised.refl _) rfl rfl (deserted_listed hlive) hu hu' hid hsame
      show Status.deleted ≠ target.status
      rw [hstatus]
      decide

/-! ## Between authorization and commit -/

/-- How a user is later in a run. -/
structure User.Later (u u' : User) : Prop where
  id : u'.id = u.id
  subject : u'.subject = u.subject
  version : u.authorizationVersion ≤ u'.authorizationVersion
  changed : u'.authorizationVersion = u.authorizationVersion → u'.role = u.role ∧ u'.status = u.status

theorem User.Later.refl (u : User) : u.Later u := ⟨rfl, rfl, le_refl _, fun _ => ⟨rfl, rfl⟩⟩

theorem User.Later.trans {u u' u'' : User} (h : u.Later u') (h' : u'.Later u'') : u.Later u'' := by
  have hle := h.version
  have hle' := h'.version
  refine ⟨h'.id.trans h.id, h'.subject.trans h.subject, hle.trans hle', fun hsame => ?_⟩
  obtain ⟨hrole', hstatus'⟩ := h'.changed (by omega)
  obtain ⟨hrole, hstatus⟩ := h.changed (by omega)
  exact ⟨hrole'.trans hrole, hstatus'.trans hstatus⟩

/-- Every user is there later. -/
def System.Ages (s s' : System) : Prop :=
  ∀ u ∈ s.db.directory.users, ∃ u' ∈ s'.db.directory.users, u.Later u'

theorem step_ages (h : Orderly s) (hs : s.step desk ev = .ok s') : s.Ages s' := by
  intro u hu
  obtain ⟨u', hu', hnext⟩ := (h.registered.step_users hs).2.kept u hu
  exact ⟨u', hu', hnext.id, hnext.subject, hnext.version, hnext.changed⟩

theorem run_ages {t : List (Transition System Event)} (h : Orderly s) (hrun : (machine desk).Run s t s') :
    s.Ages s' := by
  refine hrun.relates (I := Orderly) (R := System.Ages) (fun s u hu => ⟨u, hu, .refl u⟩) ?_
    (fun _ _ _ h hs => h.step hs) (fun _ _ _ h hs => step_ages h hs) h
  intro a b c hab hbc u hu
  obtain ⟨u', hu', hlater⟩ := hab u hu
  obtain ⟨u'', hu'', hlater'⟩ := hbc u' hu'
  exact ⟨u'', hu'', hlater.trans hlater'⟩

/-- A user who is in force as a principal says. -/
structure Principal.Holds (p : Principal) (u : User) : Prop where
  id : u.id = p.id
  subject : u.subject = p.subject
  role : u.role = p.role
  active : u.status = .active
  version : u.authorizationVersion = p.authorizationVersion

theorem principal_ok {subject : String} {p : Principal} (h : principal db subject = .ok p) :
    p.subject = subject ∧ ∃ u ∈ db.directory.users, p.Holds u := by
  simp only [principal, bind_eq_ok, ensure_eq_ok, pure_eq_ok] at h
  obtain ⟨u, hactor, -, ⟨hactive, -⟩, rfl⟩ := h
  obtain ⟨hmem, hsubject⟩ := phase5Actor_mem hactor
  exact ⟨hsubject, u, hmem, rfl, rfl, rfl, hactive, rfl⟩

/-- A loop that succeeds succeeds at every element. -/
theorem forM_mem {α ε : Type} {f : α → Except ε Unit} {as : List α} (h : as.forM f = .ok ()) :
    ∀ a ∈ as, f a = .ok () := by
  induction as with
  | nil => exact fun a ha => absurd ha List.not_mem_nil
  | cons a as ih =>
    obtain ⟨⟨⟩, hfirst, hrest⟩ := bind_eq_ok.mp h
    intro b hb
    rcases List.mem_cons.mp hb with rfl | hb
    · exact hfirst
    · exact ih hrest b hb

/-- What `begin` finds is what the context says. -/
theorem beginBusiness_ok {c : Context} (h : beginBusiness db c = .ok ()) :
    (∀ p ∈ c.actor :: c.targets, principal db p.subject = .ok p) ∧
      ∀ k ∈ c.clients, ∃ r, db.business.access.client k.1 = some r ∧ r.managementVersion = k.2 := by
  obtain ⟨⟨⟩, hprincipals, hclients⟩ := bind_eq_ok.mp h
  refine ⟨fun p hp => ?_, fun k hk => ?_⟩
  · obtain ⟨current, hcurrent, hsame⟩ := bind_eq_ok.mp (forM_mem hprincipals p hp)
    rw [ensure_eq_ok] at hsame
    rw [hcurrent, hsame]
  · obtain ⟨r, hr, hsame⟩ := bind_eq_ok.mp (forM_mem hclients k hk)
    exact ⟨r, fetch_eq_ok.mp hr, ensure_eq_ok.mp hsame⟩

/-- What a request is authorized with is what the database says at that time. -/
theorem authorizeContext_ok {subject : String} {targets : List String} {clients : List Uuid} {c : Context}
    (h : authorizeContext db subject targets clients = .ok c) :
    ∀ p ∈ c.actor :: c.targets, principal db p.subject = .ok p := by
  simp only [authorizeContext, bind_eq_ok, pure_eq_ok] at h
  obtain ⟨actor, hactor, ps, hps, ks, -, rfl⟩ := h
  intro p hp
  rcases List.mem_cons.mp hp with rfl | hp
  · rw [(principal_ok hactor).1]
    exact hactor
  · obtain ⟨t, -, ht⟩ := exists_input hps hp
    rw [(principal_ok ht).1]
    exact ht

theorem step_contexts (hs : s.step desk ev = .ok s') :
    s'.contexts = s.contexts ∨ ∃ subject targets clients c, ev = .authorize subject targets clients ∧
      authorizeContext s.db subject targets clients = .ok c ∧ s'.contexts = s.contexts ++ [c] := by
  cases ev with
  | authorize subject targets clients =>
    obtain ⟨c, hc, hstep⟩ := bind_eq_ok.mp hs
    obtain rfl := pure_eq_ok.mp hstep
    exact .inr ⟨subject, targets, clients, c, rfl, hc, rfl⟩
  | request r now =>
    obtain ⟨db, -, hstep⟩ := bind_eq_ok.mp hs
    obtain rfl := pure_eq_ok.mp hstep
    exact .inl rfl
  | _ => exact .inl ((step_frame hs).contexts (by simp [Event.writes]))

/-- One transaction raises the version of a user or leaves its authority alone. -/
theorem step_still (h : Orderly s) (hs : s.step desk ev = .ok s') (hu : u ∈ s.db.directory.users) :
    ∃ u' ∈ s'.db.directory.users, u'.id = u.id ∧ (u.authorizationVersion < u'.authorizationVersion ∨
      u'.authorizationVersion = u.authorizationVersion ∧ u'.role = u.role ∧ u'.status = u.status ∧
        s.db.directory.Still s'.db.directory u) := by
  obtain ⟨u', hu', hlater⟩ := step_ages h hs u hu
  refine ⟨u', hu', hlater.id, ?_⟩
  rcases lt_or_eq_of_le hlater.version with hlt | heq
  · exact .inl hlt
  · obtain ⟨hrole, hstatus⟩ := hlater.changed heq.symm
    have hvalid := h.registered.directory
    have hstill := (step_deed hvalid hs).still hvalid (h.step hs).registered.directory h.standing
      h.linked hu hu' hlater.id heq.symm
    exact .inr ⟨heq.symm, hrole, hstatus, hstill⟩

/-- A transaction leaves a principal in force, with its role, its membership and what its agency is. -/
structure Undisturbed (p : Principal) (d d' : Directory) : Prop where
  before : ∃ u ∈ d.users, p.Holds u ∧ d.Still d' u
  after : ∃ u ∈ d'.users, p.Holds u

/-- A user of a run that ends with the version it began with. -/
theorem holds_between {p : Principal} {u₀ u u₁ : User} (h₀ : p.Holds u₀) (h₁ : p.Holds u₁) (hlater : u₀.Later u)
    (hlater₁ : ∃ v, u.Later v ∧ v = u₁) : p.Holds u := by
  obtain ⟨v, hlater', rfl⟩ := hlater₁
  have hle := hlater.version
  have hle' := hlater'.version
  have hv₀ := h₀.version
  have hv₁ := h₁.version
  obtain ⟨hrole, hstatus⟩ := hlater.changed (by omega)
  exact ⟨hlater.id.trans h₀.id, hlater.subject.trans h₀.subject, hrole.trans h₀.role, hstatus.trans h₀.active,
    by omega⟩

/-- Every state between two states in which a principal is in force with one version has it in force. -/
theorem between_holds {p : Principal} {s₁ s₂ s₃ : System} (h₁ : s₁.Ages s₂) (h₂ : s₂.Ages s₃)
    (hvalid : s₃.db.directory.Valid) (hfirst : ∃ u ∈ s₁.db.directory.users, p.Holds u)
    (hlast : ∃ u ∈ s₃.db.directory.users, p.Holds u) : ∃ u ∈ s₂.db.directory.users, p.Holds u := by
  obtain ⟨u₁, hu₁, hholds₁⟩ := hfirst
  obtain ⟨u₃, hu₃, hholds₃⟩ := hlast
  obtain ⟨u₂, hu₂, hlater⟩ := h₁ u₁ hu₁
  obtain ⟨v, hv, hlater'⟩ := h₂ u₂ hu₂
  have hid : v.id = u₃.id := hlater'.id.trans (hlater.id.trans (hholds₁.id.trans hholds₃.id.symm))
  exact ⟨u₂, hu₂, holds_between hholds₁ hholds₃ hlater ⟨v, hlater', hvalid.ids.eq_of_key hv hu₃ hid⟩⟩

/-- Business writes commit under the authority they were authorized with, which nothing has touched
since: every transaction in between left the role, the status, the membership and the agency of the
actor and of every target as they were. -/
theorem business_under_authority {s₀ : System} {t : List (Transition System Event)} {c : Context}
    {writes : List Write} (hinit : (machine desk).init s₀) (hrun : (machine desk).Run s₀ t s)
    (hs : s.step desk (.commit c writes) = .ok s') :
    (∀ p ∈ c.actor :: c.targets, principal s.db p.subject = .ok p) ∧
    (∀ k ∈ c.clients, ∃ r, s.db.business.access.client k.1 = some r ∧ r.managementVersion = k.2) ∧
    (∃ t₁ r t₂ subject targets clients, t = t₁ ++ r :: t₂ ∧ r.label = .authorize subject targets clients ∧
      authorizeContext r.before.db subject targets clients = .ok c ∧
      ∀ q ∈ t₂, ∀ p ∈ c.actor :: c.targets, Undisturbed p q.before.db.directory q.after.db.directory) ∧
    ∀ q ∈ t, ∀ u ∈ q.before.db.directory.users, ∃ u' ∈ q.after.db.directory.users, u'.id = u.id ∧
      (u.authorizationVersion < u'.authorizationVersion ∨
        u'.authorizationVersion = u.authorizationVersion ∧ u'.role = u.role ∧ u'.status = u.status ∧
          q.before.db.directory.Still q.after.db.directory u) := by
  have horderly : ∀ {s₁ t₁}, (machine desk).Run s₀ t₁ s₁ → Orderly s₁ := fun h => orderly_of_reachable ⟨s₀, _, hinit, h⟩
  simp only [System.step, commitBusiness, bind_eq_ok, ensure_eq_ok] at hs
  obtain ⟨-, hheld, db, ⟨⟨⟩, hbegin, -⟩, -⟩ := hs
  obtain ⟨hprincipals, hclients⟩ := beginBusiness_ok hbegin
  refine ⟨hprincipals, hclients, ?_, fun q hq u hu => ?_⟩
  · -- the context was handed out by the run
    have hstart : c ∉ s₀.contexts := by
      obtain ⟨b, -, rfl⟩ := hinit
      exact List.not_mem_nil
    obtain ⟨t₁, r, t₂, rfl, hbefore, hstep, hafter, hnot, hthere, -⟩ :=
      hrun.since (P := fun s => c ∈ s.contexts) hstart hheld
    obtain hsame | ⟨subject, targets, clients, c', hlabel, hauthorize, hcontexts⟩ := step_contexts hstep
    · exact absurd (hsame ▸ hthere) hnot
    have hc : c = c' := by
      rw [hcontexts] at hthere
      exact List.mem_singleton.mp ((List.mem_append.mp hthere).resolve_left hnot)
    subst hc
    refine ⟨t₁, r, t₂, subject, targets, clients, rfl, hlabel, hauthorize, fun q hq p hp => ?_⟩
    -- the version is the same at the authorization and at the commit, hence all the time
    obtain ⟨ta, tb, rfl, hrunq, hstepq, hrest⟩ := hafter.split hq
    have hrunr : (machine desk).Run s₀ (t₁ ++ [r]) r.after := hbefore.snoc hstep
    have hrunq' : (machine desk).Run s₀ ((t₁ ++ [r]) ++ ta) q.before := hrunr.trans hrunq
    have hfirst : ∃ u ∈ r.before.db.directory.users, p.Holds u := (principal_ok (authorizeContext_ok hauthorize p hp)).2
    have hlast := (principal_ok (hprincipals p hp)).2
    have hrunr' : (machine desk).Run r.before (⟨r.before, r.label, r.after⟩ :: ta) q.before := hrunq.cons hstep
    have hage : q.before.Ages s := run_ages (horderly hrunq') (hrest.cons hstepq)
    have hage' : q.after.Ages s := run_ages ((horderly hrunq').step hstepq) hrest
    have hvalid := (horderly hrun).registered.directory
    obtain ⟨u, hu, hholds⟩ := between_holds (run_ages (horderly hbefore) hrunr') hage hvalid hfirst hlast
    obtain ⟨w, hw, hholds'⟩ :=
      between_holds (run_ages (horderly hbefore) (hrunr'.snoc hstepq)) hage' hvalid hfirst hlast
    refine ⟨⟨u, hu, hholds, ?_⟩, w, hw, hholds'⟩
    obtain ⟨u', hu', hid, hmoved⟩ := step_still (horderly hrunq') hstepq hu
    have hvalid' := ((horderly hrunq').step hstepq).registered.directory
    obtain rfl := hvalid'.ids.eq_of_key hu' hw (hid.trans (hholds.id.trans hholds'.id.symm))
    have hv := hholds.version
    have hv' := hholds'.version
    rcases hmoved with hlt | ⟨-, -, -, hstill⟩
    · omega
    · exact hstill
  · obtain ⟨⟨t', hbefore⟩, hstep⟩ := hrun.mem hq
    exact step_still (horderly hbefore) hstep hu

/-! ### A run -/

/-- The client of an approved agency. -/
def sampleClient : Access.ApiClient :=
  ⟨7, "Agency", .b2b, none, true, ["search:read"], 60, .enterprise, some "user_b", true, 1⟩

/-- What the first superadmin is authorized with to give the client a secret. -/
def secretContext : Context where
  actor := ⟨100, "user_a", .superadmin, 1, none, none, none⟩
  targets := [⟨200, "user_b", .b2b, 3, some 301, some "ST-B2B3", some "user_b"⟩]
  clients := [(7, 1)]

def secretWrites : List Write := [.insert (.credential ⟨8, 7, "hash", true⟩)]

/-- Somebody is onboarded between the authorization of a request and its writes. -/
def authorizedEvents : List Event := [
  .request (.write (.insert (.client sampleClient))) 0,
  .authorize "user_a" ["user_b"] [7],
  .request (.onboard (sampleUser "user_c") (sampleDraw 4)) 0]

def authorized : Except ApiError (System × System) := do
  let approved ← approval "Road 1"
  let s ← authorizedEvents.foldlM (System.step sampleDesk) approved.2
  let s' ← s.step sampleDesk (.commit secretContext secretWrites)
  return (s, s')

theorem business_under_authority_superadmin : ∃ t s s', (machine sampleDesk).Run (.start sampleBusiness) t s ∧
    s.step sampleDesk (.commit secretContext secretWrites) = .ok s' ∧
    s'.db.business.access.credentials.map Access.ClientCredential.id = [8] ∧
    (∀ p ∈ secretContext.actor :: secretContext.targets, principal s.db p.subject = .ok p) ∧
    (∃ r, s.db.business.access.client 7 = some r ∧ r.managementVersion = 1) ∧
    ∃ r ∈ t, ∃ subject targets clients, r.label = .authorize subject targets clients ∧
      authorizeContext r.before.db subject targets clients = .ok secretContext := by
  have hrun : authorized.map (fun x => x.2.db.business.access.credentials.map Access.ClientCredential.id) =
      .ok [8] := by
    decide +kernel
  obtain ⟨⟨s, s'⟩, h, hcredentials⟩ := map_eq_ok.mp hrun
  simp only [authorized, bind_eq_ok, pure_eq_ok] at h
  obtain ⟨⟨s₀, s₁⟩, happroved, s₂, hs, s₃, hcommit, heq⟩ := h
  obtain ⟨rfl, rfl⟩ := Prod.mk.inj heq
  obtain ⟨t, ht, -⟩ := approval_run happroved
  obtain ⟨t', ht'⟩ := Machine.Run.foldlM (M := machine sampleDesk) (fun _ _ _ h => h) ht hs
  obtain ⟨hprincipals, hclients, ⟨t₁, r, t₂, subject, targets, clients, hsplit, hlabel, hauthorize, -⟩, -⟩ :=
    business_under_authority ⟨sampleBusiness, sampleBusiness_valid, rfl⟩ ht' hcommit
  exact ⟨_, _, _, ht', hcommit, hcredentials, hprincipals, hclients (7, 1) List.mem_cons_self,
    r, hsplit ▸ by simp, subject, targets, clients, hlabel, hauthorize⟩

end ShaponTravels.Identity
