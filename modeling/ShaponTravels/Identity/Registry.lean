import Mathlib.Logic.Relation
import ShaponTravels.Identity.Frames

/-!
# Registry — what the statements on users, agencies and memberships keep

Each statement is inverted once; `Stmt` lists the statements a transaction is made of, with what the
code checks before it runs one, and `Valid` is what every statement keeps.
-/

namespace ShaponTravels.Identity

open Library

variable {d d' : Directory}

/-! ## Statements -/

/-- The row an update stores, for the row it was and the one the statement asks for. -/
structure Guarded (old new row : User) : Prop where
  row_eq : row = { new with
    version := old.version + 1
    authorizationVersion := old.authorizationVersion +
      if new.role ≠ old.role ∨ new.status ≠ old.status ∨
        new.authorizationVersion ≠ old.authorizationVersion then 1 else 0 }
  id : new.id = old.id
  subject : new.subject = old.subject
  deleting : old.status = .deleting → new.status.terminal
  deleted : old.status = .deleted → new.status = .deleted

theorem guardPortalUserIdentity_ok {old new row : User}
    (h : guardPortalUserIdentity old new = .ok row) : Guarded old new row := by
  simp only [guardPortalUserIdentity, bind_eq_ok, ensure_eq_ok, bigint_eq_ok, pure_eq_ok] at h
  obtain ⟨-, hdeleting, -, ⟨hid, hsubject⟩, -, hdeleted, v, ⟨-, rfl⟩, w, ⟨-, rfl⟩, rfl⟩ := h
  exact ⟨rfl, hid, hsubject, hdeleting, hdeleted⟩

namespace Guarded

variable {old new row : User}

theorem row_id (h : Guarded old new row) : row.id = old.id := by rw [h.row_eq]; exact h.id

theorem row_subject (h : Guarded old new row) : row.subject = old.subject := by
  rw [h.row_eq]
  exact h.subject

theorem row_role (h : Guarded old new row) : row.role = new.role := by rw [h.row_eq]

theorem row_status (h : Guarded old new row) : row.status = new.status := by rw [h.row_eq]

/-- The authorization version counts the changes of role, status and membership. -/
theorem row_authorization (h : Guarded old new row) :
    row.authorizationVersion = old.authorizationVersion ∧ row.role = old.role ∧ row.status = old.status ∧
      new.authorizationVersion = old.authorizationVersion ∨
    row.authorizationVersion = old.authorizationVersion + 1 := by
  rw [h.row_eq]
  by_cases hchanged : new.role ≠ old.role ∨ new.status ≠ old.status ∨
      new.authorizationVersion ≠ old.authorizationVersion
  · exact .inr (by simp [hchanged])
  · obtain ⟨hrole, hstatus, hversion⟩ : new.role = old.role ∧ new.status = old.status ∧
        new.authorizationVersion = old.authorizationVersion := by
      simpa [not_or] using hchanged
    refine .inl ⟨?_, hrole, hstatus, hversion⟩
    rw [if_neg hchanged]
    exact add_zero _

end Guarded

theorem updateUser_ok {id : Uuid} {f : User → User} (h : d.updateUser id f = .ok d') :
    d.user id = none ∧ d' = d ∨ ∃ old row, d.user id = some old ∧ Guarded old (f old) row ∧
      d' = { d with users := modify User.id id (fun _ => row) d.users } := by
  rw [Directory.updateUser] at h
  split at h
  · rename_i hnone
    exact .inl ⟨hnone, (pure_eq_ok.mp h).symm⟩
  · rename_i old hsome
    simp only [bind_eq_ok, pure_eq_ok] at h
    obtain ⟨row, hguard, rfl⟩ := h
    exact .inr ⟨old, row, hsome, guardPortalUserIdentity_ok hguard, rfl⟩

/-- Every user but the updated one stays. -/
theorem user_updateUser_ne {id id' : Uuid} {f : User → User} (h : d.updateUser id f = .ok d')
    (hne : id' ≠ id) : d'.user id' = d.user id' := by
  obtain ⟨-, rfl⟩ | ⟨old, row, hold, hguard, rfl⟩ := updateUser_ok h
  · rfl
  · exact lookup_replace_ne (hguard.row_id.trans (lookup_key hold)) hne d.users

theorem user_updateUser {id : Uuid} {f : User → User} {old : User} (h : d.updateUser id f = .ok d')
    (hold : d.user id = some old) : ∃ row, Guarded old (f old) row ∧ d'.user id = some row := by
  obtain ⟨hnone, -⟩ | ⟨old', row, hold', hguard, rfl⟩ := updateUser_ok h
  · rw [hold] at hnone
    cases hnone
  · obtain rfl := Option.some.inj (hold'.symm.trans hold)
    refine ⟨row, hguard, ?_⟩
    have hrow := lookup_replace (hguard.row_id.trans (lookup_key hold)) d.users
    rw [show lookup User.id id d.users = some old' from hold] at hrow
    exact hrow

/-- An update of a user touches no other table of the directory. -/
theorem updateUser_frame {id : Uuid} {f : User → User} (h : d.updateUser id f = .ok d') :
    d'.agencies = d.agencies ∧ d'.memberships = d.memberships ∧ d'.bootstrap = d.bootstrap := by
  obtain ⟨-, rfl⟩ | ⟨old, row, -, -, rfl⟩ := updateUser_ok h <;> exact ⟨rfl, rfl, rfl⟩

theorem insertUser_ok {u : User} (h : d.insertUser u = .ok d') :
    (∀ u' ∈ d.users, u'.id ≠ u.id) ∧ (∀ u' ∈ d.users, u'.subject ≠ u.subject) ∧
      d' = { d with users := d.users ++ [u] } := by
  simp only [Directory.insertUser, bind_eq_ok, ensure_eq_ok, pure_eq_ok] at h
  obtain ⟨-, hid, -, hsubject, rfl⟩ := h
  exact ⟨hid, hsubject, rfl⟩

/-- The row an update of an agency's status stores. -/
theorem setAgency_ok {id : Uuid} {status : AgencyStatus} (h : d.setAgency id status = .ok d') :
    d.agency id = none ∧ d' = d ∨ ∃ old, d.agency id = some old ∧
      (old.status = .archived → status = .archived) ∧
      d' = { d with
        agencies := modify Agency.id id
          (fun _ => { old with status := status, version := old.version + 1 }) d.agencies } := by
  rw [Directory.setAgency] at h
  split at h
  · rename_i hnone
    exact .inl ⟨hnone, (pure_eq_ok.mp h).symm⟩
  · rename_i old hsome
    simp only [guardPortalAgencyIdentity, bind_eq_ok, ensure_eq_ok, bigint_eq_ok, pure_eq_ok] at h
    obtain ⟨row, ⟨-, -, -, harchived, v, ⟨-, rfl⟩, rfl⟩, rfl⟩ := h
    exact .inr ⟨old, hsome, harchived, rfl⟩

theorem insertAgency_ok {a : Agency} (h : d.insertAgency a = .ok d') :
    (∀ a' ∈ d.agencies, a'.id ≠ a.id) ∧ (∀ a' ∈ d.agencies, a'.code ≠ a.code) ∧
      (∀ a' ∈ d.agencies, a'.ownerUserId ≠ a.ownerUserId) ∧
      d' = { d with agencies := d.agencies ++ [a] } := by
  simp only [Directory.insertAgency, bind_eq_ok, ensure_eq_ok, pure_eq_ok] at h
  obtain ⟨-, hid, -, hcode, -, howner, rfl⟩ := h
  exact ⟨hid, hcode, howner, rfl⟩

theorem insertMembership_ok {m : Membership} (h : d.insertMembership m = .ok d') :
    (∃ a ∈ d.agencies, a.id = m.agencyId) ∧ (∀ m' ∈ d.memberships, m'.userId ≠ m.userId) ∧
      (m.kind = .owner → ∀ m' ∈ d.memberships, ¬ (m'.agencyId = m.agencyId ∧ m'.kind = .owner)) ∧
      ∃ d₁, d.updateUser m.userId (fun u =>
          { u with authorizationVersion := u.authorizationVersion + 1 }) = .ok d₁ ∧
        d' = { d₁ with memberships := d.memberships ++ [m] } := by
  simp only [Directory.insertMembership, bind_eq_ok, ensure_eq_ok, pure_eq_ok] at h
  obtain ⟨-, hagency, d₁, hupdate, -, hnew, -, howner, rfl⟩ := h
  rw [(updateUser_frame hupdate).2.1] at hnew howner ⊢
  exact ⟨hagency, hnew, howner, d₁, hupdate, rfl⟩

/-! ## What a transaction is made of -/

/-- What the code checks before it updates a user. -/
structure Permitted (i : Inbox) (d : Directory) (old new : User) : Prop where
  active : new.status = .active → old.status = .active ∨ i.isDeleted old.subject = false
  role : new.role ≠ old.role → d.isMember old.id = false
  terminal : new.status.terminal → new.status = old.status

/-- What the code inserts as a user: an onboarding customer the provider has not deleted, or the first
superadmin. -/
def Admitted (i : Inbox) (b : String → Prop) (d : Directory) (u : User) : Prop :=
  u.version = 1 ∧ u.authorizationVersion = 1 ∧
    (u.role = .customer ∧ u.status = .onboarding ∧ i.isDeleted u.subject = false ∨
      u.role = .superadmin ∧ u.status = .active ∧ d.users = [] ∧ b u.subject)

/-- One statement on the directory; `b` says who may be the first superadmin. -/
inductive Stmt (i : Inbox) (b : String → Prop) (d : Directory) : Directory → Prop where
  | update (id : Uuid) (f : User → User) (d' : Directory) (h : d.updateUser id f = .ok d')
      (hpermitted : ∀ old, d.user id = some old → Permitted i d old (f old)) : Stmt i b d d'
  | insert (u : User) (d' : Directory) (h : d.insertUser u = .ok d') (hadmitted : Admitted i b d u) :
      Stmt i b d d'
  | agency (id : Uuid) (status : AgencyStatus) (d' : Directory) (h : d.setAgency id status = .ok d') :
      Stmt i b d d'
  | newAgency (a : Agency) (d' : Directory) (h : d.insertAgency a = .ok d') : Stmt i b d d'
  | member (m : Membership) (d' : Directory) (h : d.insertMembership m = .ok d')
      (hrole : ∃ u, d.user m.userId = some u ∧ u.role = m.kind.userRole) : Stmt i b d d'
  | mark (id : Uuid) : Stmt i b d { d with bootstrap := some id }

abbrev Stmts (i : Inbox) (b : String → Prop) : Directory → Directory → Prop :=
  Relation.ReflTransGen (Stmt i b)

/-- The keys and the references of the directory. -/
structure Directory.Valid (d : Directory) : Prop where
  ids : KeyUnique User.id d.users
  subjects : KeyUnique User.subject d.users
  agencies : KeyUnique Agency.id d.agencies
  codes : KeyUnique Agency.code d.agencies
  owners : KeyUnique Agency.ownerUserId d.agencies
  members : KeyUnique Membership.userId d.memberships
  known : ∀ m ∈ d.memberships, ∃ u ∈ d.users, u.id = m.userId ∧ u.role = m.kind.userRole
  within : ∀ m ∈ d.memberships, ∃ a ∈ d.agencies, a.id = m.agencyId

theorem Directory.valid_empty : Directory.Valid ⟨[], [], [], none⟩ where
  ids := .nil
  subjects := .nil
  agencies := .nil
  codes := .nil
  owners := .nil
  members := .nil
  known _ h := absurd h List.not_mem_nil
  within _ h := absurd h List.not_mem_nil

section Valid

variable {i : Inbox} {b : String → Prop}

theorem isMember_eq_false {id : Uuid} :
    d.isMember id = false ↔ ∀ m ∈ d.memberships, m.userId ≠ id := by
  simp [Directory.isMember]

/-- An update of a user keeps the directory valid when a member keeps its role. -/
theorem Directory.Valid.update (h : d.Valid) {id : Uuid} {f : User → User}
    (hupdate : d.updateUser id f = .ok d')
    (hrole : ∀ old, d.user id = some old → (f old).role ≠ old.role → d.isMember old.id = false) :
    d'.Valid := by
  obtain ⟨-, rfl⟩ | ⟨old, row, hold, hguard, rfl⟩ := updateUser_ok hupdate
  · exact h
  have hmem := lookup_mem hold
  have hid : old.id = id := lookup_key hold
  have hrow : ∀ u ∈ d.users, u.id = id → u = old :=
    fun u hu hu' => h.ids.eq_of_key hu hmem (hu'.trans hid.symm)
  have hmap : ∀ {β : Type} (g : User → β), g row = g old →
      (modify User.id id (fun _ => row) d.users).map g = d.users.map g := by
    intro β g hg
    rw [Library.modify, List.map_map]
    apply List.map_congr_left
    intro u hu
    simp only [Function.comp]
    split
    · rename_i hu'
      rw [hrow u hu hu', hg]
    · rfl
  refine ⟨?_, ?_, h.agencies, h.codes, h.owners, h.members, ?_, h.within⟩
  · show (List.map User.id _).Nodup
    rw [hmap User.id hguard.row_id]
    exact h.ids
  · show (List.map User.subject _).Nodup
    rw [hmap User.subject hguard.row_subject]
    exact h.subjects
  · intro m hm
    obtain ⟨u, hu, huid, hurole⟩ := h.known m hm
    by_cases hu' : u.id = id
    · refine ⟨row, mem_modify_of_mem (f := fun _ => row) hu hu', ?_, ?_⟩
      · rw [hguard.row_id, hid, ← hu', huid]
      · rw [hguard.row_role]
        by_contra hne
        rw [hrow u hu hu'] at hurole
        have hnot := isMember_eq_false.mp (hrole old hold fun heq => hne (heq.trans hurole)) m hm
        exact hnot (huid.symm.trans (hu'.trans hid.symm))
    · exact ⟨u, mem_modify_of_ne hu hu', huid, hurole⟩

/-- The bump of `guard_portal_membership_identity`. -/
theorem Directory.Valid.bump (h : d.Valid) {id : Uuid}
    (hupdate : d.updateUser id (fun u =>
      { u with authorizationVersion := u.authorizationVersion + 1 }) = .ok d') : d'.Valid :=
  h.update hupdate fun _ _ hne => absurd rfl hne

theorem Directory.Valid.stmt (h : d.Valid) (hstmt : Stmt i b d d') : d'.Valid := by
  cases hstmt with
  | update id f _ hupdate hpermitted =>
    exact h.update hupdate fun old hold hne => (hpermitted old hold).role hne
  | insert u _ hinsert hadmitted =>
    obtain ⟨hid, hsubject, rfl⟩ := insertUser_ok hinsert
    refine ⟨keyUnique_concat.mpr ⟨h.ids, hid⟩, keyUnique_concat.mpr ⟨h.subjects, hsubject⟩, h.agencies,
      h.codes, h.owners, h.members, ?_, h.within⟩
    intro m hm
    obtain ⟨u', hu', hknown⟩ := h.known m hm
    exact ⟨u', List.mem_append_left _ hu', hknown⟩
  | agency id status _ hset =>
    obtain ⟨-, rfl⟩ | ⟨old, hold, -, rfl⟩ := setAgency_ok hset
    · exact h
    have hmem := lookup_mem hold
    have hid : old.id = id := lookup_key hold
    have hrow : ∀ a ∈ d.agencies, a.id = id → a = old :=
      fun a ha ha' => h.agencies.eq_of_key ha hmem (ha'.trans hid.symm)
    -- the statement changes status and version, and no key of an agency is one of them
    have hmap : ∀ {β : Type} (g : Agency → β),
        g { old with status := status, version := old.version + 1 } = g old →
        (modify Agency.id id (fun _ => { old with status := status, version := old.version + 1 })
          d.agencies).map g = d.agencies.map g := by
      intro β g hg
      rw [Library.modify, List.map_map]
      apply List.map_congr_left
      intro a ha
      simp only [Function.comp]
      split
      · rename_i ha'
        rw [hrow a ha ha', hg]
      · rfl
    refine ⟨h.ids, h.subjects, ?_, ?_, ?_, h.members, h.known, ?_⟩
    · show (List.map Agency.id _).Nodup
      rw [hmap Agency.id rfl]
      exact h.agencies
    · show (List.map Agency.code _).Nodup
      rw [hmap Agency.code rfl]
      exact h.codes
    · show (List.map Agency.ownerUserId _).Nodup
      rw [hmap Agency.ownerUserId rfl]
      exact h.owners
    · intro m hm
      obtain ⟨a, ha, haid⟩ := h.within m hm
      by_cases ha' : a.id = id
      · refine ⟨_, mem_modify_of_mem
          (f := fun _ => { old with status := status, version := old.version + 1 }) ha ha', ?_⟩
        exact hid.trans (ha'.symm.trans haid)
      · exact ⟨a, mem_modify_of_ne ha ha', haid⟩
  | newAgency a _ hinsert =>
    obtain ⟨hid, hcode, howner, rfl⟩ := insertAgency_ok hinsert
    refine ⟨h.ids, h.subjects, keyUnique_concat.mpr ⟨h.agencies, hid⟩,
      keyUnique_concat.mpr ⟨h.codes, hcode⟩, keyUnique_concat.mpr ⟨h.owners, howner⟩, h.members,
      h.known, ?_⟩
    intro m hm
    obtain ⟨a', ha', haid⟩ := h.within m hm
    exact ⟨a', List.mem_append_left _ ha', haid⟩
  | member m _ hinsert hrole =>
    obtain ⟨⟨a, ha, haid⟩, hnew, -, d₁, hupdate, rfl⟩ := insertMembership_ok hinsert
    have hbumped := h.bump hupdate
    have hsame := updateUser_frame hupdate
    refine ⟨hbumped.ids, hbumped.subjects, hbumped.agencies, hbumped.codes, hbumped.owners,
      keyUnique_concat.mpr ⟨h.members, hnew⟩, ?_, ?_⟩
    -- the update in front of the insert keeps the role, so the new member has the role its row asks for
    · intro m' hm'
      rcases List.mem_append.mp hm' with hm' | hm'
      · exact hbumped.known m' (by rw [hsame.2.1]; exact hm')
      · rw [List.mem_singleton.mp hm']
        obtain ⟨u, hu, hurole⟩ := hrole
        obtain ⟨hnone, -⟩ | ⟨old, row, hold, hguard, rfl⟩ := updateUser_ok hupdate
        · rw [hnone] at hu
          cases hu
        · obtain rfl := Option.some.inj (hold.symm.trans hu)
          refine ⟨row, mem_modify_of_mem (f := fun _ => row) (lookup_mem hold) (lookup_key hold), ?_, ?_⟩
          · rw [hguard.row_id]
            exact lookup_key hold
          · rw [hguard.row_role]
            exact hurole
    · intro m' hm'
      rw [hsame.1]
      rcases List.mem_append.mp hm' with hm' | hm'
      · exact h.within m' hm'
      · rw [List.mem_singleton.mp hm']
        exact ⟨a, ha, haid⟩
  | mark id => exact ⟨h.ids, h.subjects, h.agencies, h.codes, h.owners, h.members, h.known, h.within⟩

theorem Directory.Valid.stmts (h : d.Valid) (hstmts : Stmts i b d d') : d'.Valid := by
  induction hstmts with
  | refl => exact h
  | tail _ hstmt ih => exact ih.stmt hstmt

end Valid

/-! ## The statements of the transactions -/

variable {i : Inbox} {b : String → Prop} {db db' : Db} {now : Int}

/-- An update that leaves the role of a user, and its status unless it suspends the user. -/
theorem stmt_update {id : Uuid} {f : User → User} (h : d.updateUser id f = .ok d')
    (hrole : ∀ u, (f u).role = u.role)
    (hstatus : ∀ u, (f u).status = u.status ∨ (f u).status = .suspended) : Stmt i b d d' := by
  refine .update id f d' h fun old _ => ⟨fun hactive => ?_, fun hne => absurd (hrole old) hne,
    fun hterminal => ?_⟩
  · rcases hstatus old with hsame | hsuspended
    · exact .inl (hsame.symm.trans hactive)
    · rw [hsuspended] at hactive
      cases hactive
  · rcases hstatus old with hsame | hsuspended
    · exact hsame
    · rw [hsuspended] at hterminal
      cases hterminal

theorem invalidateMembers_stmts {agency : Uuid} (h : d.invalidateMembers agency = .ok d') :
    Stmts i b d d' := by
  suffices hfold : ∀ (ids : List Uuid) {d : Directory}, ids.foldlM invalidateMember d = .ok d' →
      Stmts i b d d' from hfold _ h
  intro ids
  induction ids with
  | nil =>
    intro d h
    obtain rfl := pure_eq_ok.mp h
    exact .refl
  | cons id ids ih =>
    intro d h
    rw [List.foldlM_cons, bind_eq_ok] at h
    obtain ⟨d₁, hfirst, hrest⟩ := h
    exact (ih hrest).head (stmt_update hfirst (fun _ => rfl) fun _ => .inl rfl)

theorem suspendUser_stmts {id : Uuid} (h : d.suspendUser id = .ok d') : Stmts i b d d' := by
  rw [Directory.suspendUser] at h
  split at h
  · obtain rfl := pure_eq_ok.mp h
    exact .refl
  · exact .single (stmt_update h (fun _ => rfl) fun _ => .inr rfl)

theorem suspendOwned_stmts {owner : Uuid} (h : d.suspendOwned owner = .ok d') : Stmts i b d d' := by
  rw [Directory.suspendOwned] at h
  split at h
  · obtain rfl := pure_eq_ok.mp h
    exact .refl
  · obtain ⟨d₁, hset, hmembers⟩ := bind_eq_ok.mp h
    exact (invalidateMembers_stmts hmembers).head (.agency _ _ _ hset)

theorem contain_stmts {subject : String} (h : contain db subject = .ok db') :
    Stmts i b db.directory db'.directory := by
  rw [contain] at h
  split at h
  · obtain rfl := pure_eq_ok.mp h
    exact .refl
  · simp only [bind_eq_ok, mapError_eq_ok] at h
    obtain ⟨d₁, huser, d₂, howned, hrevoke⟩ := h
    obtain ⟨access, rfl⟩ := revokeClients_frame hrevoke
    exact (suspendUser_stmts huser).trans (suspendOwned_stmts howned)

/-- An update that activates a user the provider has not deleted. -/
theorem stmt_activate {id : Uuid} {f : User → User} {u : User} (h : d.updateUser id f = .ok d')
    (hu : d.user id = some u) (hactive : (f u).status = .active) (hdeleted : i.isDeleted u.subject = false)
    (hmember : (f u).role ≠ u.role → d.isMember u.id = false) : Stmt i b d d' := by
  refine .update id f d' h fun old hold => ?_
  obtain rfl := Option.some.inj (hold.symm.trans hu)
  refine ⟨fun _ => .inr hdeleted, hmember, fun hterminal => ?_⟩
  rw [hactive] at hterminal
  cases hterminal

/-- The statements that make a user the owner of a new agency. -/
theorem directoryProvision_stmts {owner agency : Uuid} {code : String} {u : User}
    (hu : d.user owner = some u) (hmember : d.isMember u.id = false) (hdeleted : i.isDeleted u.subject = false)
    (h : d.provision owner agency code = .ok d') : Stmts i b d d' := by
  simp only [Directory.provision, bind_eq_ok] at h
  obtain ⟨d₁, hupdate, d₂, hinsert, hmembership⟩ := h
  have hfirst : Stmt i b d d₁ := stmt_activate hupdate hu rfl hdeleted fun _ => hmember
  have hthird : Stmt i b d₂ d' := by
    refine .member _ _ hmembership ?_
    obtain ⟨-, -, -, rfl⟩ := insertAgency_ok hinsert
    obtain ⟨row, hguard, hrow⟩ := user_updateUser hupdate hu
    exact ⟨row, hrow, hguard.row_role⟩
  exact ((Relation.ReflTransGen.single hfirst).tail (.newAgency _ _ hinsert)).tail hthird

theorem provision_stmts {target : User} {draw : Draw} (htarget : db.directory.user target.id = some target)
    (hdeleted : i.isDeleted target.subject = false) (h : provision db target draw = .ok db') :
    Stmts i b db.directory db'.directory := by
  simp only [provision, bind_eq_ok, ensure_eq_ok, mapError_eq_ok, pure_eq_ok] at h
  obtain ⟨-, hnone, -, -, -, -, code, -, d, hprovision, b, -, rfl⟩ := h
  refine directoryProvision_stmts htarget ?_ hdeleted hprovision
  rw [isMember_eq_false]
  intro m hm heq
  exact hnone (.inl (List.any_eq_true.mpr ⟨m, hm, by simpa using heq⟩))

/-- A new user gets its role, and its membership. -/
theorem grantRole_stmts {grant : Grant} {draw : Draw} {u : User}
    (hu : db.directory.user grant.userId = some u) (hmember : db.directory.isMember u.id = false)
    (hdeleted : i.isDeleted u.subject = false) (hagency : grant.agencyId.isSome → grant.role = .b2bSub)
    (h : grantRole db grant draw = .ok db') : Stmts i b db.directory db'.directory := by
  rw [grantRole] at h
  split at h
  · obtain ⟨target, htarget, hprovision⟩ := bind_eq_ok.mp h
    rw [user, fetch_eq_ok] at htarget
    obtain rfl := Option.some.inj (htarget.symm.trans hu)
    have hid : target.id = grant.userId := lookup_key hu
    rw [← hid] at hu
    exact provision_stmts hu hdeleted hprovision
  split at h
  · simp only [bind_eq_ok, mapError_eq_ok] at h
    obtain ⟨d, hupdate, h⟩ := h
    have hfirst : Stmt i b db.directory d := stmt_activate hupdate hu rfl hdeleted fun _ => hmember
    split at h
    · obtain rfl := pure_eq_ok.mp h
      exact .single hfirst
    · rename_i agency hsome
      simp only [bind_eq_ok, mapError_eq_ok] at h
      obtain ⟨d', hinsert, h⟩ := h
      obtain rfl := pure_eq_ok.mp h
      obtain ⟨row, hguard, hrow⟩ := user_updateUser hupdate hu
      refine (Relation.ReflTransGen.single hfirst).tail (.member _ _ hinsert ⟨row, hrow, ?_⟩)
      rw [hguard.row_role]
      exact hagency (by rw [hsome]; rfl)
  · obtain rfl := pure_eq_ok.mp h
    exact .refl

/-- A user that is found is the last one of a table that it was added to. -/
theorem user_concat {u : User} (hnew : ∀ u' ∈ d.users, u'.id ≠ u.id) :
    Directory.user { d with users := d.users ++ [u] } u.id = some u := by
  rw [Directory.user, lookup_concat, lookup_eq_none.mpr hnew]
  simp

theorem provisioningCommit_stmts {u : ProviderUser} {grant : Grant} {draw : Draw}
    (hvalid : db.directory.Valid) (hagency : grant.agencyId.isSome → grant.role = .b2bSub)
    (h : provisioningCommit db now u grant draw = .ok db') :
    Stmts db.inbox b db.directory db'.directory := by
  obtain ⟨hdeleted, hnew, db₁, target, e₁, e₂, m, hgrant, -, -, -, rfl⟩ := provisioningCommit_ok h
  let row := newUser grant.userId u .customer .onboarding
  have hids : ∀ u' ∈ db.directory.users, u'.id ≠ row.id := fun u' hu' => (hnew u' hu').2
  have hinsert : db.directory.insertUser row = .ok { db.directory with
      users := db.directory.users ++ [row] } := by
    simp only [Directory.insertUser, bind_eq_ok, ensure_eq_ok, pure_eq_ok]
    exact ⟨(), hids, (), fun u' hu' => (hnew u' hu').1, trivial⟩
  have hfirst : Stmt db.inbox b db.directory { db.directory with users := db.directory.users ++ [row] } :=
    .insert row _ hinsert ⟨rfl, rfl, .inl ⟨rfl, rfl, hdeleted⟩⟩
  refine (Relation.ReflTransGen.single hfirst).trans ?_
  refine grantRole_stmts (u := row) (user_concat hids) ?_ hdeleted hagency hgrant
  rw [isMember_eq_false]
  intro x hx heq
  obtain ⟨u', hu', hid, -⟩ := hvalid.known x hx
  exact hids u' hu' (hid.trans heq)

end ShaponTravels.Identity
