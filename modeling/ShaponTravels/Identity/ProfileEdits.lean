import ShaponTravels.Identity.Registered
import ShaponTravels.Trimmed

/-!
# ProfileEdits — what a run does to the profiles

A profile is written by its edits and by the approval of an application.  An edit writes what it names, and
an approval what has never been set, so everything else stays, hidden or not.
-/

namespace ShaponTravels.Identity

open Library

/-! ## Views -/

/-- The fields in the order of their variants. -/
def ProfileField.all : List ProfileField :=
  [.givenName, .surname, .gender, .dateOfBirth, .address, .nationality, .passportNo, .passportExpiry,
    .mobile, .email, .agencyName, .agencyLicenseNo, .agencyAddress, .agencyEmail, .agencyMobile, .website,
    .facebookPage, .bankName, .accountName, .accountNumber, .routingNumber, .swiftCode, .branchCode,
    .designation, .phone, .alternativePhone, .qualification]

theorem ProfileField.mem_all (f : ProfileField) : f ∈ all := by cases f <;> decide

/-- `profiles::View`. -/
structure ProfileView where
  targetUserId : Uuid
  kind : ProfileKind
  role : Role
  identityVersion : Int
  present : Bool
  version : Int
  fields : List (ProfileField × String)

/-- `load`: fields that the role must not see are left out. -/
def loadProfile (p : Papers) (target : User) (kind : ProfileKind) : ProfileView where
  targetUserId := target.id
  kind := kind
  role := target.role
  identityVersion := target.version
  present := ((p.profile target.id kind).map Profile.present).getD false
  version := p.profileVersion target.id kind
  fields := ProfileField.all.filterMap fun f =>
    if f.allowed kind target.role then (p.profileFields target.id kind f).map (f, ·) else none

def limitReads (role : Role) (count : Nat) : Except ApiError Unit :=
  if role.managesUsers then profileLimit count 60 else .ok ()

/-- `query`; `count` are the reads of a manager in an hour, with this one. -/
def queryProfile (db : Db) (subject : String) (target : Uuid) (kind : ProfileKind) (count : Nat) :
    Except ApiError ProfileView := do
  let (actor, target) ← profileScope db subject target kind false
  limitReads actor.role count
  return loadProfile db.papers target kind

theorem mem_loadProfile {p : Papers} {target : User} {kind : ProfileKind} {f : ProfileField} {text : String} :
    (f, text) ∈ (loadProfile p target kind).fields ↔
      f.allowed kind target.role = true ∧ p.profileFields target.id kind f = some text := by
  simp only [loadProfile, List.mem_filterMap, Option.ite_none_right_eq_some, Option.map_eq_some_iff,
    Prod.mk.injEq]
  constructor
  · rintro ⟨g, -, hallowed, t, ht, rfl, rfl⟩
    exact ⟨hallowed, ht⟩
  · rintro ⟨hallowed, ht⟩
    exact ⟨f, f.mem_all, hallowed, text, ht, rfl, rfl⟩

/-! ## Texts -/

/-- An edit takes the text for the field as it is. -/
structure ProfileForms.Takes (forms : ProfileForms) (f : ProfileField) (text : String) : Prop where
  trimmed : trim text = text
  short : text.length ≤ 500
  plain : text.toList.any isControl = false
  accepted : text = "" ∨ forms.accepts f text = true

variable {desk : Desk} {forms : ProfileForms} {db db' : Db} {p p' : Papers} {kind : ProfileKind} {role : Role}
  {now : Int}

theorem field_ok {entry x : ProfileField × _} :
    forms.field kind role entry = .ok x ↔ entry.1.allowed kind role = true ∧
      forms.Takes entry.1 (trim (entry.2.getD "")) ∧ x = (entry.1, trim (entry.2.getD "")) := by
  simp only [ProfileForms.field, bind_eq_ok, ensure_eq_ok, pure_eq_ok, exists_const, Bool.not_eq_true]
  constructor
  · rintro ⟨hallowed, ⟨hshort, hplain⟩, haccepted, rfl⟩
    exact ⟨hallowed, ⟨trim_trim _, hshort, hplain, haccepted⟩, rfl⟩
  · rintro ⟨hallowed, ⟨-, hshort, hplain, haccepted⟩, rfl⟩
    exact ⟨hallowed, ⟨hshort, hplain⟩, haccepted, rfl⟩

theorem mapM_field {fields : List (ProfileField × Option String)} {texts : List (ProfileField × String)} :
    fields.mapM (forms.field kind role) = .ok texts ↔
      (∀ e ∈ fields, e.1.allowed kind role = true ∧ forms.Takes e.1 (trim (e.2.getD ""))) ∧
        texts = fields.map fun e => (e.1, trim (e.2.getD "")) := by
  rw [mapM_eq_ok]
  induction fields generalizing texts with
  | nil => simp
  | cons e fields ih =>
    rw [List.forall₂_cons_left_iff, List.forall_mem_cons, List.map_cons]
    constructor
    · rintro ⟨x, rest, hx, hrest, rfl⟩
      obtain ⟨hallowed, htakes, rfl⟩ := field_ok.mp hx
      obtain ⟨hall, rfl⟩ := ih.mp hrest
      exact ⟨⟨⟨hallowed, htakes⟩, hall⟩, rfl⟩
    · rintro ⟨⟨⟨hallowed, htakes⟩, hall⟩, rfl⟩
      exact ⟨_, _, field_ok.mpr ⟨hallowed, htakes, rfl⟩, ih.mpr ⟨hall, rfl⟩, rfl⟩

/-- The texts of a patch by field. -/
theorem lookup_texts (fields : List (ProfileField × Option String)) (f : ProfileField) :
    (lookup Prod.fst f (fields.map fun e => (e.1, trim (e.2.getD "")))).map Prod.snd =
      (lookup Prod.fst f fields).map fun e => trim (e.2.getD "") := by
  induction fields with
  | nil => rfl
  | cons e fields ih =>
    unfold lookup at ih ⊢
    rw [List.map_cons, List.find?_cons, List.find?_cons]
    by_cases he : e.1 = f
    · simp [he]
    · simpa [he] using ih

/-! ## Writing a profile -/

theorem upsertProfile_ok {new : Profile} {f : Profile → Profile} (hf : ∀ r, (f r).key = r.key)
    (h : p.upsertProfile new f = .ok p') :
    p'.mutations = p.mutations ∧ p'.applications = p.applications ∧ p'.history = p.history ∧
      (∀ u k, (u, k) ≠ new.key → p'.profile u k = p.profile u k) ∧
      p'.profile new.userId new.kind = some (match p.profile new.userId new.kind with
        | none => { new with version := 1 }
        | some old => { f old with version := old.version + 1 }) := by
  unfold Papers.upsertProfile at h
  cases hold : p.profile new.userId new.kind with
  | none =>
    rw [hold] at h
    obtain rfl := pure_eq_ok.mp h
    refine ⟨rfl, rfl, rfl, fun u k hne => ?_, ?_⟩
    · show lookup Profile.key (u, k) (p.profiles ++ _) = lookup Profile.key (u, k) p.profiles
      rw [lookup_concat, if_neg fun heq => hne heq.symm, Option.or_none]
    · show lookup Profile.key (new.userId, new.kind) (p.profiles ++ _) = _
      rw [lookup_concat, show lookup Profile.key (new.userId, new.kind) p.profiles = none from hold]
      exact if_pos rfl
  | some old =>
    rw [hold] at h
    simp only [bind_eq_ok, bigint_eq_ok, pure_eq_ok] at h
    obtain ⟨v, ⟨-, rfl⟩, rfl⟩ := h
    have hkey : ∀ r : Profile, Profile.key { f r with version := old.version + 1 } = r.key := hf
    refine ⟨rfl, rfl, rfl, fun u k hne => ?_, ?_⟩
    · exact lookup_modify_ne hkey hne p.profiles
    · have hself := lookup_modify_self (k := new.key) hkey p.profiles
      rw [show lookup Profile.key new.key p.profiles = some old from hold] at hself
      exact hself

/-! ## Edits -/

/-- The stored text of a field after a change. -/
def ProfileChange.apply (c : ProfileChange) (stored : Option String) (f : ProfileField) : Option String :=
  match c with
  | .patch fields => ((lookup Prod.fst f fields).map fun e => trim (e.2.getD "")).or stored
  | .removeStaff => none

/-- An edit that is committed: its versions are the current ones, it writes what it names and records the
next version. -/
structure Committed (forms : ProfileForms) (db : Db) (input : EditProfile) (db' : Db) (actor target : User) :
    Prop where
  scope : profileScope db input.clerkUserId input.targetUserId input.kind true = .ok (actor, target)
  named : target.id = input.targetUserId
  identityVersion : input.expectedIdentityVersion = target.version
  version : input.expectedVersion = db.papers.profileVersion target.id input.kind
  takes : ∀ fields, input.change = .patch fields → fields ≠ [] ∧ ∀ e ∈ fields,
    e.1.allowed input.kind target.role = true ∧ forms.Takes e.1 (trim (e.2.getD ""))
  fields : ∀ f, db'.papers.profileFields target.id input.kind f =
    input.change.apply (db.papers.profileFields target.id input.kind f) f
  others : ∀ u k, (u, k) ≠ (target.id, input.kind) → db'.papers.profile u k = db.papers.profile u k
  next : db'.papers.profileVersion target.id input.kind = db.papers.profileVersion target.id input.kind + 1
  recorded : ∃ m, db'.papers.mutations = db.papers.mutations ++ [m] ∧ m.operationId = input.operationId ∧
    m.targetUserId = target.id ∧ m.kind = input.kind ∧
    m.previousVersion = db.papers.profileVersion target.id input.kind ∧
    m.committedVersion = db'.papers.profileVersion target.id input.kind
  fresh : ∀ m ∈ db.papers.mutations, m.operationId ≠ input.operationId
  applications : db'.papers.applications = db.papers.applications

theorem profileScope_target {subject : String} {target : Uuid} {write : Bool} {x : User × User}
    (h : profileScope db subject target kind write = .ok x) : db.directory.user target = some x.2 := by
  simp only [profileScope, user, bind_eq_ok, fetch_eq_ok, pure_eq_ok] at h
  obtain ⟨-, -, -, -, a, -, t, ht, -, -, -, -, agency, -, -, -, rfl⟩ := h
  exact ht

/-- What `normalized` makes of a change. -/
theorem normalized_ok {change : ProfileChange} {texts : Option (List (ProfileField × String))}
    (h : forms.normalized kind role change = .ok texts) :
    (∀ fields, change = .patch fields → fields ≠ [] ∧ ∀ e ∈ fields,
      e.1.allowed kind role = true ∧ forms.Takes e.1 (trim (e.2.getD ""))) ∧
    ((∃ fields, change = .patch fields ∧ texts = some (fields.map fun e => (e.1, trim (e.2.getD "")))) ∨
      change = .removeStaff ∧ texts = none) := by
  cases change with
  | removeStaff =>
    simp only [ProfileForms.normalized, bind_eq_ok, pure_eq_ok] at h
    obtain ⟨-, -, rfl⟩ := h
    exact ⟨fun fields heq => (by cases heq), .inr ⟨rfl, rfl⟩⟩
  | patch fields =>
    simp only [ProfileForms.normalized, bind_eq_ok, ensure_eq_ok, mapM_field, pure_eq_ok] at h
    obtain ⟨-, hne, texts, ⟨hall, rfl⟩, rfl⟩ := h
    refine ⟨fun fields' heq => ?_, .inl ⟨fields, rfl, rfl⟩⟩
    cases heq
    exact ⟨hne, hall⟩

theorem papersEdit_ok {user : Uuid} {change : ProfileChange} {texts : Option (List (ProfileField × String))}
    (htexts : (∃ fields, change = .patch fields ∧
        texts = some (fields.map fun e => (e.1, trim (e.2.getD "")))) ∨ change = .removeStaff ∧ texts = none)
    (h : p.editProfile user kind texts = .ok p') :
    p'.mutations = p.mutations ∧ p'.applications = p.applications ∧
      (∀ u k, (u, k) ≠ (user, kind) → p'.profile u k = p.profile u k) ∧
      p'.profileVersion user kind = p.profileVersion user kind + 1 ∧
      ∀ f, p'.profileFields user kind f = change.apply (p.profileFields user kind f) f := by
  rcases htexts with ⟨fields, rfl, rfl⟩ | ⟨rfl, rfl⟩
  · obtain ⟨hmutations, happlications, -, hothers, hrow⟩ := upsertProfile_ok (by exact fun r => rfl) h
    refine ⟨hmutations, happlications, hothers, ?_, fun f => ?_⟩
    · unfold Papers.profileVersion
      rw [hrow]
      cases p.profile user kind with
      | none => rfl
      | some old => rfl
    · have htext := lookup_texts fields f
      unfold Papers.profileFields
      rw [hrow]
      cases p.profile user kind with
      | none =>
        show mergeFields (fun _ => none) _ f = _
        rw [mergeFields, htext]
        rfl
      | some old =>
        show mergeFields old.fields _ f = _
        rw [mergeFields, htext]
        rfl
  · obtain ⟨hmutations, happlications, -, hothers, hrow⟩ := upsertProfile_ok (by exact fun r => rfl) h
    refine ⟨hmutations, happlications, hothers, ?_, fun f => ?_⟩
    · unfold Papers.profileVersion
      rw [hrow]
      cases p.profile user kind with
      | none => rfl
      | some old => rfl
    · unfold Papers.profileFields
      rw [hrow]
      cases p.profile user kind with
      | none => rfl
      | some old => rfl

/-- An edit is replayed, and then changes nothing, or committed. -/
theorem editProfile_ok {input : EditProfile} {count : Nat} (h : editProfile forms db input count = .ok db') :
    ((∃ m ∈ db.papers.mutations, m.operationId = input.operationId) ∧ db' = db) ∨
      ∃ actor target, Committed forms db input db' actor target := by
  simp only [editProfile, bind_eq_ok, ensure_eq_ok] at h
  obtain ⟨-, -, ⟨actor, target⟩, hscope, texts, htexts, h⟩ := h
  have htarget := profileScope_target hscope
  split at h
  · rename_i old hold
    simp only [bind_eq_ok, pure_eq_ok] at h
    obtain ⟨-, -, rfl⟩ := h
    exact .inl ⟨⟨old, lookup_mem hold, lookup_key hold⟩, rfl⟩
  · rename_i hnone
    simp only [bind_eq_ok, ensure_eq_ok, mapError_eq_ok, pure_eq_ok, Papers.insertMutation] at h
    obtain ⟨-, ⟨hidentity, hversion⟩, -, -, p, hp, q, ⟨-, hfresh, rfl⟩, rfl⟩ := h
    obtain ⟨htakes, hchange⟩ := normalized_ok htexts
    obtain ⟨hmutations, happlications, hothers, hnext, hfields⟩ := papersEdit_ok hchange hp
    refine .inr ⟨actor, target, hscope, lookup_key htarget, hidentity, hversion, htakes, hfields, hothers, hnext,
      ⟨_, congrArg (· ++ [_]) hmutations, rfl, rfl, rfl, rfl, hnext.symm⟩, ?_, happlications⟩
    rw [← hmutations]
    exact hfresh

/-! ## Approvals -/

/-- What the check of an application leaves of its fields: line breaks are the only control characters. -/
structure ApplicationFields.Checked (f : ApplicationFields) : Prop where
  texts : ∀ text ∈ [f.agencyName, f.businessMobile, f.businessEmail, f.businessAddress, f.fullName,
    f.personalMobile, f.personalAddress], trim text = text ∧ validNote text = true
  email : emailShape f.businessEmail = true

theorem requiredText_ok {value text : String} (h : requiredText value = .ok text) :
    trim text = text ∧ validNote text = true := by
  simp only [requiredText, bind_eq_ok, ensure_eq_ok, pure_eq_ok] at h
  obtain ⟨-, ⟨-, hvalid⟩, rfl⟩ := h
  exact ⟨trim_trim value, hvalid⟩

theorem validate_checked {f f' : ApplicationFields} (h : f.validate = .ok f') : f'.Checked := by
  simp only [ApplicationFields.validate, bind_eq_ok, ensure_eq_ok, pure_eq_ok] at h
  obtain ⟨name, hname, mobile, hmobile, email, hemail, address, haddress, full, hfull, business, -, personal,
    hpersonal, home, hhome, -, ⟨hshape, -⟩, rfl⟩ := h
  refine ⟨fun text htext => ?_, hshape⟩
  simp only [List.mem_cons, List.not_mem_nil, or_false] at htext
  rcases htext with rfl | rfl | rfl | rfl | rfl | rfl | rfl
  · exact requiredText_ok hname
  · exact requiredText_ok hmobile
  · exact requiredText_ok hemail
  · exact requiredText_ok haddress
  · exact requiredText_ok hfull
  · exact requiredText_ok hpersonal
  · exact requiredText_ok hhome

/-- A text of one line. -/
def oneLine (text : String) : Bool := text.toList.all fun c => c ≠ '\n' && c ≠ '\r'

theorem takes_of_checked {f : ProfileField} {text : String} (hcheck : trim text = text ∧ validNote text = true)
    (hline : oneLine text = true) (haccepts : forms.accepts f text = true) : forms.Takes f text := by
  obtain ⟨htrim, hvalid⟩ := hcheck
  simp only [validNote, Bool.and_eq_true, decide_eq_true_eq, Bool.not_eq_true', List.any_eq_false] at hvalid
  refine ⟨htrim, hvalid.1, ?_, .inr haccepts⟩
  rw [List.any_eq_false]
  intro c hc hcontrol
  have hc' := List.all_eq_true.mp hline c hc
  simp only [Bool.and_eq_true, decide_eq_true_eq] at hc'
  exact hvalid.2 c hc (by simp [hcontrol, hc'.1, hc'.2])

/-- An entry of a transfer is for a field that has never been set. -/
theorem mem_transferPatch {f : ApplicationFields} {email : Option String} {current : ProfileField → Option String}
    {e : ProfileField × String} (h : e ∈ transferPatch f email current) :
    current e.1 = none ∧ (e ∈ f.profileFields ∨
      e = (.givenName, f.fullName) ∧ current .surname = none ∨ e.1 = .email ∧ email = some e.2) := by
  simp only [transferPatch, List.mem_append, List.mem_filter, Option.isNone_iff_eq_none] at h
  rcases h with (⟨hmem, hnone⟩ | h) | h
  · exact ⟨hnone, .inl hmem⟩
  · split at h
    · rename_i habsent
      obtain rfl := List.mem_singleton.mp h
      exact ⟨habsent.1, .inr (.inl ⟨rfl, habsent.2⟩)⟩
    · cases h
  · split at h
    · rename_i habsent
      obtain ⟨t, ht, rfl⟩ := List.mem_map.mp h
      exact ⟨habsent, .inr (.inr ⟨rfl, Option.mem_toList.mp ht⟩)⟩
    · cases h

/-- What a transfer does to the profile of a user: a text that is there stays, what is new comes from the
application or is the address of the user. -/
theorem transfer_ok {user : Uuid} {f : ApplicationFields} {email : Option String}
    (h : p.transfer user f email = .ok p') :
    p'.mutations = p.mutations ∧ p'.applications = p.applications ∧
      (∀ u k, (u, k) ≠ (user, .profile) → p'.profile u k = p.profile u k) ∧
      p'.profileVersion user .profile = p.profileVersion user .profile + 1 ∧
      ∀ g, (∀ text, p.profileFields user .profile g = some text →
          p'.profileFields user .profile g = some text) ∧
        ∀ text, p.profileFields user .profile g = none → p'.profileFields user .profile g = some text →
          (g, text) ∈ transferPatch f email (p.profileFields user .profile) := by
  obtain ⟨hmutations, happlications, -, hothers, hrow⟩ := upsertProfile_ok (by exact fun r => rfl) h
  have hfields : ∀ g, p'.profileFields user .profile g =
      mergeFields (p.profileFields user .profile)
        (transferPatch f email (p.profileFields user .profile)) g := by
    intro g
    rw [Papers.profileFields, hrow]
    cases hold : p.profile user .profile with
    | none =>
      have hcurrent : p.profileFields user .profile = fun _ => none := by
        funext g
        rw [Papers.profileFields, hold]
        rfl
      rw [hcurrent]
      rfl
    | some old =>
      have hcurrent : p.profileFields user .profile = old.fields := by
        funext g
        rw [Papers.profileFields, hold]
        rfl
      rw [hcurrent]
      rfl
  -- a transfer fills gaps: it asks for no field that the profile has
  refine ⟨hmutations, happlications, hothers, ?_,
    fun g => ⟨fun text htext => ?_, fun text hnone htext => ?_⟩⟩
  · unfold Papers.profileVersion
    rw [hrow]
    cases p.profile user .profile with
    | none => rfl
    | some old => rfl
  · rw [hfields, mergeFields]
    cases hlookup : lookup Prod.fst g (transferPatch f email (p.profileFields user .profile)) with
    | none => exact htext
    | some e =>
      have habsent := (mem_transferPatch (lookup_mem hlookup)).1
      rw [lookup_key hlookup, htext] at habsent
      cases habsent
  · rw [hfields, mergeFields, hnone, Option.or_none, Option.map_eq_some_iff] at htext
    obtain ⟨e, he, rfl⟩ := htext
    rw [← lookup_key he]
    exact lookup_mem he

/-- The address of a user is as it was when the agency is provisioned. -/
theorem provision_email {target old current : User} {draw : Draw} (h : provision db target draw = .ok db')
    (hold : db.directory.user target.id = some old) (hcurrent : db'.directory.user target.id = some current) :
    current.email = old.email := by
  simp only [provision, Directory.provision, bind_eq_ok, mapError_eq_ok, pure_eq_ok] at h
  obtain ⟨-, -, -, -, -, -, code, -, d, ⟨d₁, hupdate, d₂, hagency, hmember⟩, b, -, rfl⟩ := h
  obtain ⟨row, hguard, hrow⟩ := user_updateUser hupdate hold
  obtain ⟨-, -, -, rfl⟩ := insertAgency_ok hagency
  obtain ⟨-, -, -, d₃, hupdate', rfl⟩ := insertMembership_ok hmember
  obtain ⟨row', hguard', hrow'⟩ := user_updateUser hupdate' (show _ = some row from hrow)
  obtain rfl : row' = current := Option.some.inj (hrow'.symm.trans hcurrent)
  rw [hguard'.row_eq, hguard.row_eq]

theorem updateApplication_profiles {user : Uuid} {f : Application → Application}
    (h : p.updateApplication user f = .ok p') (hf : ∀ a, (f a).fields = a.fields) :
    p'.profiles = p.profiles ∧ p'.mutations = p.mutations ∧
      ((∀ a ∈ p.applications, a.fields.Checked) → ∀ a ∈ p'.applications, a.fields.Checked) := by
  unfold Papers.updateApplication at h
  cases hold : p.application user with
  | none =>
    rw [hold] at h
    obtain rfl := pure_eq_ok.mp h
    exact ⟨rfl, rfl, id⟩
  | some old =>
    rw [hold] at h
    simp only [guardApplication, Papers.record, bind_eq_ok, pure_eq_ok] at h
    obtain ⟨row, ⟨-, -, v, -, rfl⟩, -, -, rfl⟩ := h
    refine ⟨rfl, rfl, fun hall a ha => ?_⟩
    rcases modify_cases ha with ⟨ha, -⟩ | ⟨-, -, -, rfl⟩
    · exact hall a ha
    · show (f old).fields.Checked
      rw [hf]
      exact hall old (lookup_mem hold)

/-- What a review does to the papers: an approval adds to the profile of the applicant. -/
structure Approved (db db' : Db) (input : ReviewApplication) : Prop where
  mutations : db'.papers.mutations = db.papers.mutations
  applications : (∀ a ∈ db.papers.applications, a.fields.Checked) →
    ∀ a ∈ db'.papers.applications, a.fields.Checked
  others : ∀ u k, (u, k) ≠ (input.targetUserId, .profile) → db'.papers.profile u k = db.papers.profile u k
  version : db.papers.profileVersion input.targetUserId .profile ≤
    db'.papers.profileVersion input.targetUserId .profile
  kept : ∀ f text, db.papers.profileFields input.targetUserId .profile f = some text →
    db'.papers.profileFields input.targetUserId .profile f = some text
  added : ∀ f text, db.papers.profileFields input.targetUserId .profile f = none →
    db'.papers.profileFields input.targetUserId .profile f = some text →
    input.decision = .accept ∧ ∃ target application, db.directory.user input.targetUserId = some target ∧
      db.papers.application input.targetUserId = some application ∧
      (f, text) ∈ transferPatch application.fields target.email
        (db.papers.profileFields input.targetUserId .profile)

theorem profileFields_of_profile {u : Uuid} (h : p'.profile u kind = p.profile u kind) (f : ProfileField) :
    p'.profileFields u kind f = p.profileFields u kind f := by
  rw [Papers.profileFields, h, Papers.profileFields]

theorem profileVersion_of_profile {u : Uuid} (h : p'.profile u kind = p.profile u kind) :
    p'.profileVersion u kind = p.profileVersion u kind := by
  rw [Papers.profileVersion, h, Papers.profileVersion]

theorem profile_of_profiles (h : p'.profiles = p.profiles) (u : Uuid) (k : ProfileKind) :
    p'.profile u k = p.profile u k := by
  rw [Papers.profile, h, Papers.profile]

theorem review_approved {input : ReviewApplication} {draw : Draw} (h : review db now input draw = .ok db') :
    Approved db db' input := by
  obtain rfl | ⟨a, target, application, db₁, p, hreviewing, hdecide, hupdate, rfl, -⟩ := review_ok h
  · exact ⟨rfl, id, fun _ _ _ => rfl, le_refl _, fun _ _ => id, fun f text hnone hsome => by
      rw [hnone] at hsome
      cases hsome⟩
  obtain ⟨hprofiles, hmutations, hchecked⟩ := updateApplication_profiles hupdate fun _ => rfl
  have hid : target.id = input.targetUserId := lookup_key hreviewing.applicant
  have hprofile := profile_of_profiles hprofiles
  unfold decideApplication at hdecide
  split at hdecide
  · rename_i haccept
    obtain ⟨db₂, current, q, access, db₃, hprovision, hcurrent, htransfer, heffects, rfl⟩ :=
      acceptApplication_ok hdecide
    obtain ⟨current', e₁, e₂, mirrored, -, -, -, rfl⟩ := commandEffects_ok heffects
    have hemail : current.email = target.email :=
      provision_email hprovision (by rw [hid]; exact hreviewing.applicant) hcurrent
    obtain ⟨hsame, happlications, hothers, hnext, hfields⟩ := transfer_ok htransfer
    rw [hid] at hothers hnext hfields
    refine ⟨hmutations.trans hsame, fun hall => hchecked (by exact happlications ▸ hall), ?_, ?_, ?_, ?_⟩
    · intro u k hne
      exact (hprofile u k).trans (hothers u k hne)
    · have hversion := (profileVersion_of_profile (hprofile input.targetUserId .profile)).trans hnext
      exact hversion ▸ Int.le_add_one (le_refl _)
    · intro f text htext
      exact (profileFields_of_profile (hprofile _ _) f).trans ((hfields f).1 text htext)
    · intro f text hnone hsome
      have hsome' := (profileFields_of_profile (hprofile _ _) f).symm.trans hsome
      refine ⟨haccept, target, application, hreviewing.applicant, ?_, ?_⟩
      · rw [← hid]
        exact hreviewing.applied
      · rw [← hemail]
        exact (hfields f).2 text hnone hsome'
  -- only an acceptance transfers, so every other decision leaves the profile alone
  · obtain rfl := pure_eq_ok.mp hdecide
    refine ⟨hmutations, hchecked, fun u k _ => hprofile u k,
      (profileVersion_of_profile (hprofile _ _)).symm.le, ?_, ?_⟩
    · intro f text htext
      exact (profileFields_of_profile (hprofile _ _) f).trans htext
    · intro f text hnone hsome
      have hsome' := (profileFields_of_profile (hprofile _ _) f).symm.trans hsome
      rw [hnone] at hsome'
      cases hsome'

/-! ## Other requests -/

/-- The profiles are as they were. -/
structure Untouched (p p' : Papers) : Prop where
  profiles : p'.profiles = p.profiles
  mutations : p'.mutations = p.mutations
  applications : (∀ a ∈ p.applications, a.fields.Checked) → ∀ a ∈ p'.applications, a.fields.Checked

theorem Untouched.refl (p : Papers) : Untouched p p := ⟨rfl, rfl, id⟩

theorem commitCommand_untouched {c : Command} (h : commitCommand db c = .ok db')
    (hp : Untouched p db.papers) : Untouched p db'.papers := by
  rw [commitCommand_frame h]
  exact ⟨hp.profiles, hp.mutations, hp.applications⟩

theorem submit_untouched {input : SubmitApplication} (h : submit db input = .ok db') :
    Untouched db.papers db'.papers := by
  simp only [submit, bind_eq_ok] at h
  obtain ⟨fields, hfields, -, -, actor, -, -, -, old, -, h⟩ := h
  split at h
  · obtain rfl := pure_eq_ok.mp h
    exact .refl _
  · simp only [bind_eq_ok, mapError_eq_ok, Papers.submit] at h
    obtain ⟨-, -, -, -, p, ⟨-, -, hp⟩, hcommand⟩ := h
    refine commitCommand_untouched hcommand ?_
    split at hp
    · simp only [Papers.record, bind_eq_ok, pure_eq_ok] at hp
      obtain ⟨-, -, rfl⟩ := hp
      refine ⟨rfl, rfl, fun hall a ha => ?_⟩
      rcases List.mem_append.mp ha with ha | ha
      · exact hall a ha
      · rw [List.mem_singleton.mp ha]
        exact validate_checked hfields
    · rename_i old hold
      simp only [Papers.updateApplication, hold, guardApplication, Papers.record, bind_eq_ok, pure_eq_ok] at hp
      obtain ⟨row, ⟨-, -, v, -, rfl⟩, -, -, rfl⟩ := hp
      refine ⟨rfl, rfl, fun hall a ha => ?_⟩
      rcases modify_cases ha with ⟨ha, -⟩ | ⟨-, -, -, rfl⟩
      · exact hall a ha
      · exact validate_checked hfields

/-- Neither the profiles nor the applications are touched. -/
structure Filed (p p' : Papers) : Prop where
  profiles : p'.profiles = p.profiles
  mutations : p'.mutations = p.mutations
  applications : p'.applications = p.applications
  history : p'.history = p.history

theorem Filed.refl (p : Papers) : Filed p p := ⟨rfl, rfl, rfl, rfl⟩

theorem Filed.untouched (h : Filed p p') : Untouched p p' :=
  ⟨h.profiles, h.mutations, fun hall => h.applications ▸ hall⟩

theorem commitCommand_filed {c : Command} (h : commitCommand db c = .ok db')
    (hp : Filed p db.papers) : Filed p db'.papers := by
  rw [commitCommand_frame h]
  exact ⟨hp.profiles, hp.mutations, hp.applications, hp.history⟩

theorem setAsset_filed {a : Asset} {state : AssetState} (h : p.setAsset a state = .ok p') :
    Filed p p' := by
  simp only [Papers.setAsset, bind_eq_ok, pure_eq_ok] at h
  obtain ⟨-, -, rfl⟩ := h
  exact ⟨rfl, rfl, rfl, rfl⟩

theorem setSlot_filed {user : Uuid} {slot : Slot} {asset : Option Uuid}
    (h : p.setSlot user slot asset = .ok p') : Filed p p' := by
  simp only [Papers.setSlot, bind_eq_ok] at h
  obtain ⟨-, -, h⟩ := h
  split at h
  · obtain rfl := pure_eq_ok.mp h
    exact ⟨rfl, rfl, rfl, rfl⟩
  · simp only [bind_eq_ok, pure_eq_ok] at h
    obtain ⟨v, -, rfl⟩ := h
    exact ⟨rfl, rfl, rfl, rfl⟩

theorem prepareDocument_filed {archive : Archive} {input : PrepareDocument}
    (h : prepareDocument archive db input = .ok db') : Filed db.papers db'.papers := by
  simp only [prepareDocument, bind_eq_ok] at h
  obtain ⟨-, -, x, -, h⟩ := h
  split at h
  · simp only [bind_eq_ok, pure_eq_ok] at h
    obtain ⟨-, -, rfl⟩ := h
    exact .refl _
  · simp only [bind_eq_ok, mapError_eq_ok, Papers.insertAsset, pure_eq_ok] at h
    obtain ⟨-, -, p, ⟨-, -, -, -, rfl⟩, rfl⟩ := h
    exact ⟨rfl, rfl, rfl, rfl⟩

theorem startDocument_filed {input : AssetRequest} (h : startDocument db input = .ok db') :
    Filed db.papers db'.papers := by
  simp only [startDocument, bind_eq_ok, mapError_eq_ok, pure_eq_ok] at h
  obtain ⟨a, -, x, -, -, -, p, hp, rfl⟩ := h
  exact setAsset_filed hp

theorem finishDocument_filed {input : FinishDocument} (h : finishDocument db input = .ok db') :
    Filed db.papers db'.papers := by
  simp only [finishDocument, bind_eq_ok] at h
  obtain ⟨a, -, x, -, -, -, h⟩ := h
  split at h
  · obtain rfl := pure_eq_ok.mp h
    exact .refl _
  · obtain ⟨-, -, h⟩ := bind_eq_ok.mp h
    split at h
    · obtain rfl := pure_eq_ok.mp h
      exact .refl _
    · simp only [bind_eq_ok, mapError_eq_ok, Papers.publish, pure_eq_ok] at h
      obtain ⟨-, -, p, ⟨q, hq, hp⟩, rfl⟩ := h
      have hasset := setAsset_filed hq
      split at hp
      · have hslot := setSlot_filed hp
        exact ⟨hslot.profiles.trans hasset.profiles, hslot.mutations.trans hasset.mutations,
          hslot.applications.trans hasset.applications, hslot.history.trans hasset.history⟩
      · obtain rfl := pure_eq_ok.mp hp
        exact hasset

theorem removeDocument_filed {archive : Archive} {input : RemoveDocument}
    (h : removeDocument archive db input = .ok db') : Filed db.papers db'.papers := by
  simp only [removeDocument, bind_eq_ok] at h
  obtain ⟨-, -, x, -, old, -, h⟩ := h
  split at h
  · obtain rfl := pure_eq_ok.mp h
    exact .refl _
  · simp only [bind_eq_ok, mapError_eq_ok] at h
    obtain ⟨-, -, p, hp, hcommand⟩ := h
    exact commitCommand_filed hcommand (setSlot_filed hp)

theorem rename_filed {input : Rename} {draw : Draw} (h : rename db now input draw = .ok db') :
    Filed db.papers db'.papers := by
  obtain rfl | ⟨a, target, d, db₁, names, c, -, -, -, -, -, -, rfl⟩ := rename_ok h
  · exact .refl _
  · exact ⟨rfl, rfl, rfl, rfl⟩

/-- No other request writes a profile. -/
theorem request_untouched {r : Request} (h : r.run desk db now = .ok db')
    (hedit : ∀ input count, r ≠ .editProfile input count) (hreview : ∀ input draw, r ≠ .review input draw) :
    Untouched db.papers db'.papers := by
  cases r with
  | editProfile input count => exact absurd rfl (hedit input count)
  | review input draw => exact absurd rfl (hreview input draw)
  | submit input => exact submit_untouched h
  | rename input draw => exact (rename_filed h).untouched
  | prepareDocument input => exact (prepareDocument_filed h).untouched
  | startDocument input => exact (startDocument_filed h).untouched
  | finishDocument input => exact (finishDocument_filed h).untouched
  | removeDocument input => exact (removeDocument_filed h).untouched
  | _ =>
    rw [(request_frame h).papers (by simp [Request.writes])]
    exact .refl _

/-! ## Steps -/

variable {s₀ s s' : System} {t : List (Transition System Event)} {ev : Event}

theorem step_untouched (h : s.step desk ev = .ok s')
    (hedit : ∀ input count now, ev ≠ .request (.editProfile input count) now)
    (hreview : ∀ input draw now, ev ≠ .request (.review input draw) now) :
    Untouched s.db.papers s'.db.papers := by
  cases ev with
  | request r now =>
    obtain ⟨db, hrun, hs⟩ := bind_eq_ok.mp h
    obtain rfl := pure_eq_ok.mp hs
    refine request_untouched hrun (fun input count heq => ?_) fun input draw heq => ?_
    · exact hedit input count now (by rw [heq])
    · exact hreview input draw now (by rw [heq])
  | _ =>
    rw [(step_frame h).db.papers (by simp [Event.writes])]
    exact .refl _

theorem step_edit {input : EditProfile} {count : Nat}
    (h : s.step desk (.request (.editProfile input count) now) = .ok s') :
    editProfile desk.forms s.db input count = .ok s'.db := by
  obtain ⟨db, hrun, hs⟩ := bind_eq_ok.mp h
  obtain rfl := pure_eq_ok.mp hs
  exact hrun

theorem step_review {input : ReviewApplication} {draw : Draw}
    (h : s.step desk (.request (.review input draw) now) = .ok s') : Approved s.db s'.db input := by
  obtain ⟨db, hrun, hs⟩ := bind_eq_ok.mp h
  obtain rfl := pure_eq_ok.mp hs
  exact review_approved hrun

/-- What an approval copies is one line of text, and an address that an edit takes. -/
def CleanReview (forms : ProfileForms) (db : Db) (input : ReviewApplication) : Prop :=
  input.decision = .accept → ∀ application target,
    db.papers.application input.targetUserId = some application →
    db.directory.user input.targetUserId = some target →
    let current := db.papers.profileFields input.targetUserId .profile
    (∀ e ∈ application.fields.profileFields, current e.1 = none → oneLine e.2 = true) ∧
    (current .givenName = none → current .surname = none → oneLine application.fields.fullName = true) ∧
    (current .email = none → ∀ email ∈ target.email, forms.Takes .email email)

/-- Every approval among the transitions of a run is a clean one. -/
def Clean (desk : Desk) (t : List (Transition System Event)) : Prop :=
  ∀ r ∈ t, ∀ input draw now, r.label = .request (.review input draw) now →
    CleanReview desk.forms r.before.db input

/-- Every stored text is one that an edit takes. -/
structure Stored (forms : ProfileForms) (p : Papers) : Prop where
  applications : ∀ a ∈ p.applications, a.fields.Checked
  versions : ∀ u k, 0 ≤ p.profileVersion u k
  takes : ∀ u k f text, p.profileFields u k f = some text → forms.Takes f text

theorem Untouched.stored (h : Untouched p p') (hp : Stored forms p) : Stored forms p' := by
  refine ⟨h.applications hp.applications, fun u k => ?_, fun u k f text htext => ?_⟩
  · rw [profileVersion_of_profile (profile_of_profiles h.profiles u k)]
    exact hp.versions u k
  · rw [profileFields_of_profile (profile_of_profiles h.profiles u k)] at htext
    exact hp.takes u k f text htext

theorem transfer_takes {f : ApplicationFields} (hf : f.Checked) {e : ProfileField × String}
    (he : e ∈ f.profileFields) (hline : oneLine e.2 = true) : forms.Takes e.1 e.2 := by
  have htexts := hf.texts
  simp only [List.forall_mem_cons] at htexts
  obtain ⟨hname, hmobile, hemail, haddress, -, hpersonal, hhome, -⟩ := htexts
  simp only [ApplicationFields.profileFields, List.mem_cons, List.not_mem_nil, or_false] at he
  rcases he with rfl | rfl | rfl | rfl | rfl | rfl
  · exact takes_of_checked hname hline rfl
  · exact takes_of_checked hmobile hline rfl
  · exact takes_of_checked hemail hline hf.email
  · exact takes_of_checked haddress hline rfl
  · exact takes_of_checked hpersonal hline rfl
  · exact takes_of_checked hhome hline rfl

theorem Approved.stored {input : ReviewApplication} (h : Approved db db' input)
    (hclean : CleanReview forms db input) (hp : Stored forms db.papers) : Stored forms db'.papers := by
  refine ⟨h.applications hp.applications, fun u k => ?_, fun u k f text htext => ?_⟩
  · by_cases hkey : (u, k) = (input.targetUserId, .profile)
    · obtain ⟨rfl, rfl⟩ := Prod.mk.inj hkey
      exact (hp.versions _ _).trans h.version
    · rw [profileVersion_of_profile (h.others u k hkey)]
      exact hp.versions u k
  by_cases hkey : (u, k) = (input.targetUserId, .profile)
  · obtain ⟨rfl, rfl⟩ := Prod.mk.inj hkey
    cases hbefore : db.papers.profileFields input.targetUserId .profile f with
    | some text' =>
      have hkept := h.kept f text' hbefore
      rw [htext] at hkept
      cases hkept
      exact hp.takes _ _ _ _ hbefore
    | none =>
      obtain ⟨haccept, target, application, htarget, happlication, hmem⟩ := h.added f text hbefore htext
      obtain ⟨hlines, hname, hemail⟩ := hclean haccept application target happlication htarget
      have hchecked := hp.applications application (lookup_mem happlication)
      obtain ⟨-, he | ⟨heq, hsurname⟩ | ⟨rfl, haddress⟩⟩ := mem_transferPatch hmem
      · exact transfer_takes hchecked he (hlines _ he hbefore)
      · obtain ⟨rfl, rfl⟩ := Prod.mk.inj heq
        exact takes_of_checked (hchecked.texts _ (by simp)) (hname hbefore hsurname) rfl
      · exact hemail hbefore text haddress
  · rw [profileFields_of_profile (h.others u k hkey)] at htext
    exact hp.takes u k f text htext

theorem Committed.stored {input : EditProfile} {actor target : User}
    (h : Committed forms db input db' actor target) (hp : Stored forms db.papers) : Stored forms db'.papers := by
  refine ⟨h.applications ▸ hp.applications, fun u k => ?_, fun u k f text htext => ?_⟩
  · by_cases hkey : (u, k) = (target.id, input.kind)
    · obtain ⟨rfl, rfl⟩ := Prod.mk.inj hkey
      rw [h.next]
      exact Int.add_nonneg (hp.versions _ _) (by decide)
    · rw [profileVersion_of_profile (h.others u k hkey)]
      exact hp.versions u k
  by_cases hkey : (u, k) = (target.id, input.kind)
  · obtain ⟨rfl, rfl⟩ := Prod.mk.inj hkey
    rw [h.fields] at htext
    unfold ProfileChange.apply at htext
    split at htext
    · rename_i fields hchange
      cases hlookup : lookup Prod.fst f fields with
      | none =>
        rw [hlookup] at htext
        exact hp.takes _ _ _ _ htext
      | some e =>
        rw [hlookup] at htext
        cases htext
        have htakes := ((h.takes fields hchange).2 e (lookup_mem hlookup)).2
        rw [lookup_key hlookup] at htakes
        exact htakes
    · cases htext
  · rw [profileFields_of_profile (h.others u k hkey)] at htext
    exact hp.takes u k f text htext

/-! ## Versions -/

/-- The version of every user counts from one. -/
def Directory.Versioned (d : Directory) : Prop := ∀ u ∈ d.users, 1 ≤ u.version

variable {d d' : Directory}

theorem updateUser_versioned {id : Uuid} {f : User → User} (h : d.updateUser id f = .ok d')
    (hd : d.Versioned) : d'.Versioned := by
  obtain ⟨-, rfl⟩ | ⟨old, row, hold, hguard, rfl⟩ := updateUser_ok h
  · exact hd
  · intro u hu
    rcases modify_cases hu with ⟨hu, -⟩ | ⟨-, -, -, rfl⟩
    · exact hd u hu
    · have hversion : u.version = old.version + 1 := by rw [hguard.row_eq]
      have hbound := hd old (lookup_mem hold)
      omega

theorem stmts_versioned {i : Inbox} {b : String → Prop} (h : Stmts i b d d') (hd : d.Versioned) :
    d'.Versioned := by
  induction h with
  | refl => exact hd
  | tail _ hstmt ih =>
    cases hstmt with
    | update id f _ h _ => exact updateUser_versioned h ih
    | insert u _ h hadmitted =>
      obtain ⟨-, -, rfl⟩ := insertUser_ok h
      intro v hv
      rcases List.mem_append.mp hv with hv | hv
      · exact ih v hv
      · rw [List.mem_singleton.mp hv, hadmitted.1]
    | agency id status _ h =>
      obtain ⟨-, rfl⟩ | ⟨old, -, -, rfl⟩ := setAgency_ok h
      · exact ih
      · exact ih
    | newAgency a _ h =>
      obtain ⟨-, -, -, rfl⟩ := insertAgency_ok h
      exact ih
    | member m _ h _ =>
      obtain ⟨-, -, -, d₁, hupdate, rfl⟩ := insertMembership_ok h
      have hupdated : d₁.Versioned := updateUser_versioned hupdate ih
      exact hupdated
    | mark id => exact ih

theorem step_versioned (hs : Registered s) (h : s.step desk ev = .ok s') (hd : s.db.directory.Versioned) :
    s'.db.directory.Versioned := by
  by_cases hdenies : ev.denies = true
  · cases ev with
    | request r now =>
      obtain ⟨db, hrun, hs⟩ := bind_eq_ok.mp h
      obtain rfl := pure_eq_ok.mp hs
      cases r with
      | prepareDeletion input =>
        obtain rfl | ⟨a, target, -, -, -, -, -, -, -, -, -, hcommit⟩ := prepareDeletion_ok hrun
        · exact hd
        · obtain ⟨d₁, d₂, access, hupdate, hsuspend, -, rfl, -⟩ := commitDeletion_ok hcommit
          have hsuspended : Stmts s.db.inbox (fun _ => False) d₁ d₂ := suspendAgency_stmts hsuspend
          exact stmts_versioned hsuspended (updateUser_versioned hupdate hd)
      | finalizeDeletion subject id =>
        obtain ⟨x, hx, rfl⟩ := map_eq_ok.mp hrun
        obtain hsame | ⟨r, hr, ⟨e, hdenial, -⟩ | ⟨target, d₁, d₂, access, -, -, -, -, -, hupdate, harchive, hdb, -⟩⟩ :=
          finalizeDeletion_ok hx
        · show x.db.directory.Versioned
          rw [hsame]
          exact hd
        · show x.db.directory.Versioned
          obtain ⟨b, hb⟩ := maintainDenial_frame hdenial
          rw [hb]
          exact hd
        · have harchived : Stmts s.db.inbox (fun _ => False) d₁ d₂ := archiveAgency_stmts harchive
          show x.db.directory.Versioned
          rw [hdb]
          exact stmts_versioned harchived (updateUser_versioned hupdate hd)
      | _ => cases hdenies
    | _ => cases hdenies
  · exact stmts_versioned (step_stmts hs.directory hs.agencies (Bool.not_eq_true _ ▸ hdenies) h) hd

/-! ## Submitting a view -/

/-- The edit that submits all that a view shows. -/
def resubmission (view : ProfileView) (subject : String) (operation : Uuid) : EditProfile where
  clerkUserId := subject
  targetUserId := view.targetUserId
  kind := view.kind
  operationId := operation
  expectedVersion := view.version
  expectedIdentityVersion := view.identityVersion
  change := .patch (view.fields.map fun e => (e.1, some e.2))

theorem upsertProfile_exists {new : Profile} {f : Profile → Profile}
    (h : p.profileVersion new.userId new.kind + 1 ≤ bigintMax) (hp : 0 ≤ p.profileVersion new.userId new.kind) :
    ∃ p', p.upsertProfile new f = .ok p' := by
  unfold Papers.upsertProfile
  unfold Papers.profileVersion at h hp
  cases hold : p.profile new.userId new.kind with
  | none => exact ⟨_, rfl⟩
  | some old =>
    rw [hold] at h hp
    change old.version + 1 ≤ bigintMax at h
    change 0 ≤ old.version at hp
    have hbound : -bigintMax - 1 ≤ old.version + 1 := by
      unfold bigintMax
      omega
    refine ⟨_, bind_eq_ok.mpr ⟨old.version + 1, bigint_eq_ok.mpr ⟨⟨hbound, h⟩, rfl⟩, rfl⟩⟩

/-- An edit of a patch is taken when its texts are, its versions are the current ones and its id is new. -/
theorem editProfile_taken {input : EditProfile} {count : Nat} {actor target : User}
    {fields : List (ProfileField × Option String)} (hp : Stored forms db.papers)
    (hscope : profileScope db input.clerkUserId input.targetUserId input.kind true = .ok (actor, target))
    (hchange : input.change = .patch fields) (hne : fields ≠ [])
    (htakes : ∀ e ∈ fields, e.1.allowed input.kind target.role = true ∧ forms.Takes e.1 (trim (e.2.getD "")))
    (hidentity : input.expectedIdentityVersion = target.version) (hcounted : 1 ≤ target.version)
    (hversion : input.expectedVersion = db.papers.profileVersion target.id input.kind)
    (hroom : db.papers.profileVersion target.id input.kind + 1 ≤ bigintMax)
    (hfresh : ∀ m ∈ db.papers.mutations, m.operationId ≠ input.operationId) (hcount : count ≤ actor.role.edits) :
    ∃ db', editProfile forms db input count = .ok db' := by
  have hpositive := hp.versions target.id input.kind
  obtain ⟨p, hedit⟩ : ∃ p, db.papers.editProfile target.id input.kind
      (some (fields.map fun e => (e.1, trim (e.2.getD "")))) = .ok p :=
    upsertProfile_exists hroom hpositive
  obtain ⟨hmutations, -⟩ := papersEdit_ok (.inl ⟨fields, rfl, rfl⟩) hedit
  have hnormalized : forms.normalized input.kind target.role input.change =
      .ok (some (fields.map fun e => (e.1, trim (e.2.getD "")))) := by
    rw [hchange]
    simp only [ProfileForms.normalized, bind_eq_ok, ensure_eq_ok, mapM_field, pure_eq_ok]
    exact ⟨(), hne, _, ⟨htakes, rfl⟩, rfl⟩
  have hlookup : lookup ProfileMutation.operationId input.operationId db.papers.mutations = none :=
    lookup_eq_none.mpr hfresh
  rw [← hmutations] at hfresh
  simp only [editProfile, hscope, ok_bind, hnormalized, hlookup, hidentity, hversion, profileLimit]
  rw [ensure_of ⟨hpositive, hcounted⟩, ok_bind, ensure_of ⟨trivial, trivial⟩, ok_bind, ensure_of hcount, ok_bind,
    hedit]
  simp only [Except.mapError, ok_bind, Papers.insertMutation]
  rw [ensure_of hfresh]
  exact ⟨_, rfl⟩

theorem resubmitted {subject : String} {actor target : User} {operation : Uuid} {count : Nat}
    (hp : Stored forms db.papers) (hd : db.directory.Versioned)
    (hscope : profileScope db subject target.id kind true = .ok (actor, target))
    (hne : (loadProfile db.papers target kind).fields ≠ [])
    (hfresh : ∀ m ∈ db.papers.mutations, m.operationId ≠ operation)
    (hroom : db.papers.profileVersion target.id kind + 1 ≤ bigintMax) (hcount : count ≤ actor.role.edits) :
    ∃ db', editProfile forms db (resubmission (loadProfile db.papers target kind) subject operation) count = .ok db' ∧
      ∀ u k f, db'.papers.profileFields u k f = db.papers.profileFields u k f := by
  have htarget := profileScope_target hscope
  -- what a profile stores has been through its form, so its form takes it again, trimmed as it is
  have htakes : ∀ e ∈ (loadProfile db.papers target kind).fields.map fun e => (e.1, some e.2),
      e.1.allowed kind target.role = true ∧ forms.Takes e.1 (trim (e.2.getD "")) := by
    intro e he
    obtain ⟨⟨f, text⟩, hmem, rfl⟩ := List.mem_map.mp he
    obtain ⟨hallowed, hstored⟩ := mem_loadProfile.mp hmem
    have htext := hp.takes _ _ _ _ hstored
    refine ⟨hallowed, ?_⟩
    show forms.Takes f (trim text)
    rw [htext.trimmed]
    exact htext
  obtain ⟨db', hedit⟩ : ∃ db',
      editProfile forms db (resubmission (loadProfile db.papers target kind) subject operation) count = .ok db' :=
    editProfile_taken hp hscope rfl (fun hnil => hne (List.map_eq_nil_iff.mp hnil)) htakes rfl
      (hd target (lookup_mem htarget)) rfl hroom hfresh hcount
  refine ⟨db', hedit, fun u k f => ?_⟩
  obtain ⟨⟨m, hm, hid⟩, -⟩ | ⟨actor', target', hcommitted⟩ := editProfile_ok hedit
  · exact absurd hid (hfresh m hm)
  · have hsame : target' = target := by
      have hscope' := hcommitted.scope.symm.trans hscope
      cases hscope'
      rfl
    rw [hsame] at hcommitted
    by_cases hkey : (u, k) = (target.id, kind)
    · obtain ⟨rfl, rfl⟩ := Prod.mk.inj hkey
      have hfields := hcommitted.fields f
      refine hfields.trans ?_
      show ((lookup Prod.fst f _).map _).or _ = _
      cases hlookup : lookup Prod.fst f
          ((loadProfile db.papers target k).fields.map fun e => (e.1, some e.2)) with
      | none => rfl
      | some e =>
        obtain ⟨⟨g, text⟩, hmem, rfl⟩ := List.mem_map.mp (lookup_mem hlookup)
        obtain rfl : g = f := lookup_key hlookup
        obtain ⟨-, hstored⟩ := mem_loadProfile.mp hmem
        rw [hstored]
        show some (trim text) = some text
        rw [(hp.takes _ _ _ _ hstored).trimmed]
    · exact profileFields_of_profile (hcommitted.others u k hkey) f

/-! ## Runs -/

/-- A step keeps what is stored fit for an edit, when an approval is a clean one. -/
theorem step_stored (h : s.step desk ev = .ok s')
    (hclean : ∀ input draw now, ev = .request (.review input draw) now → CleanReview desk.forms s.db input)
    (hp : Stored desk.forms s.db.papers) : Stored desk.forms s'.db.papers := by
  by_cases hedit : ∃ input count now, ev = .request (.editProfile input count) now
  · obtain ⟨input, count, now, rfl⟩ := hedit
    obtain ⟨-, hsame⟩ | ⟨actor, target, hcommitted⟩ := editProfile_ok (step_edit h)
    · rw [hsame]
      exact hp
    · exact hcommitted.stored hp
  · by_cases hreview : ∃ input draw now, ev = .request (.review input draw) now
    · obtain ⟨input, draw, now, rfl⟩ := hreview
      exact (step_review h).stored (hclean input draw now rfl) hp
    · exact (step_untouched h (fun input count now heq => hedit ⟨input, count, now, heq⟩)
        fun input draw now heq => hreview ⟨input, draw, now, heq⟩).stored hp

/-- A step that is no edit keeps every text. -/
theorem step_kept (h : s.step desk ev = .ok s')
    (hedit : ∀ input count now, ev ≠ .request (.editProfile input count) now)
    {u : Uuid} {k : ProfileKind} {f : ProfileField} {text : String}
    (htext : s.db.papers.profileFields u k f = some text) : s'.db.papers.profileFields u k f = some text := by
  by_cases hreview : ∃ input draw now, ev = .request (.review input draw) now
  · obtain ⟨input, draw, now, rfl⟩ := hreview
    have happroved := step_review h
    by_cases hkey : (u, k) = (input.targetUserId, .profile)
    · obtain ⟨rfl, rfl⟩ := Prod.mk.inj hkey
      exact happroved.kept f text htext
    · rw [profileFields_of_profile (happroved.others u k hkey)]
      exact htext
  · have huntouched := step_untouched h hedit fun input draw now heq => hreview ⟨input, draw, now, heq⟩
    rw [profileFields_of_profile (profile_of_profiles huntouched.profiles u k)]
    exact htext

theorem stored_start (b : Business) : Stored forms (System.start b).db.papers where
  applications _ ha := absurd ha List.not_mem_nil
  versions _ _ := le_refl _
  takes _ _ _ _ h := by cases h

theorem run_stored (hinit : (machine desk).init s₀) (hrun : (machine desk).Run s₀ t s) (hclean : Clean desk t) :
    Stored desk.forms s.db.papers ∧ s.db.directory.Versioned := by
  obtain ⟨b, hb, rfl⟩ := hinit
  induction hrun with
  | nil => exact ⟨stored_start b, fun u hu => absurd hu List.not_mem_nil⟩
  | snoc hrun hstep ih =>
    obtain ⟨hstored, hversioned⟩ := ih fun r hr => hclean r (List.mem_append_left _ hr)
    have hregistered := registered_of_reachable ⟨_, _, ⟨b, hb, rfl⟩, hrun⟩
    refine ⟨step_stored hstep (fun input draw now heq => ?_) hstored,
      step_versioned hregistered hstep hversioned⟩
    exact hclean _ (List.mem_append_right _ List.mem_cons_self) input draw now heq

/-- In a run whose approvals copy single lines of text, and addresses that an edit takes, every edit that is
committed writes the fields it names and records the next version, nothing else changes a text that is
there, a view shows what the role allows, and every stored text is one that an edit takes, so a view that
is submitted is taken and changes no field. -/
theorem profile_edits_framed (hinit : (machine desk).init s₀) (hrun : (machine desk).Run s₀ t s)
    (hclean : Clean desk t) :
    (∀ r ∈ t, ∀ input count now, r.label = .request (.editProfile input count) now →
      ((∃ m ∈ r.before.db.papers.mutations, m.operationId = input.operationId) ∧ r.after.db = r.before.db) ∨
        ∃ actor target, Committed desk.forms r.before.db input r.after.db actor target) ∧
    (∀ r ∈ t, (∀ input count now, r.label ≠ .request (.editProfile input count) now) → ∀ u k f text,
      r.before.db.papers.profileFields u k f = some text → r.after.db.papers.profileFields u k f = some text) ∧
    (∀ input : EditProfile, (∀ m ∈ s.db.papers.mutations, m.operationId ≠ input.operationId) →
      ∀ target, s.db.directory.user input.targetUserId = some target →
      (input.expectedIdentityVersion ≠ target.version ∨
        input.expectedVersion ≠ s.db.papers.profileVersion target.id input.kind) →
      ∀ count, ∃ e, editProfile desk.forms s.db input count = .error e) ∧
    (∀ subject target kind count view, queryProfile s.db subject target kind count = .ok view →
      ∃ user, s.db.directory.user target = some user ∧ ∀ f text, (f, text) ∈ view.fields ↔
        f.allowed kind user.role = true ∧ s.db.papers.profileFields target kind f = some text) ∧
    (∀ u k f text, s.db.papers.profileFields u k f = some text → desk.forms.Takes f text) ∧
    ∀ subject actor target kind operation count,
      profileScope s.db subject target.id kind true = .ok (actor, target) →
      (loadProfile s.db.papers target kind).fields ≠ [] →
      (∀ m ∈ s.db.papers.mutations, m.operationId ≠ operation) →
      s.db.papers.profileVersion target.id kind + 1 ≤ bigintMax → count ≤ actor.role.edits →
      ∃ db', editProfile desk.forms s.db
          (resubmission (loadProfile s.db.papers target kind) subject operation) count = .ok db' ∧
        ∀ u k f, db'.papers.profileFields u k f = s.db.papers.profileFields u k f := by
  obtain ⟨hstored, hversioned⟩ := run_stored hinit hrun hclean
  refine ⟨?_, ?_, ?_, ?_, hstored.takes, ?_⟩
  · intro r hr input count now hlabel
    obtain ⟨t₁, t₂, -, -, hstep, -⟩ := hrun.split hr
    rw [hlabel] at hstep
    exact editProfile_ok (step_edit hstep)
  · intro r hr hedit u k f text htext
    obtain ⟨t₁, t₂, -, -, hstep, -⟩ := hrun.split hr
    exact step_kept hstep hedit htext
  · intro input hfresh target htarget hstale count
    cases hresult : editProfile desk.forms s.db input count with
    | error e => exact ⟨e, rfl⟩
    | ok db' =>
      obtain ⟨⟨m, hm, hid⟩, -⟩ | ⟨actor, target', hcommitted⟩ := editProfile_ok hresult
      · exact absurd hid (hfresh m hm)
      · obtain rfl : target' = target :=
          Option.some.inj ((profileScope_target hcommitted.scope).symm.trans htarget)
        rcases hstale with hstale | hstale
        · exact absurd hcommitted.identityVersion hstale
        · exact absurd hcommitted.version hstale
  · intro subject target kind count view hview
    simp only [queryProfile, bind_eq_ok, pure_eq_ok] at hview
    obtain ⟨⟨actor, user⟩, hscope, -, -, rfl⟩ := hview
    have htarget := profileScope_target hscope
    have hid : user.id = target := lookup_key htarget
    refine ⟨user, htarget, fun f text => ?_⟩
    rw [mem_loadProfile, hid]
  · intro subject actor target kind operation count hscope hne hfresh hroom hcount
    exact resubmitted hstored hversioned hscope hne hfresh hroom hcount

/-! ### A run -/

def sampleApplication (address : String) : ApplicationFields :=
  ⟨"Agency", "01700", "a@b.com", address, "Owner", "partner", "01800", "Home"⟩

/-- A customer applies. -/
def applyEvents (address : String) : List Event := [
  .request (.bootstrap (sampleUser "user_a") (sampleDraw 1)) 0,
  .request (.onboard (sampleUser "user_b") (sampleDraw 2)) 0,
  .request (.submit ⟨"user_b", 20, 0, 1, sampleApplication address, [], 8⟩) 0]

def acceptance : ReviewApplication := ⟨"user_a", 21, 200, 1, 1, 0, .accept, "", 9⟩

/-- The states before and after the customer is accepted. -/
def approval (address : String) : Except ApiError (System × System) := do
  let s ← (applyEvents address).foldlM (System.step sampleDesk) (.start sampleBusiness)
  let s' ← s.step sampleDesk (.request (.review acceptance (sampleDraw 3)) 0)
  return (s, s')

/-- What is shown of the applicant to the reviewer. -/
def applicantOf (s : System) : Option ApplicationFields × Option (Option String) :=
  ((s.db.papers.application 200).map Application.fields, (s.db.directory.user 200).map User.email)

theorem approval_run {address : String} {s s' : System} (h : approval address = .ok (s, s')) :
    ∃ t, (machine sampleDesk).Run (.start sampleBusiness)
        (t ++ [⟨s, .request (.review acceptance (sampleDraw 3)) 0, s'⟩]) s' ∧
      ∀ r ∈ t, ∀ input draw now, r.label ≠ .request (.review input draw) now := by
  simp only [approval, applyEvents, List.foldlM_cons, List.foldlM_nil, bind_eq_ok, pure_eq_ok,
    Prod.mk.injEq] at h
  obtain ⟨s₀, ⟨s₁, h₁, s₂, h₂, s₃, h₃, heq⟩, s₄, h₄, hbefore, hafter⟩ := h
  subst heq hbefore hafter
  have hrun : (machine sampleDesk).Run (.start sampleBusiness) _ s₄ :=
    ((((Machine.Run.nil (M := machine sampleDesk) _).snoc h₁).snoc h₂).snoc h₃).snoc h₄
  refine ⟨_, hrun, fun r hr input draw now hlabel => ?_⟩
  simp only [List.nil_append, List.mem_append, List.mem_singleton] at hr
  rcases hr with (rfl | rfl) | rfl <;> cases hlabel

/-- The address of an approved application may have two lines, and the profile that shows it is refused. -/
theorem approved_lines_refused : ∃ s₀ t s view, (machine sampleDesk).init s₀ ∧ (machine sampleDesk).Run s₀ t s ∧
    queryProfile s.db "user_a" 200 .profile 1 = .ok view ∧
    (ProfileField.agencyAddress, "House 2\nRoad 1") ∈ view.fields ∧
    editProfile sampleDesk.forms s.db (resubmission view "user_a" 22) 1 = .error invalidProfile := by
  have hrun : (approval "House 2\nRoad 1").map (fun x => (queryProfile x.2.db "user_a" 200 .profile 1).map
      fun view => (decide ((ProfileField.agencyAddress, "House 2\nRoad 1") ∈ view.fields),
        match editProfile sampleDesk.forms x.2.db (resubmission view "user_a" 22) 1 with
        | .error e => some e
        | .ok _ => none)) = .ok (.ok (true, some invalidProfile)) := by
    decide +kernel
  obtain ⟨⟨s, s'⟩, hs, hview⟩ := map_eq_ok.mp hrun
  obtain ⟨view, hview, hout⟩ := map_eq_ok.mp hview
  obtain ⟨hmem, hrefused⟩ := Prod.mk.inj hout
  obtain ⟨t, ht, -⟩ := approval_run hs
  refine ⟨_, _, s', view, ⟨sampleBusiness, sampleBusiness_valid, rfl⟩, ht, hview, of_decide_eq_true hmem, ?_⟩
  cases hedit : editProfile sampleDesk.forms s'.db (resubmission view "user_a" 22) 1 with
  | error e =>
    simp only [hedit, Option.some.injEq] at hrefused
    rw [hrefused]
  | ok db =>
    simp only [hedit, reduceCtorEq] at hrefused

theorem profile_edits_framed_approved : ∃ t s, (machine sampleDesk).Run (.start sampleBusiness) t s ∧
    s.db.papers.profileFields 200 .profile .agencyAddress = some "Road 1" ∧
    ∀ u k f text, s.db.papers.profileFields u k f = some text → sampleDesk.forms.Takes f text := by
  have hrun : (approval "Road 1").map (fun x => (applicantOf x.1,
      x.2.db.papers.profileFields 200 .profile .agencyAddress)) =
        .ok ((some (sampleApplication "Road 1"), some (some "user_b@a.b")), some "Road 1") := by
    decide +kernel
  obtain ⟨⟨s, s'⟩, hs, hout⟩ := map_eq_ok.mp hrun
  obtain ⟨happlicant, haddress⟩ := Prod.mk.inj hout
  obtain ⟨hfields, hemail⟩ := Prod.mk.inj happlicant
  obtain ⟨t, ht, hothers⟩ := approval_run hs
  have hclean : CleanReview sampleDesk.forms s.db acceptance := by
    intro _ application target happlication htarget
    change s.db.papers.application 200 = some application at happlication
    change s.db.directory.user 200 = some target at htarget
    rw [happlication, Option.map_some, Option.some.injEq] at hfields
    rw [htarget, Option.map_some, Option.some.injEq] at hemail
    rw [hfields, hemail]
    refine ⟨fun e he _ => ?_, fun _ _ => by decide, fun _ email heq => ?_⟩
    · have hlines : ∀ e ∈ (sampleApplication "Road 1").profileFields, oneLine e.2 = true := by decide
      exact hlines e he
    · cases heq
      exact ⟨by decide, by decide, by decide, .inr (by decide)⟩
  refine ⟨_, s', ht, haddress, (profile_edits_framed ⟨sampleBusiness, sampleBusiness_valid, rfl⟩ ht
    fun r hr input draw now hlabel => ?_).2.2.2.2.1⟩
  rcases List.mem_append.mp hr with hr | hr
  · exact absurd hlabel (hothers r hr input draw now)
  · obtain rfl := List.mem_singleton.mp hr
    cases hlabel
    exact hclean

end ShaponTravels.Identity
