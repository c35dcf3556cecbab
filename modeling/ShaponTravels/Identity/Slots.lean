import ShaponTravels.Identity.Members

/-!
# Slots — what a run does to private documents and to the slots that show them

An upload goes through its states once, and a slot is written by what names its version and the version of
the identity it belongs to, one version at a time.
-/

namespace ShaponTravels.Identity

open Library

variable {desk : Desk} {db db' : Db} {s₀ s s' : System} {t : List (Transition System Event)} {p p' : Papers}
  {ev : Event} {now : Int} {user : Uuid} {slot : Slot} {asset : Option Uuid}

/-! ## One write -/

/-- A write of a slot: its content and its next version, and every other slot as it was. -/
structure Papers.Wrote (p p' : Papers) (user : Uuid) (slot : Slot) (asset : Option Uuid) : Prop where
  row : p'.slot user slot = some ⟨user, slot, asset, documentVersion p user .profile slot + 1⟩
  others : ∀ user' slot', (user', slot') ≠ (user, slot) → p'.slot user' slot' = p.slot user' slot'

theorem setSlot_ok (h : p.setSlot user slot asset = .ok p') :
    p.ownsSlot user slot asset ∧ p.Wrote p' user slot asset ∧ p' = { p with slots := p'.slots } := by
  simp only [Papers.setSlot, bind_eq_ok, ensure_eq_ok] at h
  obtain ⟨-, howns, h⟩ := h
  refine ⟨howns, ?_⟩
  split at h
  · rename_i hnone
    obtain rfl := pure_eq_ok.mp h
    refine ⟨⟨?_, fun user' slot' hne => ?_⟩, rfl⟩
    · have hlookup : lookup (fun s : SlotRow => (s.userId, s.slot)) (user, slot) p.slots = none := hnone
      show lookup _ _ (_ ++ _) = _
      rw [lookup_concat, hlookup, Option.none_or, if_pos rfl, documentVersion, hnone]
      rfl
    · show lookup _ _ (_ ++ _) = lookup _ _ _
      rw [lookup_concat, if_neg fun heq => hne heq.symm, Option.or_none]
  · rename_i old hold
    simp only [bind_eq_ok, bigint_eq_ok, pure_eq_ok] at h
    obtain ⟨version, ⟨-, rfl⟩, rfl⟩ := h
    let key : SlotRow → Uuid × Slot := fun s => (s.userId, s.slot)
    let f : SlotRow → SlotRow := fun s => { s with assetId := asset, version := old.version + 1 }
    have hf : ∀ s, key (f s) = key s := fun _ => rfl
    have hlookup : lookup key (user, slot) p.slots = some old := hold
    have hkeyed : key old = (user, slot) := lookup_key hlookup
    obtain ⟨huser, hslot⟩ := Prod.mk.inj hkeyed
    have hself : lookup key (user, slot) (modify key (user, slot) f p.slots) = some (f old) := by
      rw [lookup_modify_self hf, hlookup, Option.map_some]
    refine ⟨⟨hself.trans ?_, fun user' slot' hne => ?_⟩, rfl⟩
    · simp only [f, documentVersion, hold, huser, hslot, Option.map_some, Option.getD_some]
    · have hother : lookup key (user', slot') (modify key (user, slot) f p.slots) = lookup key (user', slot') p.slots :=
        lookup_modify_ne hf hne p.slots
      exact hother

theorem setAsset_ok {a : Asset} {state : AssetState} (h : p.setAsset a state = .ok p') :
    a.state.follows state ∧
      p' = { p with assets := modify Asset.id a.id (fun a => { a with state := state }) p.assets } := by
  simp only [Papers.setAsset, bind_eq_ok, ensure_eq_ok, pure_eq_ok] at h
  obtain ⟨-, hfollows, rfl⟩ := h
  exact ⟨hfollows, rfl⟩

/-! ## Whose documents they are -/

/-- The profile a document is of: that of the user who is named, or of the owner of the agency whose logo it is. -/
theorem documentScope_profile {subject : String} {id : Uuid} {actor target : User}
    (h : documentScope db subject id .profile slot = .ok (actor, target)) :
    ∃ u, db.directory.user id = some u ∧ u.role.requiresAgency ∧
      (target = u ∧ ¬ (slot = .logo ∧ u.role = .b2bSub) ∨
        slot = .logo ∧ u.role = .b2bSub ∧ ∃ m a, m ∈ db.directory.memberships ∧ m.userId = id ∧
          a ∈ db.directory.agencies ∧ db.directory.user a.ownerUserId = some target) := by
  simp only [documentScope, profileScope, Identity.user, bind_eq_ok, ensure_eq_ok, fetch_eq_ok, pure_eq_ok] at h
  obtain ⟨-, -, x, ⟨-, -, -, -, actor', -, u, hu, -, -, -, -, agency, -, -, -, rfl⟩, -, hagency, h⟩ := h
  refine ⟨u, hu, hagency, ?_⟩
  split at h
  · rename_i hlogo
    obtain ⟨owner, howner, h⟩ := bind_eq_ok.mp h
    obtain ⟨-, rfl⟩ := Prod.mk.inj (pure_eq_ok.mp h)
    simp only [logoOwner, Identity.user, bind_eq_ok, fetch_eq_ok, Option.filter_eq_some_iff, pure_eq_ok] at howner
    obtain ⟨m, hm, a, ⟨ha, -⟩, owner', howner, -, -, -, -, rfl⟩ := howner
    exact .inr ⟨hlogo.1, hlogo.2, m, a, lookup_mem hm, (lookup_key hm).trans (lookup_key hu), lookup_mem ha, howner⟩
  · rename_i hlogo
    obtain ⟨-, rfl⟩ := Prod.mk.inj (pure_eq_ok.mp h)
    exact .inl ⟨rfl, hlogo⟩

theorem documentScope_application {subject : String} {id : Uuid} {actor target : User}
    (h : documentScope db subject id .application slot = .ok (actor, target)) :
    (db.papers.application id).all (fun a => a.status = .rejected) = true := by
  simp only [documentScope, applicationScope, bind_eq_ok, ensure_eq_ok] at h
  obtain ⟨-, -, -, -, -, -, -, -, -, hrejected, -⟩ := h
  exact hrejected

/-- Whose logos are shown: of users who are no sub-users of an agency. -/
structure Directory.Keeps (d : Directory) (a : Asset) : Prop where
  known : ∃ u ∈ d.users, u.id = a.userId
  owner : ∀ m ∈ d.memberships, m.userId = a.userId → m.kind = .owner

theorem keeps_of_role {d : Directory} (hvalid : d.Valid) {u : User} (hu : u ∈ d.users) (hrole : u.role = .b2b)
    {a : Asset} (ha : u.id = a.userId) : d.Keeps a := by
  refine ⟨⟨u, hu, ha⟩, fun m hm huser => ?_⟩
  obtain ⟨v, hv, hid, hkind⟩ := hvalid.known m hm
  obtain rfl := hvalid.ids.eq_of_key hv hu (hid.trans (huser.trans ha.symm))
  rw [hrole] at hkind
  cases hk : m.kind with
  | owner => rfl
  | sub =>
    rw [hk] at hkind
    cases hkind

/-- Joining an agency makes nobody a sub-user who was there. -/
theorem Directory.Keeps.joins {d d' : Directory} {a : Asset} (h : d.Keeps a) (hjoins : d.Joins d')
    (hkept : ∀ u ∈ d.users, ∃ u' ∈ d'.users, u'.id = u.id) : d'.Keeps a := by
  obtain ⟨u, hu, hid⟩ := h.known
  obtain ⟨u', hu', hid'⟩ := hkept u hu
  refine ⟨⟨u', hu', hid'.trans hid⟩, fun m hm huser => ?_⟩
  rcases hjoins.joined m hm with hold | howner | hnew
  · exact h.owner m hold huser
  · exact howner
  · exact absurd (hid.trans huser.symm) (hnew u hu)

/-- The profile a document was prepared for is that of its user. -/
theorem scope_user (hvalid : db.directory.Valid) {a : Asset} {subject : String} {actor target : User}
    (hkeeps : a.slot = .logo → db.directory.Keeps a)
    (h : documentScope db subject a.userId .profile a.slot = .ok (actor, target)) :
    db.directory.user a.userId = some target := by
  obtain ⟨u, hu, -, ⟨rfl, -⟩ | ⟨hlogo, hsub, m, -, hm, hmember, -, -⟩⟩ := documentScope_profile h
  · exact hu
  · have howner := (hkeeps hlogo).owner m hm hmember
    obtain ⟨v, hv, hid, hrole⟩ := hvalid.known m hm
    obtain rfl := hvalid.ids.eq_of_key hv (lookup_mem hu) (hid.trans (hmember.trans (lookup_key hu).symm))
    rw [hsub, howner] at hrole
    cases hrole

/-- The profile a logo is prepared for is that of an owner, or of nobody's member. -/
theorem scope_keeps (hvalid : db.directory.Valid) (hc : db.directory.Consistent) {subject : String} {id : Uuid}
    {actor target : User} (h : documentScope db subject id .profile .logo = .ok (actor, target)) {a : Asset}
    (ha : a.userId = target.id) : db.directory.Keeps a := by
  obtain ⟨u, hu, hagency, ⟨rfl, hnot⟩ | ⟨-, -, -, g, -, -, hg, howner⟩⟩ := documentScope_profile h
  · refine keeps_of_role hvalid (lookup_mem hu) ?_ ha.symm
    simp only [Role.requiresAgency, Bool.or_eq_true, decide_eq_true_eq] at hagency
    exact hagency.resolve_right fun hsub => hnot ⟨rfl, hsub⟩
  · obtain ⟨v, hv, hid, hrole⟩ := hc.owners g hg
    obtain rfl := hvalid.ids.eq_of_key hv (lookup_mem howner) (hid.trans (lookup_key howner).symm)
    exact keeps_of_role hvalid hv hrole ha.symm

/-! ## Events -/

/-- The versions that are named of a slot and of its user are those in force. -/
structure Db.Named (db : Db) (user : Uuid) (slot : Slot) (version identity : Int) : Prop where
  version : documentVersion db.papers user .profile slot = version
  identity : ∃ u, db.directory.user user = some u ∧ u.version = identity

/-- The assets with another state of one of them. -/
def Papers.put (p : Papers) (id : Uuid) (state : AssetState) : List Asset :=
  modify Asset.id id (fun a => { a with state := state }) p.assets

/-- What an event does to the assets and to the slots. -/
inductive Db.Files (db : Db) (p' : Papers) : Event → Prop
  | same (ev : Event) : p'.assets = db.papers.assets → p'.slots = db.papers.slots → Files db p' ev
  | prepared (input : PrepareDocument) (now : Int) (a : Asset) : (∀ a' ∈ db.papers.assets, a'.id ≠ a.id) →
      a.state = .prepared → (a.purpose = .profile → a.slot = .logo → db.directory.Keeps a) →
      p'.assets = db.papers.assets ++ [a] → p'.slots = db.papers.slots →
      Files db p' (.request (.prepareDocument input) now)
  | started (input : AssetRequest) (now : Int) (a : Asset) :
      lookup Asset.id input.assetId db.papers.assets = some a → a.state = .prepared →
      p'.assets = db.papers.put a.id .uploading → p'.slots = db.papers.slots →
      Files db p' (.request (.startDocument input) now)
  | ended (input : FinishDocument) (now : Int) (a : Asset) (state : AssetState) :
      lookup Asset.id input.assetId db.papers.assets = some a → a.state.follows state → a.state ≠ .prepared →
      state ≠ .ready → p'.assets = db.papers.put a.id state → p'.slots = db.papers.slots →
      Files db p' (.request (.finishDocument input) now)
  | attached (input : FinishDocument) (now : Int) (a : Asset) :
      lookup Asset.id input.assetId db.papers.assets = some a → a.state.follows .ready →
      a.purpose = .application → (db.papers.application a.userId).all (fun a => a.status = .rejected) = true →
      p'.assets = db.papers.put a.id .ready → p'.slots = db.papers.slots →
      Files db p' (.request (.finishDocument input) now)
  | filled (input : FinishDocument) (now : Int) (a : Asset) :
      lookup Asset.id input.assetId db.papers.assets = some a → input.outcome = .ready →
      a.state.follows .ready → a.purpose = .profile → db.Named a.userId a.slot a.expectedVersion a.identityVersion →
      p'.assets = db.papers.put a.id .ready → db.papers.Wrote p' a.userId a.slot (some a.id) → Files db p' (.request (.finishDocument input) now)
  | emptied (input : RemoveDocument) (now : Int) (actor target : User) :
      (∀ c ∈ db.papers.commands, c.id ≠ input.operationId) →
      documentScope db input.clerkUserId input.targetUserId .profile input.slot = .ok (actor, target) →
      db.Named target.id input.slot input.expectedVersion input.expectedIdentityVersion →
      p'.assets = db.papers.assets → db.papers.Wrote p' target.id input.slot none →
      Files db p' (.request (.removeDocument input) now)

theorem prepareDocument_files {archive : Archive} {input : PrepareDocument} (hvalid : db.directory.Valid)
    (hc : db.directory.Consistent) (h : prepareDocument archive db input = .ok db') :
    db.Files db'.papers (.request (.prepareDocument input) now) := by
  simp only [prepareDocument, bind_eq_ok] at h
  obtain ⟨-, -, x, hscope, h⟩ := h
  split at h
  · simp only [bind_eq_ok, pure_eq_ok] at h
    obtain ⟨-, -, rfl⟩ := h
    exact .same _ rfl rfl
  · simp only [bind_eq_ok, mapError_eq_ok, ensure_eq_ok, Papers.insertAsset, pure_eq_ok] at h
    obtain ⟨-, -, p, ⟨-, hfresh, -, -, rfl⟩, rfl⟩ := h
    refine .prepared input now _ hfresh rfl (fun hpurpose hlogo => ?_) rfl rfl
    change input.purpose = .profile at hpurpose
    change input.slot = .logo at hlogo
    rw [hpurpose, hlogo] at hscope
    exact scope_keeps hvalid hc hscope rfl

theorem startDocument_files {input : AssetRequest} (h : startDocument db input = .ok db') :
    db.Files db'.papers (.request (.startDocument input) now) := by
  simp only [startDocument, assetRow, bind_eq_ok, fetch_eq_ok, ensure_eq_ok, mapError_eq_ok, pure_eq_ok] at h
  obtain ⟨a, ha, x, -, -, ⟨hstate, -⟩, p, hset, rfl⟩ := h
  obtain ⟨-, rfl⟩ := setAsset_ok hset
  exact .started input now a ha hstate rfl rfl

theorem finishDocument_files {input : FinishDocument} (hvalid : db.directory.Valid)
    (hkeeps : ∀ a ∈ db.papers.assets, a.purpose = .profile → a.slot = .logo → db.directory.Keeps a)
    (h : finishDocument db input = .ok db') : db.Files db'.papers (.request (.finishDocument input) now) := by
  simp only [finishDocument, assetRow, assetScope, bind_eq_ok, fetch_eq_ok, ensure_eq_ok, pure_eq_ok] at h
  obtain ⟨a, ha, x, ⟨y, hscope, -, -, rfl⟩, -, -, h⟩ := h
  split at h
  · obtain rfl := pure_eq_ok.mp h
    exact .same _ rfl rfl
  simp only [bind_eq_ok, ensure_eq_ok] at h
  obtain ⟨-, hopen, h⟩ := h
  split at h
  · obtain rfl := pure_eq_ok.mp h
    exact .same _ rfl rfl
  simp only [bind_eq_ok, ensure_eq_ok, mapError_eq_ok, pure_eq_ok, Papers.publish] at h
  obtain ⟨-, hcurrent, p, ⟨q, hset, hpublish⟩, rfl⟩ := h
  obtain ⟨hfollows, rfl⟩ := setAsset_ok hset
  have hmem := lookup_mem ha
  by_cases hready : input.outcome.state = .ready
  · have houtcome : input.outcome = .ready := by
      cases hout : input.outcome <;> rw [hout] at hready <;> first | rfl | cases hready
    rw [hready] at hfollows hpublish hcurrent
    have hversions := hcurrent rfl
    simp only [Asset.current, Bool.and_eq_true, decide_eq_true_eq] at hversions
    cases hpurpose : a.purpose with
    | application =>
      rw [if_neg (by rw [hpurpose]; simp)] at hpublish
      obtain rfl := pure_eq_ok.mp hpublish
      rw [hpurpose] at hscope
      exact .attached input now a ha hfollows hpurpose (documentScope_application hscope) rfl rfl
    | profile =>
      rw [if_pos ⟨rfl, hpurpose⟩] at hpublish
      obtain ⟨-, hwrote, hp⟩ := setSlot_ok hpublish
      rw [hpurpose] at hscope hversions
      have huser := scope_user hvalid (hkeeps a hmem hpurpose) hscope
      refine .filled input now a ha houtcome hfollows hpurpose ⟨hversions.2, _, huser, hversions.1⟩ ?_ ⟨hwrote.row, hwrote.others⟩
      rw [hp]
      rfl
  · rw [if_neg fun h => hready h.1] at hpublish
    obtain rfl := pure_eq_ok.mp hpublish
    refine .ended input now a _ ha hfollows (fun hprepared => ?_) hready rfl rfl
    rcases hopen with hopen | hopen <;> rw [hprepared] at hopen <;> cases hopen

theorem removeDocument_files {archive : Archive} {input : RemoveDocument} (h : removeDocument archive db input = .ok db') :
    db.Files db'.papers (.request (.removeDocument input) now) := by
  simp only [removeDocument, bind_eq_ok] at h
  obtain ⟨-, -, x, hscope, old, hold, h⟩ := h
  split at h
  · obtain rfl := pure_eq_ok.mp h
    exact .same _ rfl rfl
  · simp only [bind_eq_ok, ensure_eq_ok, mapError_eq_ok] at h
    obtain ⟨-, hversions, p, hset, hcommand⟩ := h
    obtain ⟨-, hwrote, hp⟩ := setSlot_ok hset
    have hfresh : ∀ c ∈ db.papers.commands, c.id ≠ input.operationId := by
      intro c hc hid
      exact absurd rfl (replay_known hold ⟨c, hc, hid⟩)
    have huser : db.directory.user x.2.id = some x.2 := by
      obtain ⟨u, hu, -, htarget⟩ := documentScope_profile hscope
      rcases htarget with ⟨heq, -⟩ | ⟨-, -, -, g, -, -, -, howner⟩
      · rw [heq, lookup_key hu]
        exact hu
      · rw [lookup_key howner]
        exact howner
    rw [commitCommand_frame hcommand]
    refine .emptied input now x.1 x.2 hfresh hscope ⟨hversions.2, _, huser, hversions.1⟩ ?_ ⟨hwrote.row, hwrote.others⟩
    show p.assets = _
    rw [hp]


/-! ## Steps -/

/-- Neither an asset nor a slot is touched. -/
structure Papers.Shelves (p p' : Papers) : Prop where
  assets : p'.assets = p.assets
  slots : p'.slots = p.slots

theorem Papers.Shelves.files (h : db.papers.Shelves p') : db.Files p' ev := .same ev h.assets h.slots

theorem upsertProfile_shelves {new : Profile} {f : Profile → Profile} (h : p.upsertProfile new f = .ok p') :
    p.Shelves p' := by
  unfold Papers.upsertProfile at h
  split at h
  · obtain rfl := pure_eq_ok.mp h
    exact ⟨rfl, rfl⟩
  · simp only [bind_eq_ok, pure_eq_ok] at h
    obtain ⟨version, -, rfl⟩ := h
    exact ⟨rfl, rfl⟩

theorem updateApplication_shelves {f : Application → Application} (h : p.updateApplication user f = .ok p') :
    p.Shelves p' := by
  unfold Papers.updateApplication at h
  split at h
  · obtain rfl := pure_eq_ok.mp h
    exact ⟨rfl, rfl⟩
  · obtain ⟨row, -, hrecord⟩ := bind_eq_ok.mp h
    obtain ⟨-, rfl⟩ := record_ok hrecord
    exact ⟨rfl, rfl⟩

theorem submit_shelves {input : SubmitApplication} (h : submit db input = .ok db') :
    db.papers.Shelves db'.papers := by
  simp only [submit, bind_eq_ok] at h
  obtain ⟨fields, -, -, -, actor, -, -, -, old, -, h⟩ := h
  split at h
  · obtain rfl := pure_eq_ok.mp h
    exact ⟨rfl, rfl⟩
  · simp only [bind_eq_ok, mapError_eq_ok, Papers.submit] at h
    obtain ⟨-, -, -, -, p, ⟨-, -, hp⟩, hcommand⟩ := h
    have hshelves : db.papers.Shelves p := by
      split at hp
      · obtain ⟨-, rfl⟩ := record_ok hp
        exact ⟨rfl, rfl⟩
      · exact updateApplication_shelves hp
    rw [commitCommand_frame hcommand]
    exact ⟨hshelves.assets, hshelves.slots⟩

theorem editProfile_shelves {forms : ProfileForms} {input : EditProfile} {count : Nat}
    (h : editProfile forms db input count = .ok db') :
    db.papers.Shelves db'.papers := by
  simp only [editProfile, bind_eq_ok] at h
  obtain ⟨-, -, x, -, texts, -, h⟩ := h
  split at h
  · simp only [bind_eq_ok, pure_eq_ok] at h
    obtain ⟨-, -, rfl⟩ := h
    exact ⟨rfl, rfl⟩
  · simp only [bind_eq_ok, mapError_eq_ok, pure_eq_ok, Papers.insertMutation] at h
    obtain ⟨-, -, -, -, p, hp, q, ⟨-, -, rfl⟩, rfl⟩ := h
    unfold Papers.editProfile at hp
    have hshelves : db.papers.Shelves p := by split at hp <;> exact upsertProfile_shelves hp
    exact ⟨hshelves.assets, hshelves.slots⟩

theorem review_shelves {input : ReviewApplication} {draw : Draw} (h : review db now input draw = .ok db') :
    db.papers.Shelves db'.papers := by
  obtain rfl | ⟨a, target, application, db₁, p, -, hdecide, hupdate, rfl, -⟩ := review_ok h
  · exact ⟨rfl, rfl⟩
  have hfirst : db.papers.Shelves db₁.papers := by
    unfold decideApplication at hdecide
    split at hdecide
    · obtain ⟨db₂, current, q, access, db₃, -, -, htransfer, heffects, rfl⟩ := acceptApplication_ok hdecide
      obtain ⟨-, e₁, e₂, mirrored, -, -, -, rfl⟩ := commandEffects_ok heffects
      exact upsertProfile_shelves htransfer
    · obtain rfl := pure_eq_ok.mp hdecide
      exact ⟨rfl, rfl⟩
  have hsecond := updateApplication_shelves hupdate
  exact ⟨hsecond.assets.trans hfirst.assets, hsecond.slots.trans hfirst.slots⟩

theorem rename_shelves {input : Rename} {draw : Draw} (h : rename db now input draw = .ok db') :
    db.papers.Shelves db'.papers := by
  obtain rfl | ⟨a, target, d, db₁, names, c, -, -, -, -, -, -, rfl⟩ := rename_ok h
  · exact ⟨rfl, rfl⟩
  · exact ⟨rfl, rfl⟩

/-- The logos among the documents are of those who keep one. -/
def Db.Branded (db : Db) : Prop :=
  ∀ a ∈ db.papers.assets, a.purpose = .profile → a.slot = .logo → db.directory.Keeps a

theorem request_files {r : Request} (hvalid : db.directory.Valid) (hc : db.directory.Consistent) (hlogos : db.Branded)
    (h : r.run desk db now = .ok db') : db.Files db'.papers (.request r now) := by
  cases r with
  | editProfile input count => exact (editProfile_shelves h).files
  | submit input => exact (submit_shelves h).files
  | review input draw => exact (review_shelves h).files
  | rename input draw => exact (rename_shelves h).files
  | prepareDocument input => exact prepareDocument_files hvalid hc h
  | startDocument input => exact startDocument_files h
  | finishDocument input => exact finishDocument_files hvalid hlogos h
  | removeDocument input => exact removeDocument_files h
  | _ =>
    have hpapers := (request_frame h).papers (by simp [Request.writes])
    exact .same _ (by rw [hpapers]) (by rw [hpapers])

theorem step_files (h : Registered s) (hc : s.db.directory.Consistent) (hlogos : s.db.Branded)
    (hs : s.step desk ev = .ok s') : s.db.Files s'.db.papers ev := by
  cases ev with
  | request r now =>
    obtain ⟨db, hrun, hstep⟩ := bind_eq_ok.mp hs
    obtain rfl := pure_eq_ok.mp hstep
    exact request_files h.directory hc hlogos hrun
  | _ =>
    have hpapers := (step_frame hs).db.papers (by simp [Event.writes])
    exact .same _ (by rw [hpapers]) (by rw [hpapers])

/-! ## Assets -/

/-- An upload that is over stays as it is. -/
def AssetState.over : AssetState → Bool
  | .ready | .abandoned => true
  | _ => false

theorem AssetState.over_of_follows {old new : AssetState} (h : old.follows new) : old.over = false := by
  cases old <;> first | rfl | cases new <;> cases h

/-- What an event makes of an asset. -/
structure Asset.Next (a a' : Asset) : Prop where
  moved : a' = a ∨ a.state.follows a'.state
  fixed : a' = { a with state := a'.state }

variable {a : Asset} {id : Uuid}

theorem lookup_put (p : Papers) (id id' : Uuid) (state : AssetState) :
    lookup Asset.id id' (p.put id state) =
      (lookup Asset.id id' p.assets).map fun a => if id' = id then { a with state := state } else a := by
  have hkey : ∀ a : Asset, ({ a with state := state } : Asset).id = a.id := fun _ => rfl
  by_cases hid : id' = id
  · subst hid
    rw [Papers.put, lookup_modify_self hkey]
    simp only [if_pos]
  · rw [Papers.put, lookup_modify_ne hkey hid]
    simp only [if_neg hid, Option.map_id']

/-- What is there after a put: the asset with its new state, and every other as it was. -/
theorem put_changed {old a' : Asset} {wanted : Uuid} {state : AssetState}
    (hold : lookup Asset.id wanted p.assets = some old) (ha' : lookup Asset.id id (p.put old.id state) = some a')
    (hne : lookup Asset.id id p.assets ≠ some a') :
    wanted = id ∧ lookup Asset.id id p.assets = some old ∧ a' = { old with state := state } := by
  have hid : old.id = wanted := lookup_key hold
  rw [lookup_put] at ha'
  obtain ⟨a, ha, hput⟩ := Option.map_eq_some_iff.mp ha'
  by_cases hsame : id = old.id
  · have hwanted : wanted = id := hid.symm.trans hsame.symm
    rw [hwanted] at hold
    obtain rfl : old = a := Option.some.inj (hold.symm.trans ha)
    rw [if_pos hsame] at hput
    exact ⟨hwanted, hold, hput.symm⟩
  · rw [if_neg hsame] at hput
    rw [hput] at ha
    exact absurd ha hne

/-- An asset is prepared, started or finished by the event that changes it. -/
theorem Db.Files.changed {a' : Asset} (h : db.Files p' ev) (ha' : lookup Asset.id id p'.assets = some a')
    (hne : lookup Asset.id id db.papers.assets ≠ some a') :
    lookup Asset.id id db.papers.assets = none ∧ a'.state = .prepared ∨
      ∃ a, lookup Asset.id id db.papers.assets = some a ∧ a.state.follows a'.state ∧
        a' = { a with state := a'.state } ∧
        ((∃ input now, ev = .request (.startDocument input) now ∧ input.assetId = id ∧ a.state = .prepared ∧
            a'.state = .uploading) ∨
          ∃ input now, ev = .request (.finishDocument input) now ∧ input.assetId = id ∧ a.state ≠ .prepared ∧
            (a'.state = .ready → a.purpose = .application →
              (db.papers.application a.userId).all (fun a => a.status = .rejected) = true)) := by
  have hopen : ∀ {state : AssetState}, state.follows .ready → state ≠ .prepared := by
    intro state hfollows hprepared
    rw [hprepared] at hfollows
    cases hfollows
  cases h with
  | same _ hassets _ => exact absurd (hassets ▸ ha') hne
  | emptied _ _ _ _ _ _ _ hassets _ => exact absurd (hassets ▸ ha') hne
  | prepared _ _ new _ hprepared _ hassets _ =>
    rw [hassets, lookup_concat] at ha'
    cases hbefore : lookup Asset.id id db.papers.assets with
    | some a =>
      rw [hbefore, Option.some_or] at ha'
      exact absurd (hbefore.trans ha') hne
    | none =>
      rw [hbefore, Option.none_or] at ha'
      split at ha'
      · rw [← Option.some.inj ha']
        exact .inl ⟨rfl, hprepared⟩
      · cases ha'
  | started input now old hold hprepared hassets _ =>
    rw [hassets] at ha'
    obtain ⟨hid, ha, rfl⟩ := put_changed hold ha' hne
    exact .inr ⟨old, ha, by rw [hprepared]; rfl, rfl, .inl ⟨input, now, rfl, hid, hprepared, rfl⟩⟩
  | ended input now old state hold hfollows hstarted hnot hassets _ =>
    rw [hassets] at ha'
    obtain ⟨hid, ha, rfl⟩ := put_changed hold ha' hne
    exact .inr ⟨old, ha, hfollows, rfl, .inr ⟨input, now, rfl, hid, hstarted, fun hready => absurd hready hnot⟩⟩
  | attached input now old hold hfollows _ hrejected hassets _ =>
    rw [hassets] at ha'
    obtain ⟨hid, ha, rfl⟩ := put_changed hold ha' hne
    exact .inr ⟨old, ha, hfollows, rfl, .inr ⟨input, now, rfl, hid, hopen hfollows, fun _ _ => hrejected⟩⟩
  | filled input now old hold _ hfollows hpurpose _ hassets _ =>
    rw [hassets] at ha'
    obtain ⟨hid, ha, rfl⟩ := put_changed hold ha' hne
    refine .inr ⟨old, ha, hfollows, rfl, .inr ⟨input, now, rfl, hid, hopen hfollows, fun _ happlication => ?_⟩⟩
    rw [hpurpose] at happlication
    cases happlication

/-- No asset is lost. -/
theorem Db.Files.kept (h : db.Files p' ev) (ha : lookup Asset.id id db.papers.assets = some a) :
    ∃ a', lookup Asset.id id p'.assets = some a' := by
  have hput : ∀ {old : Asset} {state : AssetState}, p'.assets = db.papers.put old.id state →
      ∃ a', lookup Asset.id id p'.assets = some a' := by
    intro old state hassets
    rw [hassets, lookup_put, ha]
    exact ⟨_, rfl⟩
  cases h with
  | same _ hassets _ => exact ⟨a, hassets ▸ ha⟩
  | emptied _ _ _ _ _ _ _ hassets _ => exact ⟨a, hassets ▸ ha⟩
  | prepared _ _ new _ _ _ hassets _ => exact ⟨a, by rw [hassets, lookup_concat, ha, Option.some_or]⟩
  | started _ _ old _ _ hassets _ => exact hput hassets
  | ended _ _ old state _ _ _ _ hassets _ => exact hput hassets
  | attached _ _ old _ _ _ _ hassets _ => exact hput hassets
  | filled _ _ old _ _ _ _ _ hassets _ => exact hput hassets

theorem Db.Files.next (h : db.Files p' ev) (ha : lookup Asset.id id db.papers.assets = some a) :
    ∃ a', lookup Asset.id id p'.assets = some a' ∧ a.Next a' := by
  obtain ⟨a', ha'⟩ := h.kept ha
  by_cases hne : lookup Asset.id id db.papers.assets = some a'
  · obtain rfl : a = a' := Option.some.inj (ha.symm.trans hne)
    exact ⟨a, ha', .inl rfl, rfl⟩
  · obtain ⟨hnone, -⟩ | ⟨old, hold, hfollows, hfixed, -⟩ := h.changed ha' hne
    · rw [ha] at hnone
      cases hnone
    · obtain rfl : a = old := Option.some.inj (ha.symm.trans hold)
      exact ⟨a', ha', .inr hfollows, hfixed⟩

theorem Db.Files.over (h : db.Files p' ev) (ha : lookup Asset.id id db.papers.assets = some a)
    (hover : a.state.over) : lookup Asset.id id p'.assets = some a := by
  obtain ⟨a', ha', hmoved, -⟩ := h.next ha
  rcases hmoved with rfl | hfollows
  · exact ha'
  · rw [AssetState.over_of_follows hfollows] at hover
    cases hover

/-! ## Slots -/

/-- What fills or empties a slot names the versions in force and makes the next one. -/
inductive Db.Fills (db : Db) (p' : Papers) (user : Uuid) (slot : Slot) : Event → Prop
  | finished (input : FinishDocument) (now : Int) (a : Asset) :
      lookup Asset.id input.assetId db.papers.assets = some a → input.outcome = .ready → a.purpose = .profile →
      a.userId = user → a.slot = slot → db.Named user slot a.expectedVersion a.identityVersion →
      p'.slot user slot = some ⟨user, slot, some a.id, a.expectedVersion + 1⟩ →
      Fills db p' user slot (.request (.finishDocument input) now)
  | removed (input : RemoveDocument) (now : Int) (actor target : User) :
      documentScope db input.clerkUserId input.targetUserId .profile input.slot = .ok (actor, target) →
      target.id = user → input.slot = slot →
      db.Named user slot input.expectedVersion input.expectedIdentityVersion →
      p'.slot user slot = some ⟨user, slot, none, input.expectedVersion + 1⟩ →
      Fills db p' user slot (.request (.removeDocument input) now)

theorem Db.Fills.version (h : db.Fills p' user slot ev) :
    documentVersion p' user .profile slot = documentVersion db.papers user .profile slot + 1 := by
  cases h with
  | finished _ _ a _ _ _ _ _ hnamed hrow =>
    rw [hnamed.version, documentVersion, hrow]
    rfl
  | removed _ _ _ _ _ _ _ hnamed hrow =>
    rw [hnamed.version, documentVersion, hrow]
    rfl

theorem Db.Files.row (h : db.Files p' ev) (user : Uuid) (slot : Slot) :
    p'.slot user slot = db.papers.slot user slot ∨ db.Fills p' user slot ev := by
  have hsame : p'.slots = db.papers.slots → p'.slot user slot = db.papers.slot user slot := by
    intro hslots
    rw [Papers.slot, hslots, Papers.slot]
  cases h with
  | same _ _ hslots => exact .inl (hsame hslots)
  | prepared _ _ _ _ _ _ _ hslots => exact .inl (hsame hslots)
  | started _ _ _ _ _ _ hslots => exact .inl (hsame hslots)
  | ended _ _ _ _ _ _ _ _ _ hslots => exact .inl (hsame hslots)
  | attached _ _ _ _ _ _ _ _ hslots => exact .inl (hsame hslots)
  | filled input now a ha houtcome _ hpurpose hnamed _ hwrote =>
    by_cases hne : (user, slot) = (a.userId, a.slot)
    · obtain ⟨rfl, rfl⟩ := Prod.mk.inj hne
      refine .inr (.finished input now a ha houtcome hpurpose rfl rfl hnamed ?_)
      rw [← hnamed.version]
      exact hwrote.row
    · exact .inl (hwrote.others user slot hne)
  | emptied input now actor target _ hscope hnamed _ hwrote =>
    by_cases hne : (user, slot) = (target.id, input.slot)
    · obtain ⟨rfl, rfl⟩ := Prod.mk.inj hne
      refine .inr (.removed input now actor target hscope rfl rfl hnamed ?_)
      rw [← hnamed.version]
      exact hwrote.row
    · exact .inl (hwrote.others user slot hne)

/-- A slot shows an asset: a document of the profile of its user that is ready. -/
def Papers.Shows (p : Papers) (user : Uuid) (slot : Slot) (id : Uuid) : Prop :=
  ∃ a, lookup Asset.id id p.assets = some a ∧ a.userId = user ∧ a.slot = slot ∧ a.purpose = .profile ∧
    a.state = .ready

/-- A slot is empty or shows an asset. -/
def Papers.Filled (p : Papers) : Prop :=
  ∀ user slot row id, p.slot user slot = some row → row.assetId = some id → p.Shows user slot id

theorem Db.Files.shows (h : db.Files p' ev) {id : Uuid} (hshows : db.papers.Shows user slot id) :
    p'.Shows user slot id := by
  obtain ⟨a, ha, huser, hslot, hpurpose, hready⟩ := hshows
  exact ⟨a, h.over ha (by rw [hready]; rfl), huser, hslot, hpurpose, hready⟩

theorem Db.Files.keeps_filled (h : db.Files p' ev) (hfilled : db.papers.Filled) : p'.Filled := by
  have hold : ∀ {user slot row id}, p'.slot user slot = db.papers.slot user slot → p'.slot user slot = some row →
      row.assetId = some id → p'.Shows user slot id := by
    intro user slot row id hsame hrow hid
    exact h.shows (hfilled user slot row id (hsame ▸ hrow) hid)
  intro user slot row id hrow hid
  have hsame : p'.slots = db.papers.slots → p'.Shows user slot id := by
    intro hslots
    refine hold ?_ hrow hid
    rw [Papers.slot, hslots, Papers.slot]
  cases h with
  | same _ _ hslots => exact hsame hslots
  | prepared _ _ _ _ _ _ _ hslots => exact hsame hslots
  | started _ _ _ _ _ _ hslots => exact hsame hslots
  | ended _ _ _ _ _ _ _ _ _ hslots => exact hsame hslots
  | attached _ _ _ _ _ _ _ _ hslots => exact hsame hslots
  | filled input now a ha _ _ hpurpose _ hassets hwrote =>
    by_cases hne : (user, slot) = (a.userId, a.slot)
    · -- The asset that fills the slot has just become ready.
      obtain ⟨rfl, rfl⟩ := Prod.mk.inj hne
      obtain rfl := Option.some.inj (hwrote.row.symm.trans hrow)
      obtain rfl := Option.some.inj hid
      have hself : lookup Asset.id a.id db.papers.assets = some a := by
        rw [lookup_key ha]
        exact ha
      refine ⟨{ a with state := .ready }, ?_, rfl, rfl, hpurpose, rfl⟩
      rw [hassets, lookup_put, hself, Option.map_some, if_pos rfl]
    · exact hold (hwrote.others user slot hne) hrow hid
  | emptied input now actor target _ _ _ _ hwrote =>
    by_cases hne : (user, slot) = (target.id, input.slot)
    · obtain ⟨rfl, rfl⟩ := Prod.mk.inj hne
      obtain rfl := Option.some.inj (hwrote.row.symm.trans hrow)
      cases hid
    · exact hold (hwrote.others user slot hne) hrow hid

theorem Db.Files.branded (h : db.Files p' ev) (hlogos : db.Branded) {d : Directory}
    (hkeeps : ∀ a, db.directory.Keeps a → d.Keeps a) :
    ∀ a ∈ p'.assets, a.purpose = .profile → a.slot = .logo → d.Keeps a := by
  have hput : ∀ {id : Uuid} {state : AssetState}, p'.assets = db.papers.put id state →
      ∀ a ∈ p'.assets, a.purpose = .profile → a.slot = .logo → d.Keeps a := by
    intro id state hassets a ha hpurpose hlogo
    rw [hassets] at ha
    rcases modify_cases ha with ⟨ha, -⟩ | ⟨old, hold, -, rfl⟩
    · exact hkeeps a (hlogos a ha hpurpose hlogo)
    · have hbefore := hkeeps old (hlogos old hold hpurpose hlogo)
      exact ⟨hbefore.known, hbefore.owner⟩
  have hsame : p'.assets = db.papers.assets →
      ∀ a ∈ p'.assets, a.purpose = .profile → a.slot = .logo → d.Keeps a := by
    intro hassets a ha hpurpose hlogo
    exact hkeeps a (hlogos a (hassets ▸ ha) hpurpose hlogo)
  cases h with
  | same _ hassets _ => exact hsame hassets
  | emptied _ _ _ _ _ _ _ hassets _ => exact hsame hassets
  | prepared _ _ new _ _ hnew hassets _ =>
    intro a ha hpurpose hlogo
    rw [hassets] at ha
    rcases List.mem_append.mp ha with ha | ha
    · exact hkeeps a (hlogos a ha hpurpose hlogo)
    · rw [List.mem_singleton.mp ha] at hpurpose hlogo ⊢
      exact hkeeps new (hnew hpurpose hlogo)
  | started _ _ old _ _ hassets _ => exact hput hassets
  | ended _ _ old state _ _ _ _ hassets _ => exact hput hassets
  | attached _ _ old _ _ _ _ hassets _ => exact hput hassets
  | filled _ _ old _ _ _ _ _ hassets _ => exact hput hassets

/-! ## The invariant -/

/-- What holds of the documents between transactions. -/
structure Slotted (s : System) : Prop where
  registered : Registered s
  consistent : s.db.directory.Consistent
  branded : s.db.Branded
  filled : s.db.papers.Filled

theorem Slotted.files (h : Slotted s) (hs : s.step desk ev = .ok s') : s.db.Files s'.db.papers ev :=
  step_files h.registered h.consistent h.branded hs

theorem Slotted.step (h : Slotted s) (hs : s.step desk ev = .ok s') : Slotted s' := by
  have hfiles := h.files hs
  have hjoins := step_joins h.registered hs
  have hkept : ∀ u ∈ s.db.directory.users, ∃ u' ∈ s'.db.directory.users, u'.id = u.id := by
    intro u hu
    obtain ⟨u', hu', hnext⟩ := (h.registered.step_users hs).2.kept u hu
    exact ⟨u', hu', hnext.id⟩
  exact ⟨h.registered.step hs, step_consistent h.registered h.consistent hs,
    hfiles.branded h.branded fun a ha => ha.joins hjoins hkept, hfiles.keeps_filled h.filled⟩

theorem slotted_start (b : Business) : Slotted (.start b) :=
  ⟨registered_start b, Directory.consistent_empty, fun _ ha => absurd ha List.not_mem_nil,
    fun _ _ _ _ hrow => by cases hrow⟩

/-! ## Repeats -/

/-- The request has been committed already, or its document is past it. -/
def Db.Repeats (db : Db) : Request → Prop
  | .prepareDocument input => ∃ a ∈ db.papers.assets, a.id = input.operationId
  | .startDocument input => ∃ a, lookup Asset.id input.assetId db.papers.assets = some a ∧ a.state ≠ .prepared
  | .finishDocument input => ∃ a, lookup Asset.id input.assetId db.papers.assets = some a ∧
      (a.state.over ∨ a.state = input.outcome.state)
  | .removeDocument input => ∃ c ∈ db.papers.commands, c.id = input.operationId
  | _ => False

/-- A repeat that is not refused changes nothing. -/
theorem request_repeated {r : Request} (h : r.run desk db now = .ok db') (hrepeats : db.Repeats r) : db' = db := by
  cases r with
  | prepareDocument input => exact request_replayed h hrepeats
  | removeDocument input => exact request_replayed h hrepeats
  | startDocument input =>
    obtain ⟨a, ha, hstate⟩ := hrepeats
    simp only [Request.run, startDocument, assetRow, bind_eq_ok, fetch_eq_ok, ensure_eq_ok] at h
    obtain ⟨a', ha', x, -, -, ⟨hprepared, -⟩, -⟩ := h
    obtain rfl : a = a' := Option.some.inj (ha.symm.trans ha')
    exact absurd hprepared hstate
  | finishDocument input =>
    obtain ⟨a, ha, hpast⟩ := hrepeats
    simp only [Request.run, finishDocument, assetRow, bind_eq_ok, fetch_eq_ok, ensure_eq_ok] at h
    obtain ⟨a', ha', x, -, -, -, h⟩ := h
    obtain rfl : a = a' := Option.some.inj (ha.symm.trans ha')
    split at h
    · exact (pure_eq_ok.mp h).symm
    simp only [bind_eq_ok, ensure_eq_ok] at h
    obtain ⟨-, hopen, h⟩ := h
    split at h
    · exact (pure_eq_ok.mp h).symm
    · rename_i hdiffers
      rcases hpast with hover | hsame
      · rcases hopen with hopen | hopen <;> rw [hopen] at hover <;> cases hover
      · exact absurd hsame.symm hdiffers
  | _ => exact hrepeats.elim

/-! ## Runs -/

def Papers.ready (p : Papers) (id : Uuid) : Bool :=
  (lookup Asset.id id p.assets).any fun a => a.state = .ready

/-- Whether a transition makes an asset ready. -/
def readies (id : Uuid) (r : Transition System Event) : Bool :=
  !r.before.db.papers.ready id && r.after.db.papers.ready id

/-- Whether a transition starts the upload of an asset. -/
def starts (id : Uuid) (r : Transition System Event) : Prop :=
  ∃ input now, r.label = .request (.startDocument input) now ∧ input.assetId = id

/-- Whether a transition writes a version of a slot over another. -/
def writesOver (user : Uuid) (slot : Slot) (version : Int) (r : Transition System Event) : Bool :=
  r.after.db.papers.slot user slot ≠ r.before.db.papers.slot user slot &&
    documentVersion r.before.db.papers user .profile slot = version

theorem ready_iff : p.ready id = true ↔ ∃ a, lookup Asset.id id p.assets = some a ∧ a.state = .ready := by
  simp [Papers.ready, Option.any_eq_true]

/-- An asset that is ready stays so. -/
theorem Db.Files.ready (h : db.Files p' ev) (hready : db.papers.ready id) : p'.ready id := by
  obtain ⟨a, ha, hstate⟩ := ready_iff.mp hready
  exact ready_iff.mpr ⟨a, h.over ha (by rw [hstate]; rfl), hstate⟩

theorem run_slotted (hrun : (machine desk).Run s₀ t s) (h : Slotted s₀) : Slotted s :=
  hrun.invariant (fun _ _ _ h hs => h.step hs) h

theorem ready_once (hrun : (machine desk).Run s₀ t s) (h : Slotted s₀) (id : Uuid) : t.countP (readies id) ≤ 1 := by
  suffices hcount : t.countP (readies id) = 0 ∨ t.countP (readies id) = 1 ∧ s.db.papers.ready id by
    rcases hcount with h | ⟨h, -⟩ <;> omega
  induction hrun with
  | nil => exact .inl rfl
  | @snoc s₁ s₂ t ev hbefore hstep ih =>
    have hfiles := (run_slotted hbefore h).files hstep
    rw [List.countP_append, List.countP_singleton]
    rcases ih with hzero | ⟨hone, hready⟩
    · rw [hzero, Nat.zero_add]
      split
      · rename_i hreadies
        simp only [readies, Bool.and_eq_true] at hreadies
        exact .inr ⟨rfl, hreadies.2⟩
      · exact .inl rfl
    · have hnot : ¬ readies id ⟨s₁, ev, s₂⟩ = true := by simp [readies, hready]
      rw [hone, if_neg hnot]
      exact .inr ⟨rfl, hfiles.ready hready⟩

/-- The upload of an asset that is not just prepared has been started. -/
theorem started_before (hrun : (machine desk).Run s₀ t s) (h : Slotted s₀) (hempty : s₀.db.papers.assets = [])
    (ha : lookup Asset.id id s.db.papers.assets = some a) (hstate : a.state ≠ .prepared) :
    ∃ r ∈ t, starts id r := by
  induction hrun generalizing a with
  | nil =>
    rw [hempty] at ha
    cases ha
  | @snoc s₁ s₂ t ev hbefore hstep ih =>
    have hfiles := (run_slotted hbefore h).files hstep
    have hearlier : ∀ {b : Asset}, lookup Asset.id id s₁.db.papers.assets = some b → b.state ≠ .prepared →
        ∃ r ∈ t ++ [⟨s₁, ev, s₂⟩], starts id r := by
      intro b hb hnot
      obtain ⟨r, hr, hstarts⟩ := ih hb hnot
      exact ⟨r, List.mem_append_left _ hr, hstarts⟩
    by_cases hsame : lookup Asset.id id s₁.db.papers.assets = some a
    · exact hearlier hsame hstate
    obtain ⟨-, hprepared⟩ | ⟨b, hb, -, -, hstarted | ⟨-, -, -, -, hnot, -⟩⟩ := hfiles.changed ha hsame
    · exact absurd hprepared hstate
    · obtain ⟨input, now, hlabel, hid, -⟩ := hstarted
      exact ⟨_, List.mem_append_right _ List.mem_cons_self, input, now, hlabel, hid⟩
    · exact hearlier hb hnot

/-- A slot is written over each of its versions once. -/
theorem written_once (hrun : (machine desk).Run s₀ t s) (h : Slotted s₀) (user : Uuid) (slot : Slot) (version : Int) :
    t.countP (writesOver user slot version) ≤ 1 := by
  suffices hcount : t.countP (writesOver user slot version) = 0 ∨
      t.countP (writesOver user slot version) = 1 ∧ version < documentVersion s.db.papers user .profile slot by
    rcases hcount with h | ⟨h, -⟩ <;> omega
  induction hrun with
  | nil => exact .inl rfl
  | @snoc s₁ s₂ t ev hbefore hstep ih =>
    have hrow := ((run_slotted hbefore h).files hstep).row user slot
    -- A slot that is written is written over the version in force.
    have hwritten : writesOver user slot version ⟨s₁, ev, s₂⟩ →
        documentVersion s₁.db.papers user .profile slot = version ∧
          documentVersion s₂.db.papers user .profile slot = version + 1 := by
      intro hwrites
      simp only [writesOver, Bool.and_eq_true, decide_eq_true_eq] at hwrites
      obtain ⟨hne, hversion⟩ := hwrites
      rcases hrow with hsame | hfills
      · exact absurd hsame hne
      · have hnext := hfills.version
        exact ⟨hversion, by omega⟩
    have hgrows : documentVersion s₁.db.papers user .profile slot ≤ documentVersion s₂.db.papers user .profile slot := by
      rcases hrow with hsame | hfills
      · rw [documentVersion, documentVersion, hsame]
      · have hnext := hfills.version
        omega
    rw [List.countP_append, List.countP_singleton]
    split
    · rename_i hwrites
      obtain ⟨hversion, hnext⟩ := hwritten hwrites
      rcases ih with hzero | ⟨-, hpast⟩
      · exact .inr ⟨by omega, by omega⟩
      · omega
    · rcases ih with hzero | ⟨hone, hpast⟩
      · exact .inl (by omega)
      · exact .inr ⟨by omega, by omega⟩

/-- In every run a slot is empty or shows a ready document of its user; an asset becomes ready once at most, after
its start, and what is ready or abandoned stays as it is; a slot is filled by the finish of an upload or emptied by
a removal that names its version and the version of the identity in force, its version counts those writes, and
over each version it is written once at most; what is repeated changes nothing; and a document of an application
becomes ready only while there is no application or a rejected one. -/
theorem documents_lose_no_update (hinit : (machine desk).init s₀) (hrun : (machine desk).Run s₀ t s) :
    s.db.papers.Filled ∧
    (∀ id, t.countP (readies id) ≤ 1) ∧
    (∀ t₁ r t₂, t = t₁ ++ r :: t₂ → ∀ id, readies id r → ∃ q ∈ t₁, starts id q) ∧
    (∀ r ∈ t, ∀ id a, lookup Asset.id id r.before.db.papers.assets = some a →
      ∃ a', lookup Asset.id id r.after.db.papers.assets = some a' ∧ a.Next a') ∧
    (∀ r ∈ t, ∀ id a, lookup Asset.id id r.after.db.papers.assets = some a → a.state.over →
      lookup Asset.id id s.db.papers.assets = some a) ∧
    (∀ r ∈ t, ∀ user slot, r.after.db.papers.slot user slot = r.before.db.papers.slot user slot ∨
      r.before.db.Fills r.after.db.papers user slot r.label ∧
        documentVersion r.after.db.papers user .profile slot =
          documentVersion r.before.db.papers user .profile slot + 1) ∧
    (∀ user slot version, t.countP (writesOver user slot version) ≤ 1) ∧
    (∀ r ∈ t, ∀ request now, r.label = .request request now → r.before.db.Repeats request →
      r.after.db = r.before.db) ∧
    ∀ r ∈ t, ∀ id a, readies id r → lookup Asset.id id r.before.db.papers.assets = some a →
      a.purpose = .application →
      (r.before.db.papers.application a.userId).all (fun a => a.status = .rejected) = true := by
  obtain ⟨b, -, rfl⟩ := hinit
  have hstart := slotted_start b
  have hfiles : ∀ r ∈ t, r.before.db.Files r.after.db.papers r.label := by
    intro r hr
    obtain ⟨⟨t', hbefore⟩, hstep⟩ := hrun.mem hr
    exact (run_slotted hbefore hstart).files hstep
  -- An asset that becomes ready is finished, and was not just prepared.
  have hreadies : ∀ r ∈ t, ∀ id, readies id r → ∃ a a' : Asset, lookup Asset.id id r.before.db.papers.assets = some a ∧
      a.state ≠ .prepared ∧ a'.state = .ready ∧ (a'.state = .ready → a.purpose = .application →
        (r.before.db.papers.application a.userId).all (fun a => a.status = .rejected) = true) := by
    intro r hr id hready
    simp only [readies, Bool.and_eq_true, Bool.not_eq_true'] at hready
    obtain ⟨hnot, hafter⟩ := hready
    obtain ⟨a', ha', hstate⟩ := ready_iff.mp hafter
    have hne : lookup Asset.id id r.before.db.papers.assets ≠ some a' := by
      intro hsame
      rw [ready_iff.mpr ⟨a', hsame, hstate⟩] at hnot
      cases hnot
    obtain ⟨-, hprepared⟩ | ⟨a, ha, hfollows, -, ⟨-, -, -, -, -, huploading⟩ | ⟨-, -, -, -, hopen, hrejected⟩⟩ :=
      (hfiles r hr).changed ha' hne
    · rw [hstate] at hprepared
      cases hprepared
    · rw [hstate] at huploading
      cases huploading
    · exact ⟨a, a', ha, hopen, hstate, hrejected⟩
  refine ⟨(run_slotted hrun hstart).filled, ready_once hrun hstart, ?_, ?_, ?_, ?_, written_once hrun hstart, ?_, ?_⟩
  · rintro t₁ r t₂ rfl id hready
    obtain ⟨a, -, ha, hopen, -⟩ := hreadies r (List.mem_append_right _ List.mem_cons_self) id hready
    obtain ⟨s₁, hfirst, hrest⟩ := hrun.cut
    obtain rfl : s₁ = r.before := hrest.first
    exact started_before hfirst hstart rfl ha hopen
  · intro r hr id a ha
    exact (hfiles r hr).next ha
  · intro r hr id a ha hover
    obtain ⟨t₁, t₂, -, hbefore, hstep, hafter⟩ := hrun.split hr
    have hpast := run_slotted (hbefore.snoc hstep) hstart
    refine hafter.relates (I := Slotted)
      (R := fun s s' => ∀ id a, lookup Asset.id id s.db.papers.assets = some a → a.state.over →
        lookup Asset.id id s'.db.papers.assets = some a) (fun _ _ _ h _ => h)
      (fun _ _ _ h h' id a ha hover => h' id a (h id a ha hover) hover) (fun _ _ _ h hs => h.step hs)
      (fun _ _ _ h hs id a ha hover => (h.files hs).over ha hover) hpast id a ha hover
  · intro r hr user slot
    obtain hsame | hfills := (hfiles r hr).row user slot
    · exact .inl hsame
    · exact .inr ⟨hfills, hfills.version⟩
  · intro r hr request now hlabel hrepeats
    have hstep := (hrun.mem hr).2
    rw [hlabel] at hstep
    obtain ⟨db, hrequest, hs⟩ := bind_eq_ok.mp hstep
    rw [← pure_eq_ok.mp hs]
    exact request_repeated hrequest hrepeats
  · intro r hr id a hready ha hpurpose
    obtain ⟨b', a', hb, -, hstate, hrejected⟩ := hreadies r hr id hready
    obtain rfl : a = b' := Option.some.inj (ha.symm.trans hb)
    exact hrejected hstate hpurpose

/-! ### A run -/

/-- The licence of an agency as it is uploaded. -/
def licence (id : Uuid) : PrepareDocument :=
  ⟨"user_a", id, 200, .profile, .tradeLicense, 0, 3, "png", 1000, String.ofList (List.replicate 64 '0')⟩

def licensed (id : Uuid) (outcome : DocumentOutcome) : FinishDocument :=
  ⟨"user_a", id, outcome, Uuid.text id, "png", 1000, String.ofList (List.replicate 64 '0')⟩

/-- Two licences are uploaded side by side, and one is finished first. -/
def uploadEvents : List Event := [
  .request (.prepareDocument (licence 31)) 0,
  .request (.prepareDocument (licence 32)) 0,
  .request (.startDocument ⟨"user_a", 31⟩) 0,
  .request (.startDocument ⟨"user_a", 32⟩) 0,
  .request (.finishDocument (licensed 31 .unknown)) 0,
  .request (.finishDocument (licensed 32 .ready)) 0]

def uploads : Except ApiError System := do
  let x ← approval "Road 1"
  uploadEvents.foldlM (System.step sampleDesk) x.2

/-- The second licence is shown, and the first, once found, is refused. -/
theorem documents_lose_no_update_licence : ∃ t s, (machine sampleDesk).Run (.start sampleBusiness) t s ∧
    s.db.papers.slot 200 .tradeLicense = some ⟨200, .tradeLicense, some 32, 1⟩ ∧
    s.db.papers.Shows 200 .tradeLicense 32 ∧ t.countP (writesOver 200 .tradeLicense 0) ≤ 1 ∧
    finishDocument s.db (licensed 31 .ready) = .error versionConflict := by
  have hsample : uploads.map (fun s => (s.db.papers.slot 200 .tradeLicense,
      match finishDocument s.db (licensed 31 .ready) with
      | .error e => some e
      | .ok _ => none)) = .ok (some ⟨200, .tradeLicense, some 32, 1⟩, some versionConflict) := by
    decide +kernel
  obtain ⟨s, hs, hout⟩ := map_eq_ok.mp hsample
  obtain ⟨hslot, hrefused⟩ := Prod.mk.inj hout
  obtain ⟨⟨s₁, s₂⟩, happroval, hevents⟩ := bind_eq_ok.mp hs
  obtain ⟨t, ht, -⟩ := approval_run happroval
  obtain ⟨t', hrun⟩ := Machine.Run.foldlM (M := machine sampleDesk) (fun _ _ _ h => h) ht hevents
  have hdocuments := documents_lose_no_update ⟨sampleBusiness, sampleBusiness_valid, rfl⟩ hrun
  refine ⟨_, s, hrun, hslot, hdocuments.1 200 .tradeLicense _ 32 hslot rfl, hdocuments.2.2.2.2.2.2.1 _ _ 0, ?_⟩
  cases hfinish : finishDocument s.db (licensed 31 .ready) with
  | error e =>
    rw [hfinish] at hrefused
    exact congrArg Except.error (Option.some.inj hrefused)
  | ok db =>
    rw [hfinish] at hrefused
    cases hrefused

end ShaponTravels.Identity
