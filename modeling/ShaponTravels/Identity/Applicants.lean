import ShaponTravels.Identity.ProfileEdits
import ShaponTravels.Library.Versions

/-!
# Applicants — what a run does to the applications

An application is written by its applicant and by a reviewer only, one version at a time, and the history
keeps every version.
-/

namespace ShaponTravels.Identity

open Library

variable {desk : Desk} {db db' : Db} {s₀ s s' : System} {t : List (Transition System Event)} {p p' : Papers}
  {ev : Event} {now : Int}

/-! ## One write -/

/-- What a decision or another submission makes of an application. -/
def Application.Next (old row : Application) : Prop :=
  row.version = old.version + 1 ∧
    (old.status = .pending ∧ (row.status = .accepted ∨ row.status = .rejected) ∧ row.fields = old.fields ∧
        row.documents = old.documents ∨
      old.status = .rejected ∧ row.status = .pending)

/-- What is recorded of an application. -/
def Application.recorded (a : Application) : ApplicationSnapshot := ⟨a.userId, a.version, a⟩

/-- What a request does to the applications: nothing, or one version of one user's application is written and
recorded. -/
inductive Papers.Moves (p p' : Papers) : Prop
  | same : p'.applications = p.applications → p'.history = p.history → Moves p p'
  | submitted (row : Application) :
      p.application row.userId = none → row.version = 1 → row.status = .pending →
      (∀ h ∈ p.history, ¬ (h.userId = row.userId ∧ h.version = row.version)) →
      p'.applications = p.applications ++ [row] → p'.history = p.history ++ [row.recorded] → Moves p p'
  | revised (old row : Application) :
      p.application row.userId = some old → old.Next row →
      p'.applications = modify Application.userId row.userId (fun _ => row) p.applications →
      p'.history = p.history ++ [row.recorded] → Moves p p'

theorem record_ok {a : Application} (h : p.record a = .ok p') :
    (∀ h ∈ p.history, ¬ (h.userId = a.userId ∧ h.version = a.version)) ∧
      p' = { p with history := p.history ++ [a.recorded] } := by
  simp only [Papers.record, bind_eq_ok, ensure_eq_ok, pure_eq_ok] at h
  obtain ⟨-, hfresh, rfl⟩ := h
  exact ⟨hfresh, rfl⟩

/-- The next version of an application that is there. -/
theorem updateApplication_ok {user : Uuid} {f : Application → Application} {old : Application}
    (hold : p.application user = some old) (h : p.updateApplication user f = .ok p') :
    ∃ row, row = { f old with version := old.version + 1 } ∧ row.userId = user ∧ old.Next row ∧
      p' = { p with
        applications := modify Application.userId user (fun _ => row) p.applications
        history := p.history ++ [row.recorded] } := by
  simp only [Papers.updateApplication, hold, guardApplication, bind_eq_ok, ensure_eq_ok, bigint_eq_ok,
    pure_eq_ok] at h
  obtain ⟨row, ⟨-, ⟨huser, hstatus⟩, v, ⟨-, rfl⟩, rfl⟩, hrecord⟩ := h
  exact ⟨_, rfl, huser.trans (lookup_key hold), ⟨rfl, hstatus⟩, (record_ok hrecord).2⟩

/-- A submitted application is the first of its applicant, or comes after a rejected one. -/
theorem papersSubmit_ok {user : Uuid} {fields : ApplicationFields} {documents : List Uuid}
    (h : p.submit user fields documents = .ok p') :
    p.Moves p' ∧ (∃ row, p'.application user = some row ∧ row.status = .pending ∧ row.fields = fields ∧
      row.documents = documents) ∧ ∀ u, u ≠ user → p'.application u = p.application u := by
  simp only [Papers.submit, bind_eq_ok] at h
  obtain ⟨-, -, h⟩ := h
  split at h
  · rename_i hnone
    obtain ⟨hfresh, rfl⟩ := record_ok h
    refine ⟨.submitted _ hnone rfl rfl hfresh rfl rfl,
      ⟨⟨user, 1, .pending, fields, documents, none, none, none⟩, ?_, rfl, rfl, rfl⟩, fun u hu => ?_⟩
    · have hlookup : lookup Application.userId user p.applications = none := hnone
      show lookup Application.userId user (_ ++ _) = _
      rw [lookup_concat, hlookup, Option.none_or]
      exact if_pos rfl
    · show lookup Application.userId u (_ ++ _) = lookup Application.userId u _
      rw [lookup_concat, if_neg (Ne.symm hu), Option.or_none]
  · rename_i old hold
    obtain ⟨row, hrow, hid, hnext, rfl⟩ := updateApplication_ok hold h
    refine ⟨.revised old row (by rw [hid]; exact hold) hnext (by rw [hid]) rfl,
      ⟨row, ?_, by rw [hrow], by rw [hrow], by rw [hrow]⟩, fun u hu => lookup_replace_ne hid hu p.applications⟩
    have hlookup : lookup Application.userId user p.applications = some old := hold
    show lookup Application.userId user (modify _ _ _ _) = _
    rw [lookup_replace hid, hlookup]
    rfl

/-! ## Requests -/

/-- No application is decided. -/
def Papers.Undecided (p p' : Papers) : Prop :=
  ∀ user row, p'.application user = some row → row.status ≠ .pending → p.application user = some row

theorem undecided_of_applications (h : p'.applications = p.applications) : p.Undecided p' := by
  intro user row hrow _
  rw [Papers.application, h] at hrow
  exact hrow

theorem Filed.moves (h : Filed p p') : p.Moves p' ∧ p.Undecided p' :=
  ⟨.same h.applications h.history, undecided_of_applications h.applications⟩

theorem submit_moves {input : SubmitApplication} (h : submit db input = .ok db') :
    db.papers.Moves db'.papers ∧ db.papers.Undecided db'.papers := by
  simp only [submit, bind_eq_ok] at h
  obtain ⟨fields, -, -, -, actor, -, -, -, old, -, h⟩ := h
  split at h
  · obtain rfl := pure_eq_ok.mp h
    exact (Filed.refl _).moves
  · simp only [bind_eq_ok, mapError_eq_ok] at h
    obtain ⟨-, -, -, -, p, hp, hcommand⟩ := h
    obtain ⟨hmoves, ⟨row, hrow, hpending, -⟩, hothers⟩ := papersSubmit_ok hp
    rw [commitCommand_frame hcommand]
    constructor
    · cases hmoves with
      | same happlications hhistory => exact .same happlications hhistory
      | submitted row hnone hone hpending hfresh happlications hhistory =>
        exact .submitted row hnone hone hpending hfresh happlications hhistory
      | revised old row hold hnext happlications hhistory =>
        exact .revised old row hold hnext happlications hhistory
    · intro user row' hrow' hdecided
      by_cases hu : user = actor.id
      · rw [hu] at hrow'
        obtain rfl : row = row' := Option.some.inj (hrow.symm.trans hrow')
        exact absurd hpending hdecided
      · rw [← hothers user hu]
        exact hrow'

theorem editProfile_moves {forms : ProfileForms} {input : EditProfile} {count : Nat}
    (h : editProfile forms db input count = .ok db') :
    db.papers.Moves db'.papers ∧ db.papers.Undecided db'.papers := by
  simp only [editProfile, bind_eq_ok] at h
  obtain ⟨-, -, x, -, texts, -, h⟩ := h
  split at h
  · simp only [bind_eq_ok, pure_eq_ok] at h
    obtain ⟨-, -, rfl⟩ := h
    exact (Filed.refl _).moves
  · simp only [bind_eq_ok, mapError_eq_ok, pure_eq_ok, Papers.insertMutation] at h
    obtain ⟨-, -, -, -, p, hp, q, ⟨-, -, rfl⟩, rfl⟩ := h
    unfold Papers.editProfile at hp
    split at hp
    all_goals
      obtain ⟨-, happlications, hhistory, -⟩ := upsertProfile_ok (by exact fun r => rfl) hp
      exact ⟨.same happlications hhistory, undecided_of_applications happlications⟩

/-! ## A review -/

/-- The user has one new agency, the membership of its owner, and its wallet with an empty account. -/
structure Provisioned (db db' : Db) (user : Uuid) (a : Agency) (w : Wallet.WalletOwner)
    (account : Wallet.WalletAccount) : Prop where
  agencies : db'.directory.agencies = db.directory.agencies ++ [a]
  owner : a.ownerUserId = user
  unowning : ∀ a' ∈ db.directory.agencies, a'.ownerUserId ≠ user
  memberships : db'.directory.memberships = db.directory.memberships ++ [⟨user, a.id, .owner⟩]
  unattached : ∀ m ∈ db.directory.memberships, m.userId ≠ user
  owners : db'.business.owners = db.business.owners ++ [w]
  wallet : w.ownerType = .agency ∧ w.ownerKey = a.code
  unfunded : ∀ w' ∈ db.business.owners, ¬ (w'.ownerType = .agency ∧ w'.ownerKey = a.code)
  accounts : db'.business.accounts = db.business.accounts ++ [account]
  account : account.ownerId = w.id ∧ account.availableBalance = 0 ∧ account.holdBalance = 0

theorem provision_provisioned {target : User} {draw : Draw} (h : provision db target draw = .ok db') :
    ∃ a w account, Provisioned db db' target.id a w account := by
  simp only [provision, Directory.provision, Business.insertWallet, bind_eq_ok, mapError_eq_ok, ensure_eq_ok,
    pure_eq_ok] at h
  obtain ⟨-, hnone, -, -, -, -, code, -, d, ⟨d₁, hupdate, d₂, hagency, hmember⟩, b,
    ⟨-, -, -, hfresh, -, -, rfl⟩, rfl⟩ := h
  obtain ⟨-, -, howner, rfl⟩ := insertAgency_ok hagency
  obtain ⟨-, hnew, -, d₃, hupdate', rfl⟩ := insertMembership_ok hmember
  obtain ⟨hagencies, hmemberships, -⟩ := updateUser_frame hupdate
  obtain ⟨hagencies', hmemberships', -⟩ := updateUser_frame hupdate'
  -- The owner is updated before its agency is inserted, and once more with its membership.
  refine ⟨⟨draw.agency, code, target.id, .active, 1⟩, _, _, ?_, rfl, ?_, ?_, ?_, rfl, ⟨rfl, rfl⟩, hfresh, rfl, rfl,
    rfl, rfl⟩
  · rw [← hagencies]
    exact hagencies'
  · rw [← hagencies]
    exact howner
  · show d₁.memberships ++ _ = _
    rw [hmemberships]
  · rw [← hmemberships]
    exact hnew

/-- What is left of the agency of an accepted applicant: nothing else is provisioned. -/
theorem acceptApplication_provisioned {actor target : User} {fields : ApplicationFields}
    {input : ReviewApplication} {draw : Draw}
    (h : acceptApplication db now actor target fields input draw = .ok db') :
    (∃ a w account, Provisioned db db' target.id a w account) ∧
      db'.papers.applications = db.papers.applications ∧ db'.papers.history = db.papers.history := by
  obtain ⟨db₁, current, q, access, db₂, hprovision, -, htransfer, heffects, rfl⟩ := acceptApplication_ok h
  obtain ⟨current', e₁, e₂, mirrored, -, -, -, rfl⟩ := commandEffects_ok heffects
  obtain ⟨a, w, account, hprovisioned⟩ := provision_provisioned hprovision
  obtain ⟨-, happlications, hhistory, -⟩ := upsertProfile_ok (by exact fun r => rfl) htransfer
  refine ⟨⟨a, w, account, ?_⟩, happlications, hhistory⟩
  exact { hprovisioned with }

/-- A review as it is committed: the versions it names are those of the application, the identity and the
profile, and an acceptance provisions the applicant in the same transaction. -/
structure Decided (db db' : Db) (now : Int) (input : ReviewApplication) (a target : User)
    (application : Application) : Prop where
  reviewing : Reviewing db input a target application
  decided : db'.papers.application target.id = some { application with
    version := application.version + 1
    status := input.decision.status
    reviewerId := some a.id
    reviewNote := some (trim input.note)
    reviewedAt := some now }
  accepted : input.decision = .accept → ∃ agency wallet account, Provisioned db db' target.id agency wallet account
  rejected : input.decision = .reject → db'.directory = db.directory ∧ db'.business = db.business ∧
    db'.effects = db.effects ∧ db'.mails = db.mails

theorem review_decided {input : ReviewApplication} {draw : Draw} (h : review db now input draw = .ok db') :
    db.papers.Moves db'.papers ∧
      (db' = db ∨ ∃ a target application, Decided db db' now input a target application) := by
  obtain rfl | ⟨a, target, application, db₁, p, hreviewing, hdecide, hupdate, rfl, -⟩ := review_ok h
  · exact ⟨(Filed.refl _).moves.1, .inl rfl⟩
  have hsame : db₁.papers.applications = db.papers.applications ∧ db₁.papers.history = db.papers.history := by
    unfold decideApplication at hdecide
    split at hdecide
    · exact (acceptApplication_provisioned hdecide).2
    · obtain rfl := pure_eq_ok.mp hdecide
      exact ⟨rfl, rfl⟩
  have hold : db₁.papers.application target.id = some application := by
    rw [Papers.application, hsame.1]
    exact hreviewing.applied
  obtain ⟨row, hrow, hid, hnext, rfl⟩ := updateApplication_ok hold hupdate
  constructor
  · refine .revised application row (by rw [hid]; exact hreviewing.applied) hnext ?_ ?_
    · rw [hid, ← hsame.1]
    · rw [← hsame.2]
  · refine .inr ⟨a, target, application, hreviewing, ?_, fun haccept => ?_, fun hreject => ?_⟩
    · show lookup Application.userId target.id (modify _ _ _ _) = _
      have hlookup : lookup Application.userId target.id db₁.papers.applications = some application := hold
      rw [lookup_replace hid, hlookup, hrow]
      rfl
    · rw [decideApplication, haccept] at hdecide
      obtain ⟨⟨agency, w, account, hprovisioned⟩, -⟩ := acceptApplication_provisioned hdecide
      exact ⟨agency, w, account, { hprovisioned with }⟩
    · rw [decideApplication, hreject] at hdecide
      obtain rfl := pure_eq_ok.mp hdecide
      exact ⟨rfl, rfl, rfl, rfl⟩

/-! ## A step -/

/-- Nothing but a review decides an application. -/
theorem request_moves {r : Request} (h : r.run desk db now = .ok db') :
    db.papers.Moves db'.papers ∧ ((∀ input draw, r ≠ .review input draw) → db.papers.Undecided db'.papers) := by
  cases r with
  | review input draw => exact ⟨(review_decided h).1, fun hother => absurd rfl (hother input draw)⟩
  | editProfile input count => exact (editProfile_moves h).imp_right fun hsame _ => hsame
  | submit input => exact (submit_moves h).imp_right fun hsame _ => hsame
  | rename input draw => exact (rename_filed h).moves.imp_right fun hsame _ => hsame
  | prepareDocument input => exact (prepareDocument_filed h).moves.imp_right fun hsame _ => hsame
  | startDocument input => exact (startDocument_filed h).moves.imp_right fun hsame _ => hsame
  | finishDocument input => exact (finishDocument_filed h).moves.imp_right fun hsame _ => hsame
  | removeDocument input => exact (removeDocument_filed h).moves.imp_right fun hsame _ => hsame
  | _ =>
    rw [(request_frame h).papers (by simp [Request.writes])]
    exact (Filed.refl _).moves.imp_right fun hsame _ => hsame

theorem step_moves (h : s.step desk ev = .ok s') : s.db.papers.Moves s'.db.papers ∧
    ((∀ input draw now, ev ≠ .request (.review input draw) now) → s.db.papers.Undecided s'.db.papers) := by
  cases ev with
  | request r now =>
    obtain ⟨db, hrun, hs⟩ := bind_eq_ok.mp h
    obtain rfl := pure_eq_ok.mp hs
    refine (request_moves hrun).imp_right fun hsame hother => hsame fun input draw heq => ?_
    exact hother input draw now (by rw [heq])
  | _ =>
    rw [(step_frame h).db.papers (by simp [Event.writes])]
    exact (Filed.refl _).moves.imp_right fun hsame _ => hsame

/-! ## The applications as versioned rows -/

def Application.entry (a : Application) : Entry Uuid Application := ⟨a.userId, a.version.toNat, a⟩

def ApplicationSnapshot.entry (h : ApplicationSnapshot) : Entry Uuid Application :=
  ⟨h.userId, h.version.toNat, h.snapshot⟩

/-- The applications and their history. -/
def Papers.versions (p : Papers) : Versions Uuid Application Application :=
  ⟨p.applications.map Application.entry, p.history.map ApplicationSnapshot.entry⟩

/-- An accepted application is closed. -/
abbrev ApplicationEdit : Versions Uuid Application Application → Option (Uuid × Nat) →
    Versions Uuid Application Application → Prop :=
  Versions.Edit (fun a => a.status = .accepted) id

/-- Versions count from one, and what is recorded is of an application that is still there. -/
structure Papers.Counted (p : Papers) : Prop where
  rows : ∀ a ∈ p.applications, 1 ≤ a.version
  recorded : ∀ h ∈ p.history, h = h.snapshot.recorded ∧ 1 ≤ h.version ∧
    ∃ a ∈ p.applications, a.userId = h.userId

theorem map_application_modify {old row : Application} {rows : List Application} (hid : row.userId = old.userId)
    (hversion : row.version.toNat = old.version.toNat + 1) :
    (modify Application.userId row.userId (fun _ => row) rows).map Application.entry =
      modify Entry.key old.userId (fun _ => ⟨old.userId, old.version.toNat + 1, row⟩)
        (rows.map Application.entry) := by
  simp only [Library.modify, List.map_map]
  apply List.map_congr_left
  intro a _
  simp only [Function.comp, Application.entry]
  by_cases h : a.userId = old.userId
  · simp [h, hid, hversion]
  · simp [h, hid]

theorem Papers.Moves.counted (h : p.Moves p') (hp : p.Counted) : p'.Counted := by
  have hnext : ∀ row : Application, 1 ≤ row.version → row ∈ p'.applications →
      (∀ a ∈ p.applications, ∃ a' ∈ p'.applications, a'.userId = a.userId) →
      ∀ h ∈ p.history ++ [row.recorded], h = h.snapshot.recorded ∧ 1 ≤ h.version ∧
        ∃ a ∈ p'.applications, a.userId = h.userId := by
    intro row hrow hmem hkept h hh
    rcases List.mem_append.mp hh with hh | hh
    · obtain ⟨heq, hversion, a, ha, huser⟩ := hp.recorded h hh
      obtain ⟨a', ha', hsame⟩ := hkept a ha
      exact ⟨heq, hversion, a', ha', hsame.trans huser⟩
    · rw [List.mem_singleton.mp hh]
      exact ⟨rfl, hrow, row, hmem, rfl⟩
  cases h with
  | same happlications hhistory =>
    refine ⟨happlications ▸ hp.rows, ?_⟩
    rw [happlications, hhistory]
    exact hp.recorded
  | submitted row _ hone _ _ happlications hhistory =>
    have hmem : row ∈ p'.applications := happlications ▸ List.mem_append_right _ List.mem_cons_self
    refine ⟨?_, ?_⟩
    · intro a ha
      rw [happlications] at ha
      rcases List.mem_append.mp ha with ha | ha
      · exact hp.rows a ha
      · rw [List.mem_singleton.mp ha, hone]
    · rw [hhistory]
      exact hnext row (by omega) hmem fun a ha => ⟨a, happlications ▸ List.mem_append_left _ ha, rfl⟩
  | revised old row hold hrow happlications hhistory =>
    have hcounted := hp.rows old (lookup_mem hold)
    have hversion : row.version = old.version + 1 := hrow.1
    have hmem : row ∈ p'.applications :=
      happlications ▸ mem_modify_of_mem (f := fun _ => row) (lookup_mem hold) (lookup_key hold)
    refine ⟨?_, ?_⟩
    · intro a ha
      rw [happlications] at ha
      rcases modify_cases ha with ⟨ha, -⟩ | ⟨-, -, -, rfl⟩
      · exact hp.rows a ha
      · omega
    · rw [hhistory]
      refine hnext row (by omega) hmem fun a ha => ?_
      by_cases huser : a.userId = row.userId
      · exact ⟨row, hmem, huser.symm⟩
      · exact ⟨a, happlications ▸ mem_modify_of_ne ha huser, rfl⟩

/-- A move is an edit of the versions. -/
theorem Papers.Moves.edit (h : p.Moves p') (hp : p.Counted) :
    ∃ label, ApplicationEdit p.versions label p'.versions := by
  cases h with
  | same happlications hhistory =>
    have hversions : p'.versions = p.versions := by rw [versions, happlications, hhistory, versions]
    rw [hversions]
    exact ⟨none, .stay⟩
  | submitted row hnone hone _ hfresh happlications hhistory =>
    have hlive : ∀ e ∈ p.versions.live, e.key ≠ row.userId := by
      intro e he
      obtain ⟨a, ha, rfl⟩ := List.mem_map.mp he
      exact lookup_eq_none.mp hnone a ha
    have hlog : ∀ l ∈ p.versions.log, ¬ (l.key = row.userId ∧ l.version = 1) := by
      intro l hl hkey
      obtain ⟨x, hx, rfl⟩ := List.mem_map.mp hl
      obtain ⟨huser, hversion⟩ := hkey
      have hversion' : x.version.toNat = 1 := hversion
      exact hfresh x hx ⟨huser, by omega⟩
    have hversions : p'.versions = ⟨p.versions.live ++ [⟨row.userId, 1, row⟩],
        p.versions.log ++ [⟨row.userId, 1, id row⟩]⟩ := by
      rw [versions, happlications, hhistory, List.map_append, List.map_append]
      simp [versions, Application.entry, ApplicationSnapshot.entry, Application.recorded, hone]
    rw [hversions]
    exact ⟨none, .create row.userId row hlive hlog⟩
  | revised old row hold hnext happlications hhistory =>
    have hid : row.userId = old.userId := (lookup_key hold).symm
    have hmem : old ∈ p.applications := lookup_mem hold
    have hcounted := hp.rows old hmem
    obtain ⟨hversion, hstatus⟩ := hnext
    have hnumber : row.version.toNat = old.version.toNat + 1 := by omega
    have hopen : ¬ old.status = .accepted := by
      rcases hstatus with ⟨h, -⟩ | ⟨h, -⟩ <;> simp [h]
    have hversions : p'.versions = ⟨modify Entry.key old.userId (fun _ => ⟨old.userId, old.version.toNat + 1, row⟩)
        p.versions.live, p.versions.log ++ [⟨old.userId, old.version.toNat + 1, id row⟩]⟩ := by
      rw [versions, happlications, hhistory, map_application_modify hid hnumber, List.map_append]
      simp [versions, ApplicationSnapshot.entry, Application.recorded, hid, hnumber]
    rw [hversions]
    exact ⟨_, .revise old.entry row (List.mem_map_of_mem hmem) hopen⟩

/-- An accepted application stays as it is. -/
theorem Papers.Moves.accepted {user : Uuid} {a : Application} (h : p.Moves p')
    (hrow : p.application user = some a) (haccepted : a.status = .accepted) : p'.application user = some a := by
  cases h with
  | same happlications _ =>
    rw [application, happlications]
    exact hrow
  | submitted row hnone _ _ _ happlications _ =>
    have hlookup : lookup Application.userId user p.applications = some a := hrow
    rw [application, happlications, lookup_concat, hlookup, Option.some_or]
  | revised old row hold hnext happlications _ =>
    have hne : user ≠ row.userId := by
      rintro rfl
      obtain rfl : old = a := Option.some.inj (hold.symm.trans hrow)
      obtain ⟨-, ⟨h, -⟩ | ⟨h, -⟩⟩ := hnext <;> simp [haccepted] at h
    rw [application, happlications, lookup_replace_ne rfl hne]
    exact hrow

theorem Papers.Moves.extends_history (h : p.Moves p') : p.history <+: p'.history := by
  cases h with
  | same _ hhistory => exact hhistory ▸ List.prefix_refl _
  | submitted _ _ _ _ _ _ hhistory => exact hhistory ▸ List.prefix_append _ _
  | revised _ _ _ _ _ hhistory => exact hhistory ▸ List.prefix_append _ _

/-! ## A replay -/

/-- The operation of a request is journaled. -/
def Db.Knows (db : Db) : Request → Prop
  | .submit input => ∃ c ∈ db.papers.commands, c.id = input.operationId
  | .review input _ => ∃ c ∈ db.papers.commands, c.id = input.operationId
  | .rename input _ => ∃ c ∈ db.papers.commands, c.id = input.operationId
  | .removeDocument input => ∃ c ∈ db.papers.commands, c.id = input.operationId
  | .prepareDocument input => ∃ a ∈ db.papers.assets, a.id = input.operationId
  | .editProfile input _ => ∃ m ∈ db.papers.mutations, m.operationId = input.operationId
  | .change input _ => ∃ o ∈ db.effects.operations, o.id = input.operationId
  | _ => False

/-- A journaled command is found. -/
theorem replay_known {id : Uuid} {hash : Digest} {old : Option Int} (h : replay db id hash = .ok old)
    (hknown : ∃ c ∈ db.papers.commands, c.id = id) : old ≠ none := by
  obtain ⟨c, hc, hid⟩ := hknown
  unfold replay at h
  cases hlookup : lookup Command.id id db.papers.commands with
  | none => exact absurd hid (lookup_eq_none.mp hlookup c hc)
  | some c' =>
    rw [hlookup] at h
    simp only [bind_eq_ok, pure_eq_ok] at h
    obtain ⟨-, -, rfl⟩ := h
    exact Option.some_ne_none _

theorem request_replayed {r : Request} (h : r.run desk db now = .ok db') (hknown : db.Knows r) : db' = db := by
  cases r with
  | submit input =>
    simp only [Request.run, submit, bind_eq_ok] at h
    obtain ⟨fields, -, -, -, actor, -, -, -, old, hold, h⟩ := h
    split at h
    · exact (pure_eq_ok.mp h).symm
    · exact absurd rfl (replay_known hold hknown)
  | review input draw =>
    simp only [Request.run, review, bind_eq_ok] at h
    obtain ⟨-, -, a, -, target, -, -, -, old, hold, h⟩ := h
    split at h
    · exact (pure_eq_ok.mp h).symm
    · exact absurd rfl (replay_known hold hknown)
  | rename input draw =>
    simp only [Request.run, rename, bind_eq_ok] at h
    obtain ⟨-, -, x, -, -, -, old, hold, h⟩ := h
    split at h
    · exact (pure_eq_ok.mp h).symm
    · exact absurd rfl (replay_known hold hknown)
  | removeDocument input =>
    simp only [Request.run, removeDocument, bind_eq_ok] at h
    obtain ⟨-, -, x, -, old, hold, h⟩ := h
    split at h
    · exact (pure_eq_ok.mp h).symm
    · exact absurd rfl (replay_known hold hknown)
  | prepareDocument input =>
    obtain ⟨a, ha, hid⟩ := hknown
    simp only [Request.run, prepareDocument, bind_eq_ok] at h
    obtain ⟨-, -, x, -, h⟩ := h
    split at h
    · simp only [bind_eq_ok, pure_eq_ok] at h
      obtain ⟨-, -, rfl⟩ := h
      rfl
    · rename_i hnone
      exact absurd hid (lookup_eq_none.mp hnone a ha)
  | editProfile input count =>
    obtain ⟨m, hm, hid⟩ := hknown
    obtain ⟨-, hsame⟩ | ⟨actor, target, hcommitted⟩ := editProfile_ok h
    · exact hsame
    · exact absurd hid (hcommitted.fresh m hm)
  | change input draw =>
    obtain ⟨o, ho, hid⟩ := hknown
    obtain hsame | ⟨-, -, -, -, -, -, -, -, hnone, -⟩ := change_ok h
    · exact hsame
    · exact absurd hid (lookup_eq_none.mp hnone o ho)
  | _ => exact hknown.elim

/-! ## Runs -/

theorem counted_start (b : Business) : (System.start b).db.papers.Counted :=
  ⟨fun _ ha => absurd ha List.not_mem_nil, fun _ hh => absurd hh List.not_mem_nil⟩

/-- A run is a run of edits of the versions. -/
theorem run_versions (hrun : (machine desk).Run s₀ t s) (hp : s₀.db.papers.Counted) :
    s.db.papers.Counted ∧ ∃ edits,
      (Versions.machine (fun a : Application => a.status = .accepted) id).Run s₀.db.papers.versions edits
        s.db.papers.versions ∧
      List.Forall₂ (fun r e => e.after = r.after.db.papers.versions) t edits := by
  induction hrun with
  | nil => exact ⟨hp, [], .nil _, .nil⟩
  | snoc _ hstep ih =>
    obtain ⟨hcounted, edits, hedits, hsame⟩ := ih
    obtain ⟨hmoves, -⟩ := step_moves hstep
    obtain ⟨label, hedit⟩ := hmoves.edit hcounted
    exact ⟨hmoves.counted hcounted, _, hedits.snoc hedit, List.rel_append hsame (.cons rfl .nil)⟩

theorem history_extends (hrun : (machine desk).Run s₀ t s) : s₀.db.papers.history <+: s.db.papers.history :=
  hrun.relates (I := fun _ => True) (R := fun s s' => s.db.papers.history <+: s'.db.papers.history)
    (fun _ => List.prefix_refl _) (fun _ _ _ => List.IsPrefix.trans) (fun _ _ _ _ _ => trivial)
    (fun _ _ _ _ hstep => (step_moves hstep).1.extends_history) trivial

variable {a : Application} {user : Uuid}

/-- The application of a user as it stands is in the history. -/
theorem recorded_of_sound (hs : Versions.Sound id p.versions) (hp : p.Counted) (ha : a ∈ p.applications) :
    a.recorded ∈ p.history := by
  obtain ⟨h, hh, heq⟩ := List.mem_map.mp (hs.recorded a.entry (List.mem_map_of_mem ha))
  have hsnapshot : h.snapshot = a := congrArg Entry.value heq
  rw [← hsnapshot, ← (hp.recorded h hh).1]
  exact hh

/-- The history of a user is numbered from one to the version of the application. -/
theorem numbered_of_sound (hs : Versions.Sound id p.versions) (hp : p.Counted) (user : Uuid) :
    (p.history.filter fun h => h.userId = user).map ApplicationSnapshot.version =
      (List.range' 1 (p.applicationVersion user).toNat).map Int.ofNat := by
  have hnumbers : (p.history.filter fun h => h.userId = user).map (fun h => h.version.toNat) =
      List.range' 1 (p.applicationVersion user).toNat := by
    have hof : p.versions.versionsOf user =
        (p.history.filter fun h => h.userId = user).map (fun h => h.version.toNat) := by
      rw [Versions.versionsOf, Papers.versions, List.filter_map, List.map_map]
      rfl
    rw [← hof]
    cases hrow : p.application user with
    | some row =>
      have hid : row.userId = user := lookup_key hrow
      have hnumbered := hs.numbered row.entry (List.mem_map_of_mem (lookup_mem hrow))
      rw [← hid, Papers.applicationVersion, hid, hrow]
      exact hid ▸ hnumbered
    | none =>
      have hnone : p.history.filter (fun h => h.userId = user) = [] := by
        rw [List.filter_eq_nil_iff]
        intro h hh
        obtain ⟨-, -, a, ha, huser⟩ := hp.recorded h hh
        have hne := lookup_eq_none.mp hrow a ha
        rw [huser] at hne
        simpa using hne
      rw [hof, hnone, Papers.applicationVersion, hrow]
      rfl
  rw [← hnumbers, List.map_map]
  apply List.map_congr_left
  intro h hh
  obtain ⟨-, hversion, -⟩ := hp.recorded h (List.mem_of_mem_filter hh)
  show h.version = (h.version.toNat : Int)
  omega

/-- Whether a transition accepts the application of a user. -/
def accepts (user : Uuid) (r : Transition System Event) : Bool :=
  !(r.before.db.papers.application user).any (fun a => a.status = .accepted) &&
    (r.after.db.papers.application user).any fun a => a.status = .accepted

/-- An application is accepted at most once. -/
theorem accepted_once (hrun : (machine desk).Run s₀ t s) (user : Uuid) : t.countP (accepts user) ≤ 1 := by
  suffices hcount : t.countP (accepts user) = 0 ∨ t.countP (accepts user) = 1 ∧
      ∃ a, s.db.papers.application user = some a ∧ a.status = .accepted by
    rcases hcount with h | ⟨h, -⟩ <;> omega
  induction hrun with
  | nil => exact .inl rfl
  | @snoc s₁ s₂ t ev _ hstep ih =>
    have hmoves := (step_moves hstep).1
    rw [List.countP_append, List.countP_singleton]
    rcases ih with hzero | ⟨hone, a, ha, haccepted⟩
    · rw [hzero, Nat.zero_add]
      split
      · rename_i haccepts
        simp only [accepts, Bool.and_eq_true, Option.any_eq_true, decide_eq_true_eq] at haccepts
        exact .inr ⟨rfl, haccepts.2⟩
      · exact .inl rfl
    · have hnot : ¬ accepts user ⟨s₁, ev, s₂⟩ = true := by simp [accepts, ha, haccepted]
      rw [hone, if_neg hnot]
      exact .inr ⟨rfl, a, hmoves.accepted ha haccepted, haccepted⟩

/-- In every run the users have one application each, which moves as the law says and is accepted once; a
review that is committed is of the versions it names, by an active reviewer who may grant the role and is not
the applicant, and an acceptance provisions one agency, one membership and one wallet with it; the transfer
keeps every text of the profile; the history has the versions of every application, each as the row stood;
and what is replayed changes nothing. -/
theorem applications_reviewed (hinit : (machine desk).init s₀) (hrun : (machine desk).Run s₀ t s) :
    KeyUnique Application.userId s.db.papers.applications ∧
    (∀ r ∈ t, r.before.db.papers.Moves r.after.db.papers) ∧
    (∀ user, t.countP (accepts user) ≤ 1) ∧
    (∀ r ∈ t, ∀ input draw now, r.label = .request (.review input draw) now → r.after.db = r.before.db ∨
      ∃ a target application, Decided r.before.db r.after.db now input a target application ∧
        application.recorded ∈ r.before.db.papers.history) ∧
    (∀ r ∈ t, (∀ input draw now, r.label ≠ .request (.review input draw) now) →
      r.before.db.papers.Undecided r.after.db.papers) ∧
    (∀ r ∈ t, ∀ input draw now, r.label = .request (.review input draw) now →
      Approved r.before.db r.after.db input) ∧
    (∀ user, (s.db.papers.history.filter fun h => h.userId = user).map ApplicationSnapshot.version =
      (List.range' 1 (s.db.papers.applicationVersion user).toNat).map Int.ofNat) ∧
    (∀ r ∈ t, ∀ user row, r.after.db.papers.application user = some row →
      row.recorded ∈ s.db.papers.history) ∧
    (∀ h ∈ s.db.papers.history, h = h.snapshot.recorded ∧
      ∃ r ∈ t, r.after.db.papers.application h.userId = some h.snapshot) ∧
    ∀ r ∈ t, ∀ request now, r.label = .request request now → r.before.db.Knows request →
      r.after.db = r.before.db := by
  obtain ⟨b, -, rfl⟩ := hinit
  have hempty : Versions.Sound id (System.start b).db.papers.versions := .empty
  -- The invariants, at the end of every part of the run.
  have hsound : ∀ {t' : List (Transition System Event)} {s'}, (machine desk).Run (.start b) t' s' →
      s'.db.papers.Counted ∧ Versions.Sound id s'.db.papers.versions := by
    intro t' s' hrun'
    obtain ⟨hcounted, edits, hedits, -⟩ := run_versions hrun' (counted_start b)
    exact ⟨hcounted, Versions.run_sound hedits hempty⟩
  have hunique : ∀ {p : Papers}, Versions.Sound id p.versions → KeyUnique Application.userId p.applications := by
    intro p hs
    have hkeys := hs.unique
    rw [KeyUnique, Papers.versions, List.map_map] at hkeys
    exact hkeys
  obtain ⟨hcounted, hversions⟩ := hsound hrun
  refine ⟨hunique hversions, ?_, accepted_once hrun, ?_, ?_, ?_, numbered_of_sound hversions hcounted, ?_, ?_, ?_⟩
  · intro r hr
    exact (step_moves (hrun.mem hr).2).1
  · intro r hr input draw now hlabel
    obtain ⟨⟨t', hbefore⟩, hstep⟩ := hrun.mem hr
    obtain ⟨hcounted', hversions'⟩ := hsound hbefore
    rw [hlabel] at hstep
    obtain ⟨db, hreview, hs⟩ := bind_eq_ok.mp hstep
    rw [← pure_eq_ok.mp hs]
    obtain ⟨-, hsame | ⟨a, target, application, hdecided⟩⟩ := review_decided hreview
    · exact .inl hsame
    · exact .inr ⟨a, target, application, hdecided,
        recorded_of_sound hversions' hcounted' (lookup_mem hdecided.reviewing.applied)⟩
  · intro r hr
    exact (step_moves (hrun.mem hr).2).2
  · intro r hr input draw now hlabel
    have hstep := (hrun.mem hr).2
    rw [hlabel] at hstep
    exact step_review hstep
  · intro r hr user row hrow
    obtain ⟨t₁, t₂, -, hbefore, hstep, hafter⟩ := hrun.split hr
    obtain ⟨hcounted', hversions'⟩ := hsound (hbefore.snoc hstep)
    exact (history_extends hafter).subset (recorded_of_sound hversions' hcounted' (lookup_mem hrow))
  · intro h hh
    refine ⟨(hcounted.recorded h hh).1, ?_⟩
    obtain ⟨-, edits, hedits, hsame⟩ := run_versions hrun (counted_start b)
    obtain hold | ⟨e, he, live, hlive, hlogged⟩ := Versions.run_logged hedits (List.mem_map_of_mem hh)
    · cases hold
    · obtain ⟨r, hr, hafter⟩ := exists_left hsame he
      obtain ⟨t₁, t₂, -, hbefore, hstep, -⟩ := hrun.split hr
      obtain ⟨-, hversions'⟩ := hsound (hbefore.snoc hstep)
      rw [hafter] at hlive
      obtain ⟨row, hrow, rfl⟩ := List.mem_map.mp hlive
      have hid : h.userId = row.userId := congrArg Entry.key hlogged
      have hsnapshot : h.snapshot = row := congrArg Entry.value hlogged
      refine ⟨r, hr, ?_⟩
      rw [hid, hsnapshot]
      exact (hunique hversions').lookup hrow
  · intro r hr request now hlabel hknown
    have hstep := (hrun.mem hr).2
    rw [hlabel] at hstep
    obtain ⟨db, hrequest, hs⟩ := bind_eq_ok.mp hstep
    rw [← pure_eq_ok.mp hs]
    exact request_replayed hrequest hknown

/-- A customer who has applied is accepted. -/
theorem applications_reviewed_accepted : ∃ t s, (machine sampleDesk).Run (.start sampleBusiness) t s ∧
    (s.db.papers.application 200).map (fun a => (a.version, a.status)) = some (2, .accepted) ∧
    (s.db.papers.history.filter fun h => h.userId = 200).map ApplicationSnapshot.version = [1, 2] := by
  have hsample : (approval "Road 1").map (fun x =>
      (x.2.db.papers.application 200).map fun a => (a.version, a.status)) = .ok (some (2, .accepted)) := by
    decide +kernel
  obtain ⟨⟨s, s'⟩, hs, hstatus⟩ := map_eq_ok.mp hsample
  obtain ⟨t, ht, -⟩ := approval_run hs
  have hnumbers := (applications_reviewed ⟨sampleBusiness, sampleBusiness_valid, rfl⟩ ht).2.2.2.2.2.2.1 200
  obtain ⟨a, ha, hrow⟩ := Option.map_eq_some_iff.mp hstatus
  obtain ⟨hversion, -⟩ := Prod.mk.inj hrow
  refine ⟨_, s', ht, hstatus, hnumbers.trans ?_⟩
  rw [Papers.applicationVersion, ha, Option.map_some, Option.getD_some, hversion]
  rfl

end ShaponTravels.Identity
