import ShaponTravels.Search.Controls

/-!
# Budget — claims never exceed the limits in force

The locks of a claim keep what it has read true until it commits: nobody else writes the control or the
hits of its actor, nor the limit or the hits of its supplier.  So the check and the increments of a
claim act on one state, and every count of hits is the number of claims that were dispatched.
-/

namespace ShaponTravels.Search.Controls

open Library

variable {s s' : System} {db db' : Db} {c c' : Claim} {e : Event}

/-! ## What a claim has read -/

/-- What the claim has read is what the tables say. -/
def Claim.fresh (db : Db) (c : Claim) : Prop :=
  match c.phase with
  | .locked => True
  | .controlled control => control = db.control c.usage.subject
  | .limited control limit | .dated control limit _ =>
    control = db.control c.usage.subject ∧ db.limit c.supplier = some limit
  | .counted control limit day userHits supplierHits =>
    control = db.control c.usage.subject ∧ db.limit c.supplier = some limit ∧
      userHits = db.hitsOf day .actor c.usage.actorKey ∧
      supplierHits = db.hitsOf day .supplier c.supplier

/-- The tables agree on everything the locks of a claim protect. -/
structure Protected (c : Claim) (db db' : Db) : Prop where
  control : db'.control c.usage.subject = db.control c.usage.subject
  limit : c.phase.holdsSupplier = true → db'.limit c.supplier = db.limit c.supplier
  actorHits : ∀ day, db'.hitsOf day .actor c.usage.actorKey = db.hitsOf day .actor c.usage.actorKey
  supplierHits : c.phase.holdsSupplier = true →
    ∀ day, db'.hitsOf day .supplier c.supplier = db.hitsOf day .supplier c.supplier

theorem Claim.fresh.protected (h : c.fresh db) (hp : Protected c db db') : c.fresh db' := by
  unfold Claim.fresh at h ⊢
  cases hphase : c.phase with
  | locked => trivial
  | controlled control =>
    simp only [hphase] at h ⊢
    rw [hp.control]
    exact h
  | limited control limit | dated control limit day =>
    simp only [hphase] at h ⊢
    rw [hp.control, hp.limit (by rw [hphase]; rfl)]
    exact h
  | counted control limit day userHits supplierHits =>
    simp only [hphase] at h ⊢
    have hholds : c.phase.holdsSupplier = true := by rw [hphase]; rfl
    rw [hp.control, hp.limit hholds, hp.actorHits, hp.supplierHits hholds]
    exact h

/-! ## The invariant -/

structure Sound (s : System) : Prop where
  actors : KeyUnique (fun c : Claim => c.usage.actorKey) s.claims
  suppliers : ∀ c ∈ s.claims, ∀ c' ∈ s.claims, c.phase.holdsSupplier = true →
    c'.phase.holdsSupplier = true → c.supplier = c'.supplier → c = c'
  fresh : ∀ c ∈ s.claims, c.fresh s.db

/-- A write that leaves alone what the open claims have locked. -/
theorem Sound.write (hs : Sound s) (h : ∀ c ∈ s.claims, Protected c s.db db') :
    Sound { s with db := db' } :=
  ⟨hs.actors, hs.suppliers, fun c hc => (hs.fresh c hc).protected (h c hc)⟩

theorem Sound.close (hs : Sound s) (c : Claim) : Sound (s.close c) where
  actors := hs.actors.sublist (List.erase_sublist.map _)
  suppliers c₁ h₁ c₂ h₂ := hs.suppliers c₁ (List.erase_subset h₁) c₂ (List.erase_subset h₂)
  fresh c' hc' := hs.fresh c' (List.erase_subset hc')

/-- A claim reads on: what it reads is so, and a row it takes is free. -/
theorem Sound.advance (hs : Sound s) (hc : c ∈ s.claims) {phase : Phase}
    (hfresh : ({ c with phase := phase } : Claim).fresh s.db)
    (hholds : c.phase.holdsSupplier = true ∨ phase.holdsSupplier = false ∨
      s.supplierFree c.supplier = true) : Sound (s.advance c phase) := by
  have hcases : ∀ x ∈ (s.advance c phase).claims,
      (x ∈ s.claims ∧ x ≠ c) ∨ x = { c with phase := phase } := by
    intro x hx
    obtain ⟨c₀, hc₀, rfl⟩ := List.mem_map.mp hx
    split
    · exact .inr rfl
    · exact .inl ⟨hc₀, ‹_›⟩
  -- another claim holds no row that is taken now
  have hother : ∀ x ∈ s.claims, x ≠ c → x.phase.holdsSupplier = true →
      phase.holdsSupplier = true → x.supplier ≠ c.supplier := by
    intro x hx hne hxholds hphase hsupplier
    rcases hholds with hholds | hfree | hfree
    · exact hne (hs.suppliers x hx c hc hxholds hholds hsupplier)
    · rw [hfree] at hphase
      cases hphase
    · have hxfree := List.all_eq_true.mp hfree x hx
      simp [hxholds, hsupplier] at hxfree
  constructor
  case actors =>
    have hmap : (s.advance c phase).claims.map (fun x => x.usage.actorKey) =
        s.claims.map (fun x => x.usage.actorKey) := by
      simp only [System.advance, List.map_map]
      apply List.map_congr_left
      intro x _
      simp only [Function.comp]
      split
      · rename_i h
        rw [h]
      · rfl
    rw [KeyUnique, hmap]
    exact hs.actors
  case suppliers =>
    intro c₁ h₁ c₂ h₂ hholds₁ hholds₂ hsupplier
    rcases hcases c₁ h₁ with ⟨h₁, hne₁⟩ | rfl
    · rcases hcases c₂ h₂ with ⟨h₂, -⟩ | rfl
      · exact hs.suppliers c₁ h₁ c₂ h₂ hholds₁ hholds₂ hsupplier
      · exact absurd hsupplier (hother c₁ h₁ hne₁ hholds₁ hholds₂)
    · rcases hcases c₂ h₂ with ⟨h₂, hne₂⟩ | rfl
      · exact absurd hsupplier.symm (hother c₂ h₂ hne₂ hholds₂ hholds₁)
      · rfl
  case fresh =>
    intro x hx
    rcases hcases x hx with ⟨hx, -⟩ | rfl
    · exact hs.fresh x hx
    · exact hfresh

theorem Sound.begin (hs : Sound s) {u : Usage} {supplier : String}
    (hfree : s.actorFree u.actorKey = true) :
    Sound { s with claims := s.claims ++ [⟨u, supplier, .locked⟩] } := by
  have hcases : ∀ x ∈ s.claims ++ [(⟨u, supplier, .locked⟩ : Claim)],
      x.phase.holdsSupplier = true → x ∈ s.claims := by
    intro x hx hholds
    rcases List.mem_append.mp hx with hx | hx
    · exact hx
    · rw [List.mem_singleton.mp hx] at hholds
      cases hholds
  constructor
  case actors =>
    refine keyUnique_concat.mpr ⟨hs.actors, fun c hc => ?_⟩
    simpa using List.all_eq_true.mp hfree c hc
  case suppliers =>
    intro c₁ h₁ c₂ h₂ hholds₁ hholds₂
    exact hs.suppliers c₁ (hcases c₁ h₁ hholds₁) c₂ (hcases c₂ h₂ hholds₂) hholds₁ hholds₂
  case fresh =>
    intro c hc
    rcases List.mem_append.mp hc with hc | hc
    · exact hs.fresh c hc
    · rw [List.mem_singleton.mp hc]
      trivial

/-! ## Commits -/

/-- The tables after a claim: a blocked one leaves the hits, a dispatched one raises both. -/
structure Settled (db : Db) (c : Claim) (day : Int) (code : Option String) (db' : Db) : Prop where
  limits : db'.limits = db.limits
  controls : db'.controls = db.controls
  usage : ∃ u ∈ db'.supplierUsages, u.searchId = c.usage.id ∧ u.supplier = c.supplier ∧
    u.dispatched = code.isNone
  hits : db'.hits = if code.isSome then db.hits else
    Tally.bump ⟨day, .supplier, c.supplier⟩ (Tally.bump ⟨day, .actor, c.usage.actorKey⟩ db.hits)

theorem settleClaim_ok {day : Int} {code : Option String}
    (h : db.settleClaim c day code = .ok db') : Settled db c day code db' := by
  simp only [Db.settleClaim, bind_eq_ok, ensure_eq_ok, exists_const] at h
  obtain ⟨-, -, h⟩ := h
  split at h
  · rename_i hcode
    cases h
    exact ⟨rfl, rfl, ⟨_, List.mem_append_right _ (List.mem_singleton.mpr rfl), rfl, rfl, rfl⟩,
      by rw [if_pos hcode]⟩
  · rename_i hcode
    simp only [bind_eq_ok, pure_eq_ok] at h
    obtain ⟨-, -, -, -, rfl⟩ := h
    exact ⟨rfl, rfl, ⟨_, List.mem_append_right _ (List.mem_singleton.mpr rfl), rfl, rfl, rfl⟩,
      by rw [if_neg hcode]⟩

/-- The hits a claim adds to a counter. -/
def Claim.adds (c : Claim) (day : Int) (kind : HitKind) (key : String) : Bool :=
  c.verdict.any fun v => v.1 = day && v.2.isNone &&
    match kind with
    | .actor => c.usage.actorKey = key
    | .supplier => c.supplier = key

theorem Settled.hitsOf {day : Int} {code : Option String} (h : Settled db c day code db')
    (hverdict : c.verdict = some (day, code)) (day' : Int) (kind : HitKind) (key : String) :
    db'.hitsOf day' kind key = db.hitsOf day' kind key + if c.adds day' kind key then 1 else 0 := by
  unfold Db.hitsOf Claim.adds
  rw [h.hits, hverdict]
  cases code with
  | some code => simp
  | none =>
    simp only [Option.isSome_none, Bool.false_eq_true, if_false, Tally.read_bump, HitKey.mk.injEq,
      Option.any_some, Option.isNone_none, Bool.and_true, Bool.and_eq_true, decide_eq_true_eq]
    cases kind with
    | actor => simp [eq_comm]
    | supplier => simp [eq_comm]

/-- A claim writes nothing another open claim has locked. -/
theorem Settled.protected {day : Int} {code : Option String} (h : Settled db c day code db')
    (hverdict : c.verdict = some (day, code)) (hactor : c'.usage.actorKey ≠ c.usage.actorKey)
    (hsupplier : c'.phase.holdsSupplier = true → c'.supplier ≠ c.supplier) :
    Protected c' db db' := by
  constructor
  case control => simp only [Db.control, h.controls]
  case limit => simp only [Db.limit, h.limits, implies_true]
  case actorHits =>
    intro day'
    rw [h.hitsOf hverdict, if_neg, add_zero]
    simp only [Claim.adds, hverdict, Option.any_some, Bool.and_eq_true, decide_eq_true_eq]
    exact fun hadds => hactor hadds.2.symm
  case supplierHits =>
    intro hholds day'
    rw [h.hitsOf hverdict, if_neg, add_zero]
    simp only [Claim.adds, hverdict, Option.any_some, Bool.and_eq_true, decide_eq_true_eq]
    exact fun hadds => hsupplier hholds hadds.2.symm

/-! ## Edits -/

theorem editSupplier_ok {admin : Admin} {supplier : String} {dailyLimit : Option Int}
    {expectedVersion : Int}
    (h : editSupplier db admin supplier dailyLimit expectedVersion = .ok db') :
    db'.controls = db.controls ∧ db'.hits = db.hits ∧
      ∀ other, other ≠ supplier → db'.limit other = db.limit other := by
  simp only [editSupplier, bind_eq_ok, ensure_eq_ok, exists_const, pure_eq_ok] at h
  obtain ⟨-, -, rfl⟩ := h
  refine ⟨rfl, rfl, fun other hother => ?_⟩
  simp only [Db.limit, Db.saved]
  rw [lookup_modify_ne (fun l => ?_) hother]
  split
  · rfl
  · rfl

theorem editUser_ok {admin : Admin} {subject : String} {searchEnabled : Bool}
    {dailyLimit : Option Int} {expectedVersion : Int}
    (h : editUser db admin subject searchEnabled dailyLimit expectedVersion = .ok db') :
    db'.limits = db.limits ∧ db'.hits = db.hits ∧
      ∀ other, other ≠ some subject → db'.control other = db.control other := by
  simp only [editUser, bind_eq_ok, ensure_eq_ok, exists_const] at h
  obtain ⟨-, -, h⟩ := h
  split at h
  · simp only [bind_eq_ok, ensure_eq_ok, exists_const, pure_eq_ok] at h
    obtain ⟨-, edited, rfl, rfl⟩ := h
    refine ⟨rfl, rfl, fun other hother => ?_⟩
    cases other with
    | none => rfl
    | some other =>
      have hne : ¬ (UserControl.subject ⟨subject, searchEnabled, dailyLimit, 1⟩ = other) :=
        fun h => hother (by rw [← h])
      simp only [Db.control, Db.saved, Option.bind_some, lookup_concat, if_neg hne, Option.or_none]
  · simp only [bind_eq_ok, ensure_eq_ok, exists_const, pure_eq_ok] at h
    obtain ⟨-, edited, rfl, rfl⟩ := h
    refine ⟨rfl, rfl, fun other hother => ?_⟩
    cases other with
    | none => rfl
    | some other =>
      simp only [Db.control, Db.saved, Option.bind_some]
      rw [lookup_modify_ne (fun c => ?_) (fun h => hother (by rw [h]))]
      split
      · rfl
      · rfl

/-! ## Every step keeps the invariant -/

theorem protected_of_same (hcontrols : db'.controls = db.controls) (hlimits : db'.limits = db.limits)
    (hhits : db'.hits = db.hits) : Protected c db db' where
  control := by simp only [Db.control, hcontrols]
  limit _ := by simp only [Db.limit, hlimits]
  actorHits _ := by simp only [Db.hitsOf, hhits]
  supplierHits _ _ := by simp only [Db.hitsOf, hhits]

theorem Sound.commit (hs : Sound s) {day : Int} {code : Option String} (hc : c ∈ s.claims)
    (hverdict : c.verdict = some (day, code)) (h : s.db.settleClaim c day code = .ok db') :
    Sound { s.close c with db := db' } := by
  refine (hs.close c).write (fun c' hc' => ?_)
  have hmem : c' ∈ s.claims := List.erase_subset hc'
  have hnodup : s.claims.Nodup := List.Nodup.of_map _ hs.actors
  have hne : c' ≠ c := by
    rintro rfl
    exact (List.Nodup.not_mem_erase hnodup) hc'
  have hholds : c.phase.holdsSupplier = true := by
    unfold Claim.verdict at hverdict
    split at hverdict
    · rename_i hphase
      rw [hphase]
      rfl
    · cases hverdict
  refine (settleClaim_ok h).protected hverdict ?_ ?_
  · exact fun hactor => hne (hs.actors.eq_of_key hmem hc hactor)
  · exact fun hholds' hsupplier => hne (hs.suppliers c' hmem c hc hholds' hholds hsupplier)

theorem Sound.step (hs : Sound s) (h : s.step e = .ok s') : Sound s' := by
  cases e with
  | start u =>
    simp only [System.step, bind_eq_ok, ensure_eq_ok, exists_const, pure_eq_ok] at h
    obtain ⟨-, rfl⟩ := h
    exact hs.write fun c _ => protected_of_same rfl rfl rfl
  | «begin» u supplier =>
    simp only [System.step, bind_eq_ok, ensure_eq_ok, exists_const, pure_eq_ok] at h
    obtain ⟨hfree, rfl⟩ := h
    exact hs.begin hfree
  | readControl c =>
    simp only [System.step, bind_eq_ok, ensure_eq_ok, exists_const, pure_eq_ok] at h
    obtain ⟨⟨hc, -⟩, rfl⟩ := h
    exact hs.advance hc rfl (.inr (.inl rfl))
  | lockSupplier c =>
    simp only [System.step, bind_eq_ok, ensure_eq_ok, exists_const] at h
    obtain ⟨hc, h⟩ := h
    split at h
    · rename_i control hphase
      simp only [bind_eq_ok, ensure_eq_ok, fetch_eq_ok, exists_const, pure_eq_ok] at h
      obtain ⟨hfree, limit, hlimit, rfl⟩ := h
      -- the row of the supplier is locked, so its limit stays until the claim ends
      have hfresh := hs.fresh c hc
      simp only [Claim.fresh, hphase] at hfresh
      exact hs.advance hc ⟨hfresh, hlimit⟩ (.inr (.inr hfree))
    · cases h
  | readDay c day =>
    simp only [System.step, bind_eq_ok, ensure_eq_ok, exists_const] at h
    obtain ⟨hc, h⟩ := h
    split at h
    · rename_i control limit hphase
      cases h
      have hfresh := hs.fresh c hc
      simp only [Claim.fresh, hphase] at hfresh
      exact hs.advance hc hfresh (.inl (by rw [hphase]; rfl))
    · cases h
  | readHits c =>
    simp only [System.step, bind_eq_ok, ensure_eq_ok, exists_const] at h
    obtain ⟨hc, h⟩ := h
    split at h
    · rename_i control limit day hphase
      cases h
      have hfresh := hs.fresh c hc
      simp only [Claim.fresh, hphase] at hfresh
      exact hs.advance hc ⟨hfresh.1, hfresh.2, rfl, rfl⟩ (.inl (by rw [hphase]; rfl))
    · cases h
  | commit c =>
    simp only [System.step, bind_eq_ok, ensure_eq_ok, fetch_eq_ok, exists_const, mapError_eq_ok,
      pure_eq_ok] at h
    obtain ⟨hc, ⟨day, code⟩, hverdict, db, hsettle, rfl⟩ := h
    exact hs.commit hc hverdict hsettle
  | abort c =>
    cases h
    exact hs.close c
  | finished search supplier success =>
    cases h
    exact hs.write fun c _ => protected_of_same rfl rfl rfl
  | portalUser subject =>
    cases h
    exact hs.write fun c _ => protected_of_same rfl rfl rfl
  | edit admin command =>
    cases command with
    -- an administrator waits for the lock of the row, so no claim that holds it sees the edit
    | supplier supplier dailyLimit expectedVersion =>
      simp only [System.step, bind_eq_ok, ensure_eq_ok, exists_const, pure_eq_ok] at h
      obtain ⟨-, -, hfree, db, hedit, rfl⟩ := h
      obtain ⟨hcontrols, hhits, hlimit⟩ := editSupplier_ok hedit
      refine hs.write fun c hc => ?_
      constructor
      case control => simp only [Db.control, hcontrols]
      case limit =>
        intro hholds
        refine hlimit _ (fun hsupplier => ?_)
        have hcfree := List.all_eq_true.mp hfree c hc
        simp [hholds, hsupplier] at hcfree
      case actorHits => simp only [Db.hitsOf, hhits, implies_true]
      case supplierHits => simp only [Db.hitsOf, hhits, implies_true]
    | user subject searchEnabled dailyLimit expectedVersion =>
      simp only [System.step, bind_eq_ok, ensure_eq_ok, exists_const, pure_eq_ok] at h
      obtain ⟨-, -, hfree, db, hedit, rfl⟩ := h
      obtain ⟨hlimits, hhits, hcontrol⟩ := editUser_ok hedit
      refine hs.write fun c hc => ?_
      constructor
      case control =>
        refine hcontrol _ (fun hsubject => ?_)
        have hcfree := List.all_eq_true.mp hfree c hc
        simp [Usage.actorKey, hsubject] at hcfree
      case limit => simp only [Db.limit, hlimits, implies_true]
      case actorHits => simp only [Db.hitsOf, hhits, implies_true]
      case supplierHits => simp only [Db.hitsOf, hhits, implies_true]

theorem sound_init (h : Initial s) : Sound s where
  actors := by rw [h.claims]; exact .nil
  suppliers c hc := by rw [h.claims] at hc; cases hc
  fresh c hc := by rw [h.claims] at hc; cases hc

theorem reachable_sound (h : machine.Reachable s) : Sound s :=
  h.invariant (fun _ => sound_init) (fun _ _ _ hs hstep => hs.step hstep)

/-! ## Counting over a run -/

/-- The hits an event adds to a counter. -/
def Event.adds (day : Int) (kind : HitKind) (key : String) : Event → Bool
  | .commit c => c.adds day kind key
  | _ => false

theorem step_hits (h : s.step e = .ok s') (day : Int) (kind : HitKind) (key : String) :
    s'.db.hitsOf day kind key =
      s.db.hitsOf day kind key + if e.adds day kind key then 1 else 0 := by
  cases e with
  | commit c =>
    simp only [System.step, bind_eq_ok, ensure_eq_ok, fetch_eq_ok, exists_const, mapError_eq_ok,
      pure_eq_ok] at h
    obtain ⟨-, ⟨day', code⟩, hverdict, db, hsettle, rfl⟩ := h
    exact (settleClaim_ok hsettle).hitsOf hverdict day kind key
  | start u | «begin» u supplier | readControl c =>
    simp only [System.step, bind_eq_ok, ensure_eq_ok, exists_const, pure_eq_ok] at h
    obtain ⟨-, rfl⟩ := h
    exact (add_zero _).symm
  | lockSupplier c | readDay c day' | readHits c =>
    simp only [System.step, bind_eq_ok, ensure_eq_ok, exists_const] at h
    obtain ⟨-, h⟩ := h
    split at h
    · simp only [bind_eq_ok, ensure_eq_ok, fetch_eq_ok, exists_const, pure_eq_ok] at h
      obtain ⟨-, limit, -, rfl⟩ := h
      exact (add_zero _).symm
    · cases h
  | abort c | finished search supplier success | portalUser subject =>
    cases h
    exact (add_zero _).symm
  | edit admin command =>
    cases command with
    | supplier supplier dailyLimit expectedVersion =>
      simp only [System.step, bind_eq_ok, ensure_eq_ok, exists_const, pure_eq_ok] at h
      obtain ⟨-, -, -, db, hedit, rfl⟩ := h
      simp only [Db.hitsOf, (editSupplier_ok hedit).2.1, Event.adds, Bool.false_eq_true, if_false,
        add_zero]
    | user subject searchEnabled dailyLimit expectedVersion =>
      simp only [System.step, bind_eq_ok, ensure_eq_ok, exists_const, pure_eq_ok] at h
      obtain ⟨-, -, -, db, hedit, rfl⟩ := h
      simp only [Db.hitsOf, (editUser_ok hedit).2.1, Event.adds, Bool.false_eq_true, if_false,
        add_zero]

theorem run_hits {t : List (Transition System Event)} (hr : machine.Run s t s') (day : Int)
    (kind : HitKind) (key : String) :
    s'.db.hitsOf day kind key =
      s.db.hitsOf day kind key + (t.filter fun r => r.label.adds day kind key).length := by
  induction hr with
  | nil => simp
  | snoc _ hstep ih =>
    rw [step_hits hstep, ih, List.filter_append, List.length_append]
    simp only [List.filter_cons, List.filter_nil]
    split
    · simp [add_assoc]
    · simp

/-! ## The result -/

/-- The switch of the user and the limits in force admit a claim on a day. -/
structure Admitted (db : Db) (c : Claim) (day : Int) : Prop where
  enabled : ∀ enabled limit, db.control c.usage.subject = some (enabled, limit) → enabled = true
  user : ∀ enabled limit, db.control c.usage.subject = some (enabled, some limit) →
    db.hitsOf day .actor c.usage.actorKey < limit
  supplier : ∀ limit, db.limit c.supplier = some (some limit) →
    db.hitsOf day .supplier c.supplier < limit

theorem refusal_eq_none {control : Option (Bool × Option Int)} {limit : Option Int}
    {userHits supplierHits : Int} (h : refusal control limit userHits supplierHits = none) :
    (∀ enabled l, control = some (enabled, l) → enabled = true) ∧
      (∀ enabled l, control = some (enabled, some l) → userHits < l) ∧
      ∀ l, limit = some l → supplierHits < l := by
  unfold refusal at h
  split at h
  · cases h
  · rename_i henabled
    split at h
    · cases h
    · rename_i huser
      split at h
      · cases h
      · rename_i hsupplier
        refine ⟨?_, ?_, ?_⟩
        · rintro enabled l rfl
          simpa using henabled
        · rintro enabled l rfl
          simpa using huser
        · rintro l rfl
          simpa using hsupplier

/-- At its commit a claim that is dispatched is within the limits in force. -/
theorem Sound.admitted (hs : Sound s) {day : Int} (hc : c ∈ s.claims)
    (hverdict : c.verdict = some (day, none)) : Admitted s.db c day := by
  have hfresh := hs.fresh c hc
  unfold Claim.verdict at hverdict
  split at hverdict
  · rename_i control limit day' userHits supplierHits hphase
    simp only [Option.some.injEq, Prod.mk.injEq] at hverdict
    obtain ⟨rfl, hcode⟩ := hverdict
    simp only [Claim.fresh, hphase] at hfresh
    obtain ⟨rfl, hlimit, rfl, rfl⟩ := hfresh
    obtain ⟨henabled, huser, hsupplier⟩ := refusal_eq_none hcode
    refine ⟨henabled, huser, fun l hl => hsupplier l ?_⟩
    rw [hlimit] at hl
    exact Option.some.inj hl
  · cases hverdict

/-- The accounting of the run `t` to `s`. -/
structure Accounted (t : List (Transition System Event)) (s : System) : Prop where
  /-- the hits of a day are the claims that were dispatched on it -/
  hits : ∀ day kind key, s.db.hitsOf day kind key =
    (t.filter fun r => r.label.adds day kind key).length
  /-- a claim is dispatched within the switch and the limits in force -/
  admitted : ∀ r ∈ t, ∀ c day, r.label = .commit c → c.verdict = some (day, none) →
    Admitted r.before.db c day
  /-- and raises both of its counters -/
  dispatched : ∀ r ∈ t, ∀ c day, r.label = .commit c → c.verdict = some (day, none) →
    r.after.db.hitsOf day .actor c.usage.actorKey =
        r.before.db.hitsOf day .actor c.usage.actorKey + 1 ∧
      r.after.db.hitsOf day .supplier c.supplier =
        r.before.db.hitsOf day .supplier c.supplier + 1
  /-- a blocked one changes no counter -/
  blocked : ∀ r ∈ t, ∀ c day code, r.label = .commit c → c.verdict = some (day, some code) →
    r.after.db.hits = r.before.db.hits
  /-- the usage of a claim says which of the two it was -/
  recorded : ∀ r ∈ t, ∀ c day code, r.label = .commit c → c.verdict = some (day, code) →
    ∃ u ∈ r.after.db.supplierUsages, u.searchId = c.usage.id ∧ u.supplier = c.supplier ∧
      u.dispatched = code.isNone

/-- Over any interleaving of claims, statement by statement, with edits of the controls and changes of
the day, hits count the dispatched claims and none is dispatched at or above a limit in force. -/
theorem search_budget_accounting {t : List (Transition System Event)} (h₀ : machine.init s)
    (hr : machine.Run s t s') : Accounted t s' := by
  have hcommit : ∀ r ∈ t, ∀ c day code, r.label = .commit c → c.verdict = some (day, code) →
      Sound r.before ∧ c ∈ r.before.claims ∧ Settled r.before.db c day code r.after.db := by
    intro r hmem c day code hlabel hverdict
    obtain ⟨⟨t', hbefore⟩, hstep⟩ := hr.mem hmem
    rw [hlabel] at hstep
    simp only [machine, System.step, bind_eq_ok, ensure_eq_ok, fetch_eq_ok, exists_const,
      mapError_eq_ok, pure_eq_ok] at hstep
    obtain ⟨hc, verdict, hverdict', db, hsettle, hafter⟩ := hstep
    rw [hverdict] at hverdict'
    cases hverdict'
    rw [← hafter]
    exact ⟨reachable_sound ⟨s, t', h₀, hbefore⟩, hc, settleClaim_ok hsettle⟩
  constructor
  case hits =>
    intro day kind key
    have hzero : s.db.hitsOf day kind key = 0 := by
      rw [Db.hitsOf, (show Initial s from h₀).hits]
      rfl
    rw [run_hits hr, hzero, zero_add]
  case admitted =>
    intro r hmem c day hlabel hverdict
    obtain ⟨hs, hc, -⟩ := hcommit r hmem c day none hlabel hverdict
    exact hs.admitted hc hverdict
  case dispatched =>
    intro r hmem c day hlabel hverdict
    obtain ⟨-, -, hsettled⟩ := hcommit r hmem c day none hlabel hverdict
    constructor
    · rw [hsettled.hitsOf hverdict, if_pos (by simp [Claim.adds, hverdict])]
    · rw [hsettled.hitsOf hverdict, if_pos (by simp [Claim.adds, hverdict])]
  case blocked =>
    intro r hmem c day code hlabel hverdict
    obtain ⟨-, -, hsettled⟩ := hcommit r hmem c day (some code) hlabel hverdict
    exact hsettled.hits
  case recorded =>
    intro r hmem c day code hlabel hverdict
    exact (hcommit r hmem c day code hlabel hverdict).2.2.usage

/-! ## A user with a limit of one -/

def sampleUsage (id : Uuid) : Usage := ⟨id, 1, some "user_a"⟩

/-- A user who may search once a day. -/
def sampleSystem : System where
  db :=
    { limits := [⟨"takeoff", some 5, 1⟩], controls := [⟨"user_a", true, some 1, 1⟩], hits := []
      usages := [sampleUsage 1, sampleUsage 2], supplierUsages := [], portalUsers := ["user_a"]
      audit := [] }
  claims := []

/-- The statements of a claim on one day. -/
def sampleClaim (u : Usage) (userHits supplierHits : Int) : List Event :=
  let control := some (true, some 1)
  let claim := fun phase => (⟨u, "takeoff", phase⟩ : Claim)
  [.begin u "takeoff", .readControl (claim .locked), .lockSupplier (claim (.controlled control)),
    .readDay (claim (.limited control (some 5))) 7, .readHits (claim (.dated control (some 5) 7)),
    .commit (claim (.counted control (some 5) 7 userHits supplierHits))]

/-- The first claim of the day is dispatched and the second one blocked. -/
theorem search_budget_accounting_limited : ∃ t s', machine.init sampleSystem ∧
    machine.Run sampleSystem t s' ∧ s'.db.hitsOf 7 .actor "user_a" = 1 ∧
    s'.db.supplierUsages.map SupplierUsage.dispatched = [true, false] ∧ Accounted t s' := by
  have hend : ((sampleClaim (sampleUsage 1) 0 0 ++ sampleClaim (sampleUsage 2) 1 1).foldlM
      System.step sampleSystem).map (fun s => (s.db.hitsOf 7 .actor "user_a",
        s.db.supplierUsages.map SupplierUsage.dispatched)) = .ok (1, [true, false]) := by
    decide +kernel
  obtain ⟨s', hfold, hs'⟩ := map_eq_ok.mp hend
  have h₀ : machine.init sampleSystem := by
    refine ⟨?_, ?_, rfl, rfl⟩
    · exact List.nodup_singleton _
    · exact List.nodup_singleton _
  obtain ⟨t, hr⟩ := (Machine.Run.nil sampleSystem).foldlM (M := machine)
    (fun _ _ _ hstep => hstep) hfold
  rw [Prod.mk.injEq] at hs'
  exact ⟨t, s', h₀, hr, hs'.1, hs'.2, search_budget_accounting h₀ hr⟩

end ShaponTravels.Search.Controls
