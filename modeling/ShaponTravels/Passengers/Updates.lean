import ShaponTravels.Library.Table
import ShaponTravels.Library.Transition
import ShaponTravels.Passengers.Columns

/-!
# Updates — saving, changing and deleting passengers

`passengers::create`, `passengers::update` and `passengers::delete`.  An update merges the changes into what
is shown of the row, checks the passenger that comes out of it as a whole, and writes the columns of the
fields that were named.
-/

namespace ShaponTravels.Passengers

open Library
open Booking (NaiveDate)

/-! ## Actors -/

inductive Role where
  | superadmin
  | admin
  | b2b
  | b2bSub
  | customer
  deriving DecidableEq, Repr

structure Actor where
  externalUserId : String
  role : Role
  holdDraftId : Option Uuid

/-- An actor who may use every profile. -/
def Actor.all (a : Actor) : Bool := a.holdDraftId.isNone && a.role ∈ [Role.superadmin, Role.admin]

def Actor.validate (a : Actor) : Except ApiError Unit :=
  ensure (a.externalUserId.utf8ByteSize ≤ 128 ∧ startsWith a.externalUserId "user_" ∧
    5 < a.externalUserId.utf8ByteSize ∧
    a.externalUserId.toList.all fun c => isAsciiAlpha c || isAsciiDigit c || c = '_') invalid

/-- What a request finds when it comes in. -/
structure Moment where
  /-- `Admin::portal_bridge` -/
  bridge : Bool
  /-- the writes of the actor in this hour, with this one -/
  count : Nat
  /-- the owner of a hold draft that the actor has created -/
  draftOwner : Uuid → String → Option String
  /-- `identity::business::begin` -/
  begins : Except ApiError Unit
  today : NaiveDate
  now : String
  id : Uuid
  publicRef : String

def authorize (m : Moment) (a : Actor) : Except ApiError Unit := do
  ensure m.bridge ⟨.forbidden, "FORBIDDEN"⟩
  a.validate
  ensure (m.count ≤ 40) ⟨.tooManyRequests, "RATE_LIMITED"⟩

def profileOwner (m : Moment) (a : Actor) : Except ApiError String :=
  match a.holdDraftId with
  | some draft => do
    ensure (a.role = .superadmin) ⟨.forbidden, "PASSENGER_ACCESS_DENIED"⟩
    fetch (m.draftOwner draft a.externalUserId) missing
  | none => .ok a.externalUserId

/-! ## Profiles -/

/-- A row of `passenger_profiles`. -/
structure Profile where
  id : Uuid
  publicRef : String
  ownerUserId : String
  columns : Columns
  createdAt : String
  updatedAt : String

def portalPassengerJson (p : Profile) : Value :=
  .object ([("id", .str p.id.text), ("publicRef", .str p.publicRef)] ++
    (Field.all.map fun f => (f.api, p.columns.json f)) ++
    [("createdAt", .str p.createdAt), ("updatedAt", .str p.updatedAt)])

/-- `Map::retain` of the fields that can be changed. -/
def retained : Value → Value
  | .obj fields => .obj (fields.filter fun f => f.1 ∈ Field.all.map Field.api)
  | v => v

/-- The fields that the changes name. -/
def named (changes : List (String × Value)) (f : Field) : Bool := changes.any fun c => c.1 = f.api

/-- What is shown of a profile with the changes made to it. -/
def merged (p : Profile) (changes : List (String × Value)) : Value :=
  (retained (portalPassengerJson p)).extend changes

inductive Request where
  | create (actor : Actor) (passenger : PassengerData) (source : Option String)
  | update (actor : Actor) (id : Uuid) (changes : Value)
  | delete (actor : Actor) (id : Uuid)

abbrev Profiles := List Profile

/-- What the database refuses. -/
def refused : ApiError := .ofDb (.violated "passenger_profiles")

variable (k : Texts)

def create (m : Moment) (actor : Actor) (passenger : PassengerData) (source : Option String) (db : Profiles) :
    Except ApiError (Profiles × Value) := do
  authorize m actor
  let owner ← profileOwner m actor
  ensure (∀ s ∈ source, s = "checkout") invalid
  let passenger := passenger.normalize
  passenger.validate k m.today source.isNone
  m.begins
  ensure (storable passenger) refused
  let columns ← fetch (k.populate (record passenger)) refused
  ensure columns.Allowed refused
  ensure (∀ p ∈ db, p.id ≠ m.id ∧ p.publicRef ≠ m.publicRef) refused
  let profile : Profile := ⟨m.id, m.publicRef, owner, columns, m.now, m.now⟩
  return (db ++ [profile], .object [("passenger", portalPassengerJson profile)])

def update (m : Moment) (actor : Actor) (id : Uuid) (changes : Value) (db : Profiles) :
    Except ApiError (Profiles × Value) := do
  authorize m actor
  let owner ← profileOwner m actor
  let changes ← fetch (changes.asObject?.filter fun fields => fields ≠ []) invalid
  ensure (∀ c ∈ changes, c.1 ∈ Field.all.map Field.api) invalid
  m.begins
  let row ← fetch ((lookup Profile.id id db).filter fun p => actor.all || p.ownerUserId = owner) missing
  let passenger ← fetch (PassengerData.fromValue (merged row changes)) invalid
  let passenger := passenger.normalize
  passenger.validate k m.today false
  ensure (storable passenger) refused
  let columns ← fetch (k.populate (record passenger)) refused
  -- `passenger_profiles_touch_updated_at` sets the time.
  let profile := { row with columns := columns.assign (named changes) row.columns, updatedAt := m.now }
  ensure profile.columns.Allowed refused
  return (modify Profile.id id (fun _ => profile) db, .object [("passenger", portalPassengerJson profile)])

def delete (m : Moment) (actor : Actor) (id : Uuid) (db : Profiles) : Except ApiError (Profiles × Value) := do
  ensure m.bridge ⟨.forbidden, "FORBIDDEN"⟩
  ensure actor.all ⟨.forbidden, "PASSENGER_DELETE_DENIED"⟩
  authorize m actor
  m.begins
  ensure ((lookup Profile.id id db).isSome) missing
  return (db.filter fun p => p.id ≠ id, .object [("removed", .bool true)])

def perform (m : Moment) (db : Profiles) : Request → Except ApiError (Profiles × Value)
  | .create actor passenger source => create k m actor passenger source db
  | .update actor id changes => update k m actor id changes db
  | .delete actor id => delete m actor id db

/-- A request that fails is rolled back. -/
def machine : Machine Profiles (Moment × Request) where
  init db := db = []
  step db i db' :=
    match perform k i.1 db i.2 with
    | .ok result => db' = result.1
    | .error _ => db' = db

/-! ## What is shown and merged -/

theorem get?_portal (p : Profile) (f : Field) :
    (portalPassengerJson p).get? f.api = some (p.columns.json f) := by
  unfold portalPassengerJson
  refine Value.get?_object_of_mem (f := (f.api, p.columns.json f)) ?_ ?_
  · rw [List.map_append, List.map_append, List.map_map]
    show (["id", "publicRef"] ++ Field.all.map Field.api ++ ["createdAt", "updatedAt"]).Nodup
    decide
  · apply List.mem_append_left
    apply List.mem_append_right
    exact List.mem_map.mpr ⟨f, Field.mem_all f, rfl⟩

theorem get?_retained {v : Value} {key : String} (hkey : key ∈ Field.all.map Field.api) :
    (retained v).get? key = v.get? key := by
  cases v with
  | obj fields =>
    show ((fields.filter fun f => f.1 ∈ Field.all.map Field.api).find? fun f => f.1 = key).map Prod.snd = _
    rw [List.find?_filter, Value.get?]
    congr 2
    funext f
    by_cases hf : f.1 = key
    · rw [hf]
      simp only [hkey, and_self, decide_true]
    · simp [hf]
  | _ => rfl

theorem isObject_retained (p : Profile) : (retained (portalPassengerJson p)).isObject := by
  unfold portalPassengerJson Value.object
  rfl

theorem api_mem (f : Field) : f.api ∈ Field.all.map Field.api := List.mem_map_of_mem (Field.mem_all f)

variable {k} {p p' : Profile} {changes : List (String × Value)} {c : Columns} {d e : PassengerData} {f : Field}

theorem get?_shown (p : Profile) (f : Field) :
    (retained (portalPassengerJson p)).get? f.api = some (p.columns.json f) := by
  rw [get?_retained (api_mem f), get?_portal]

theorem get?_merged (p : Profile) (changes : List (String × Value)) (f : Field) :
    (merged p changes).get? f.api = ((Value.obj changes).get? f.api).or (some (p.columns.json f)) := by
  rw [merged, Value.get?_extend (isObject_retained p), get?_shown]

theorem retained_known {v : Value} {fields : List (String × Value)} (h : retained v = .obj fields) :
    ∀ c ∈ fields, c.1 ∈ Field.all.map Field.api := by
  cases v with
  | obj all =>
    intro c hc
    rw [← Value.obj.inj h] at hc
    exact of_decide_eq_true (List.mem_filter.mp hc).2
  | _ => cases h

/-- Only fields that can be changed are merged. -/
theorem merged_known (h : ∀ c ∈ changes, c.1 ∈ Field.all.map Field.api) :
    ∃ fields, merged p changes = .obj fields ∧ ∀ f ∈ fields, f.1 ∈ Field.all.map Field.api := by
  have hobject := Value.isObject_extend (isObject_retained p) changes
  obtain ⟨all, hall⟩ := Option.isSome_iff_exists.mp (isObject_retained p)
  rw [Value.asObject?_eq_some] at hall
  unfold merged
  cases hmerged : (retained (portalPassengerJson p)).extend changes with
  | obj fields =>
    refine ⟨fields, rfl, fun f hf => ?_⟩
    rcases Value.mem_extend hall hmerged hf with hf | hf
    · exact h f hf
    · exact retained_known hall f hf
  | _ =>
    rw [hmerged] at hobject
    cases hobject

theorem named_iff : named changes f = true ↔ (Value.obj changes).get? f.api ≠ none := by
  rw [named, List.any_eq_true]
  simp [Value.get?, List.find?_eq_none]

/-! ## Rows written from valid data -/

/-- The columns are those of normalized data that passes every check but that of the age. -/
structure Written (k : Texts) (c : Columns) (d : PassengerData) : Prop where
  normal : d.normalize = d
  valid : ∀ today, d.validate k today false = .ok ()
  storable : storable d = true
  columns : k.populate (record d) = some c
  allowed : c.Allowed

theorem validate_dated {today : NaiveDate} {age : Bool} (h : d.validate k today age = .ok ()) :
    Dated k d ∧ ∀ today, d.validate k today false = .ok () := by
  simp only [PassengerData.validate, bind_eq_ok, ensure_eq_ok, exists_const, Bool.false_eq_true,
    false_implies, implies_true, true_and] at h ⊢
  obtain ⟨htype, htitle, hname, hpair, hphone, hemail, dob, hdob, expiry, hexpiry, -, hrest⟩ := h
  refine ⟨?_, fun _ => ⟨htype, htitle, hname, hpair, hphone, hemail, dob, hdob, expiry, hexpiry, hrest⟩⟩
  intro s hs
  rcases List.mem_cons.mp hs with rfl | hs
  · exact ⟨dob, hdob⟩
  · rw [List.mem_singleton.mp hs]
    exact ⟨expiry, hexpiry⟩

theorem Written.json (h : Written k c d) (f : Field) : c.json f = d.value f :=
  json_populate (validate_dated (h.valid ⟨1970, 1, 1⟩)).1 h.columns f

/-- The data reads back from what is shown of it. -/
theorem Written.reads (h : Written k c d) (f : Field) : f.Reads (c.json f) d := by
  rw [h.json]
  exact f.reads_value d

theorem Written.normalized (h : Written k c d) (f : Field) : f.normalized (c.json f) = some (c.json f) := by
  rw [(h.reads f).normalized, h.normal, h.json]

/-- Writing the named columns of a passenger who is the same in all the others writes the passenger. -/
theorem assign_written {v : Columns} (h : Written k c d) (hv : k.populate (record e) = some v)
    (hkept : ∀ f, named changes f = false → e.value f = d.value f) :
    Columns.assign (named changes) v c = v := by
  apply Columns.ext_cell
  intro f
  rw [Columns.cell_assign]
  split
  · rfl
  · rename_i hf
    have hcell := Texts.populate_eq_some.mp h.columns f
    have hcell' := Texts.populate_eq_some.mp hv f
    rw [field_record] at hcell hcell'
    rw [hkept f (Bool.not_eq_true _ ▸ hf), hcell] at hcell'
    exact Option.some.inj hcell'

/-! ## One request -/

variable {m : Moment} {actor : Actor} {id : Uuid} {db db' : Profiles}

/-- The actor may write the profile of an owner now. -/
def MayWrite (m : Moment) (actor : Actor) (ownerUserId : String) : Prop :=
  authorize m actor = .ok () ∧ m.begins = .ok () ∧
    ∃ owner, profileOwner m actor = .ok owner ∧ (actor.all = true ∨ ownerUserId = owner)

theorem update_ok {changes : Value} {r : Profiles × Value} :
    update k m actor id changes db = .ok r ↔
      ∃ fields row e v, changes = .obj fields ∧ fields ≠ [] ∧
        (∀ c ∈ fields, c.1 ∈ Field.all.map Field.api) ∧ lookup Profile.id id db = some row ∧
        MayWrite m actor row.ownerUserId ∧ PassengerData.fromValue (merged row fields) = some e ∧
        e.normalize.validate k m.today false = .ok () ∧ storable e.normalize = true ∧
        k.populate (record e.normalize) = some v ∧ (v.assign (named fields) row.columns).Allowed ∧
        r = (modify Profile.id id
            (fun _ => { row with columns := v.assign (named fields) row.columns, updatedAt := m.now }) db,
          .object [("passenger", portalPassengerJson
            { row with columns := v.assign (named fields) row.columns, updatedAt := m.now })]) := by
  simp only [update, bind_eq_ok, ensure_eq_ok, fetch_eq_ok, pure_eq_ok, exists_const, MayWrite,
    Option.filter_eq_some_iff, Value.asObject?_eq_some, decide_eq_true_eq, Bool.or_eq_true]
  constructor
  · rintro ⟨⟨⟩, hauth, owner, howner, fields, ⟨rfl, hne⟩, hknown, ⟨⟩, hbegins, row, ⟨hrow, hmay⟩, e, he, ⟨⟩,
      hvalid, hstorable, v, hv, hallowed, rfl⟩
    exact ⟨fields, row, e, v, rfl, hne, hknown, hrow, ⟨hauth, hbegins, owner, howner, hmay⟩, he, hvalid,
      hstorable, hv, hallowed, rfl⟩
  · rintro ⟨fields, row, e, v, rfl, hne, hknown, hrow, ⟨hauth, hbegins, owner, howner, hmay⟩, he, hvalid,
      hstorable, hv, hallowed, rfl⟩
    exact ⟨(), hauth, owner, howner, fields, ⟨rfl, hne⟩, hknown, (), hbegins, row, ⟨hrow, hmay⟩, e, he, (),
      hvalid, hstorable, v, hv, hallowed, rfl⟩

/-- An update sets the named fields to their normalized values and leaves the others. -/
structure Framed (p p' : Profile) (changes : Value) : Prop where
  id : p'.id = p.id
  publicRef : p'.publicRef = p.publicRef
  ownerUserId : p'.ownerUserId = p.ownerUserId
  createdAt : p'.createdAt = p.createdAt
  set : ∀ (f : Field) (x : Value), changes.get? f.api = some x → f.normalized x = some (p'.columns.json f)
  kept : ∀ f : Field, changes.get? f.api = none → p'.columns.cell f = p.columns.cell f

/-- What the merged data is for each field, and what it is normalized to. -/
theorem merged_normalized (he : PassengerData.fromValue (merged p changes) = some e) (f : Field) :
    f.normalized (((Value.obj changes).get? f.api).getD (p.columns.json f)) = some (e.normalize.value f) := by
  obtain ⟨-, hreads⟩ := PassengerData.fromValue_eq_some.mp he
  obtain ⟨x, hx, hread⟩ := hreads f
  rw [get?_merged] at hx
  have hx' : ((Value.obj changes).get? f.api).getD (p.columns.json f) = x := by
    cases hget : (Value.obj changes).get? f.api with
    | none =>
      rw [hget] at hx
      exact Option.some.inj hx
    | some y =>
      rw [hget] at hx
      exact Option.some.inj hx
  rw [hx']
  exact hread.normalized

theorem update_written {v : Columns} (hp : Written k p.columns d)
    (he : PassengerData.fromValue (merged p changes) = some e)
    (hvalid : e.normalize.validate k m.today false = .ok ()) (hstorable : storable e.normalize = true)
    (hv : k.populate (record e.normalize) = some v) (hallowed : (v.assign (named changes) p.columns).Allowed) :
    Written k (v.assign (named changes) p.columns) e.normalize := by
  have hassign : v.assign (named changes) p.columns = v := by
    apply assign_written hp hv
    intro f hf
    have hnone : (Value.obj changes).get? f.api = none := by
      by_contra hsome
      rw [named_iff.mpr hsome] at hf
      cases hf
    have hnormal := merged_normalized he f
    rw [hnone, Option.getD_none, hp.normalized, Option.some.injEq, hp.json] at hnormal
    exact hnormal.symm
  rw [hassign] at hallowed ⊢
  exact ⟨e.normalize_idem, (validate_dated hvalid).2, hstorable, hv, hallowed⟩

/-- The row after an update. -/
theorem update_framed {v : Columns} (he : PassengerData.fromValue (merged p changes) = some e)
    (hw : Written k (v.assign (named changes) p.columns) e.normalize) (now : String) :
    Framed p { p with columns := v.assign (named changes) p.columns, updatedAt := now } (.obj changes) where
  id := rfl
  publicRef := rfl
  ownerUserId := rfl
  createdAt := rfl
  set := by
    intro f x hx
    have hnormal := merged_normalized he f
    rw [hx, Option.getD_some] at hnormal
    rw [hnormal, hw.json]
  kept := by
    intro f hnone
    show (v.assign (named changes) p.columns).cell f = p.columns.cell f
    rw [Columns.cell_assign, if_neg]
    intro hf
    exact named_iff.mp hf hnone

/-! ## Submitting what is shown -/

/-- The fields that are shown of a profile. -/
def shown (p : Profile) : Value := retained (portalPassengerJson p)

theorem merged_shown_reads (hp : Written k p.columns d) {fields : List (String × Value)}
    (hshown : shown p = .obj fields) : PassengerData.fromValue (merged p fields) = some d := by
  refine PassengerData.fromValue_eq_some.mpr
    ⟨merged_known (retained_known hshown), fun f => ⟨_, ?_, hp.reads f⟩⟩
  rw [get?_merged, ← hshown, shown, get?_shown]
  rfl

/-- Submitting all that is shown of a profile writes the profile. -/
theorem update_shown (hp : Written k p.columns d) (hlookup : lookup Profile.id p.id db = some p)
    (hmay : MayWrite m actor p.ownerUserId) :
    update k m actor p.id (shown p) db =
      .ok (modify Profile.id p.id (fun _ => { p with updatedAt := m.now }) db,
        .object [("passenger", portalPassengerJson { p with updatedAt := m.now })]) := by
  obtain ⟨fields, hfields⟩ := Option.isSome_iff_exists.mp (isObject_retained p)
  have hshown : shown p = .obj fields := Value.asObject?_eq_some.mp hfields
  have hreads := merged_shown_reads hp hshown
  have hnormal := hp.normal
  have hassign : p.columns.assign (named fields) p.columns = p.columns := by
    apply Columns.ext_cell
    intro f
    rw [Columns.cell_assign, ite_self]
  have hne : fields ≠ [] := by
    intro hnil
    have hget := get?_shown p .title
    rw [← shown, hshown, hnil] at hget
    cases hget
  refine update_ok.mpr ⟨fields, p, d, p.columns, hshown, hne, retained_known hshown, hlookup, hmay, hreads, ?_⟩
  rw [hnormal, hassign]
  exact ⟨hp.valid m.today, hp.storable, hp.columns, hp.allowed, rfl⟩

/-! ## Runs -/

/-- Every row is written from valid data, and found by its id. -/
structure Saved (k : Texts) (db : Profiles) : Prop where
  keys : KeyUnique Profile.id db
  written : ∀ p ∈ db, ∃ d, Written k p.columns d

theorem create_ok {passenger : PassengerData} {source : Option String} {r : Profiles × Value}
    (h : create k m actor passenger source db = .ok r) :
    ∃ p, Written k p.columns passenger.normalize ∧ (∀ q ∈ db, q.id ≠ p.id) ∧ r.1 = db ++ [p] := by
  simp only [create, bind_eq_ok, ensure_eq_ok, fetch_eq_ok, pure_eq_ok, exists_const] at h
  obtain ⟨⟨⟩, -, owner, -, -, ⟨⟩, hvalid, ⟨⟩, -, hstorable, columns, hcolumns, hallowed, hfresh, rfl⟩ := h
  exact ⟨⟨m.id, m.publicRef, owner, columns, m.now, m.now⟩,
    ⟨passenger.normalize_idem, (validate_dated hvalid).2, hstorable, hcolumns, hallowed⟩,
    fun q hq => (hfresh q hq).1, rfl⟩

theorem update_step {changes : Value} {r : Profiles × Value} (hdb : Saved k db)
    (h : update k m actor id changes db = .ok r) :
    ∃ p p', lookup Profile.id id db = some p ∧ Framed p p' changes ∧ (∃ e, Written k p'.columns e) ∧
      r.1 = modify Profile.id id (fun _ => p') db := by
  obtain ⟨fields, row, e, v, rfl, -, -, hrow, -, he, hvalid, hstorable, hv, hallowed, rfl⟩ := update_ok.mp h
  obtain ⟨d, hd⟩ := hdb.written row (lookup_mem hrow)
  have hw := update_written hd he hvalid hstorable hv hallowed
  exact ⟨row, _, hrow, update_framed he hw m.now, ⟨_, hw⟩, rfl⟩

theorem saved_perform {request : Request} {r : Profiles × Value} (hdb : Saved k db)
    (h : perform k m db request = .ok r) : Saved k r.1 := by
  cases request with
  | create actor passenger source =>
    obtain ⟨p, hp, hfresh, hr⟩ := create_ok h
    rw [hr]
    refine ⟨keyUnique_concat.mpr ⟨hdb.keys, hfresh⟩, fun q hq => ?_⟩
    rcases List.mem_append.mp hq with hq | hq
    · exact hdb.written q hq
    · rw [List.mem_singleton.mp hq]
      exact ⟨_, hp⟩
  | update actor id changes =>
    obtain ⟨p, p', hp, hframed, hp', hr⟩ := update_step hdb h
    rw [hr]
    refine ⟨KeyUnique.replace (hframed.id.trans (lookup_key hp)) hdb.keys, fun q hq => ?_⟩
    rcases modify_cases hq with ⟨hq, -⟩ | ⟨-, -, -, rfl⟩
    · exact hdb.written q hq
    · exact hp'
  | delete actor id =>
    simp only [perform, delete, bind_eq_ok, ensure_eq_ok, pure_eq_ok, exists_const] at h
    obtain ⟨-, -, ⟨⟩, -, ⟨⟩, -, -, rfl⟩ := h
    refine ⟨hdb.keys.sublist (List.filter_sublist.map Profile.id), fun q hq => ?_⟩
    exact hdb.written q (List.mem_filter.mp hq).1

theorem step_of_ok {request : Request} {r : Profiles × Value} (h : perform k m db request = .ok r) :
    (machine k).step db (m, request) r.1 := by
  show match perform k m db request with
    | .ok result => r.1 = result.1
    | .error _ => r.1 = db
  rw [h]

theorem saved_reachable (h : (machine k).Reachable db) : Saved k db := by
  refine h.invariant ?_ ?_
  · rintro _ rfl
    exact ⟨List.nodup_nil, fun p hp => absurd hp List.not_mem_nil⟩
  · intro db i db' hdb hstep
    change match perform k i.1 db i.2 with
      | .ok result => db' = result.1
      | .error _ => db' = db at hstep
    cases hresult : perform k i.1 db i.2 with
    | ok r =>
      rw [hresult] at hstep
      rw [hstep]
      exact saved_perform hdb hresult
    | error e =>
      rw [hresult] at hstep
      rw [hstep]
      exact hdb

/-- A saved passenger's update sets the fields it names and no other, one that fails changes nothing; a row
shows data that is valid and normalized, is the row of that data, and is left as it is when all that is
shown is submitted. -/
theorem updates_framed (k : Texts) {db : Profiles} (h : (machine k).Reachable db) :
    (∀ m actor id changes db', (machine k).step db (m, .update actor id changes) db' →
      match update k m actor id changes db with
      | .ok _ => ∃ p p', lookup Profile.id id db = some p ∧ Framed p p' changes ∧
          db' = modify Profile.id id (fun _ => p') db
      | .error _ => db' = db) ∧
    (∀ d : PassengerData, d.normalize.normalize = d.normalize) ∧
    (∀ p ∈ db, ∃ d, PassengerData.fromValue (shown p) = some d ∧ k.populate (record d) = some p.columns ∧
      d.normalize = d ∧ ∀ today, d.validate k today false = .ok ()) ∧
    ∀ p ∈ db, ∀ m actor, MayWrite m actor p.ownerUserId →
      update k m actor p.id (shown p) db =
        .ok (modify Profile.id p.id (fun _ => { p with updatedAt := m.now }) db,
          .object [("passenger", portalPassengerJson { p with updatedAt := m.now })]) := by
  have hsaved := saved_reachable h
  refine ⟨?_, PassengerData.normalize_idem, ?_, ?_⟩
  · intro m actor id changes db' hstep
    change match update k m actor id changes db with
      | .ok result => db' = result.1
      | .error _ => db' = db at hstep
    cases hresult : update k m actor id changes db with
    | ok r =>
      rw [hresult] at hstep
      obtain ⟨p, p', hp, hframed, -, hr⟩ := update_step hsaved hresult
      exact ⟨p, p', hp, hframed, hstep.trans hr⟩
    | error e =>
      rw [hresult] at hstep
      exact hstep
  · intro p hp
    obtain ⟨d, hd⟩ := hsaved.written p hp
    refine ⟨d, ?_, hd.columns, hd.normal, hd.valid⟩
    refine PassengerData.fromValue_eq_some.mpr ⟨?_, fun f => ⟨_, get?_shown p f, hd.reads f⟩⟩
    have hknown : ∀ c ∈ ([] : List (String × Value)), c.1 ∈ Field.all.map Field.api :=
      fun c hc => absurd hc List.not_mem_nil
    exact merged_known hknown
  · intro p hp m actor hmay
    obtain ⟨d, hd⟩ := hsaved.written p hp
    exact update_shown hd (hsaved.keys.lookup hp) hmay

def sampleTexts : Texts where
  alphabetic := isAsciiAlpha
  parseDate s := if s = "1990-02-28" then some ⟨1990, 2, 28⟩ else none

def sampleMoment : Moment where
  bridge := true
  count := 1
  draftOwner _ _ := none
  begins := .ok ()
  today := ⟨2026, 9, 29⟩
  now := "2026-09-29T06:00:00+00:00"
  id := 7
  publicRef := "STP260929000001"

def sampleActor : Actor := ⟨"user_a1", .b2b, none⟩

def samplePassenger : PassengerData where
  passengerType := "ADT"
  title := "Ms"
  firstName := " Ayesha "
  lastName := "O'Neil"
  gender := "Female"
  nationality := "bd"
  phoneCountryCode := "880"
  phone := "1712345678"
  email := "A@B.com "
  dateOfBirth := "1990-02-28"
  passportNumber := " a1234567"
  passportExpiry := ""
  issuingCountry := "bd"
  loyaltyAirlineCode := ""
  loyaltyAccountNumber := ""
  ssrRequests := [⟨" wchr", "to the gate "⟩]
  organization := ""

theorem sample_created :
    (create sampleTexts sampleMoment sampleActor samplePassenger none []).map
      (fun result => result.1.map fun p => p.columns.phoneCountryCode) = .ok [some "+880"] := by
  decide +kernel

theorem updates_framed_sample : ∃ db : Profiles,
    db.map (fun p => p.columns.phoneCountryCode) = [some "+880"] ∧
      ∀ p ∈ db, ∀ m actor, MayWrite m actor p.ownerUserId →
        update sampleTexts m actor p.id (shown p) db =
          .ok (modify Profile.id p.id (fun _ => { p with updatedAt := m.now }) db,
            .object [("passenger", portalPassengerJson { p with updatedAt := m.now })]) := by
  obtain ⟨result, hresult, hcodes⟩ := map_eq_ok.mp sample_created
  have hinit : (machine sampleTexts).Reachable [] := Machine.Reachable.of_init rfl
  have hstep : (machine sampleTexts).step []
      (sampleMoment, .create sampleActor samplePassenger none) result.1 := step_of_ok hresult
  exact ⟨result.1, hcodes, (updates_framed sampleTexts (hinit.step hstep)).2.2.2⟩

end ShaponTravels.Passengers
