import Mathlib.Data.String.Basic
import ShaponTravels.Json
import ShaponTravels.Library.Outcome

/-!
# Edits — rewriting the fields that an object has

`Value::get_mut` finds a field that is there; what is assigned to it takes its place.  A rewriting keeps the
keys of an object, what it does not know, and what is null.
-/

namespace ShaponTravels

namespace Value

/-! ## Assigning -/

theorem insertField_cons_self (key : String) (x y : Value) (fields : List (String × Value)) :
    insertField key x ((key, y) :: fields) = (key, x) :: fields := if_pos rfl

theorem insertField_cons_lt {key name : String} (h : key < name) (x v : Value)
    (fields : List (String × Value)) :
    insertField key x ((name, v) :: fields) = (key, x) :: (name, v) :: fields := by
  rw [insertField, if_neg h.ne, if_pos h]

theorem insertField_cons_gt {key name : String} (h : name < key) (x v : Value)
    (fields : List (String × Value)) :
    insertField key x ((name, v) :: fields) = (name, v) :: insertField key x fields := by
  rw [insertField, if_neg h.ne', if_neg h.not_gt]

/-- Fields of different keys can be inserted in either order. -/
theorem insertField_comm {key k : String} (hlt : key < k) (x y : Value) (fields : List (String × Value)) :
    insertField key x (insertField k y fields) = insertField k y (insertField key x fields) := by
  induction fields with
  | nil =>
    show insertField key x [(k, y)] = insertField k y [(key, x)]
    rw [insertField_cons_lt hlt, insertField_cons_gt hlt]
    rfl
  | cons f fields ih =>
    obtain ⟨name, v⟩ := f
    rcases lt_trichotomy key name with hkey | rfl | hkey
    · rw [insertField_cons_lt hkey, insertField_cons_gt hlt]
      rcases lt_trichotomy k name with hk | rfl | hk
      · rw [insertField_cons_lt hk, insertField_cons_lt hlt]
      · rw [insertField_cons_self, insertField_cons_lt hlt]
      · rw [insertField_cons_gt hk, insertField_cons_lt hkey]
    · rw [insertField_cons_gt hlt, insertField_cons_self, insertField_cons_self, insertField_cons_gt hlt]
    · have hk : name < k := hkey.trans hlt
      rw [insertField_cons_gt hk, insertField_cons_gt hkey, insertField_cons_gt hkey,
        insertField_cons_gt hk, ih]

/-- Assigning to different keys of an object, in either order. -/
theorem setField_comm {key k : String} (hne : key ≠ k) (x y : Value) (v : Value) :
    (v.setField k y).setField key x = (v.setField key x).setField k y := by
  have hcomm : ∀ fields, insertField key x (insertField k y fields) =
      insertField k y (insertField key x fields) := by
    intro fields
    rcases lt_or_gt_of_ne hne with hlt | hlt
    · exact insertField_comm hlt x y fields
    · exact (insertField_comm hlt y x fields).symm
  cases v with
  | obj fields => exact congrArg Value.obj (hcomm fields)
  | null => exact congrArg Value.obj (hcomm [])
  | _ => rfl

/-- A field of an object that is built from distinct keys. -/
theorem get?_object_of_mem {fields : List (String × Value)} (hnodup : (fields.map Prod.fst).Nodup)
    {f : String × Value} (hf : f ∈ fields) : (object fields).get? f.1 = some f.2 := by
  have hfind : fields.reverse.find? (fun g => g.1 = f.1) = some f := by
    cases hfound : fields.reverse.find? (fun g => g.1 = f.1) with
    | none =>
      rw [List.find?_eq_none] at hfound
      exact absurd (decide_eq_true rfl) (hfound f (List.mem_reverse.mpr hf))
    | some g =>
      have hkey : g.1 = f.1 := by simpa using List.find?_some hfound
      have hg : g ∈ fields := List.mem_reverse.mp (List.mem_of_find?_eq_some hfound)
      rw [List.inj_on_of_nodup_map hnodup hg hf hkey]
  rw [get?_object, hfind]
  rfl

theorem get?_object_map {α : Type} {as : List α} {key : α → String} (hnodup : (as.map key).Nodup)
    (g : α → Value) {a : α} (ha : a ∈ as) :
    (object (as.map fun a => (key a, g a))).get? (key a) = some (g a) := by
  have hkeys : ((as.map fun a => (key a, g a)).map Prod.fst).Nodup := by
    rw [List.map_map]
    exact hnodup
  exact get?_object_of_mem hkeys (f := (key a, g a)) (List.mem_map.mpr ⟨a, ha, rfl⟩)

/-- Assigning the fields of an object, whose keys are distinct, to another: `Map::extend`. -/
def extend (v : Value) (fields : List (String × Value)) : Value :=
  fields.foldr (fun f v => v.setField f.1 f.2) v

theorem isObject_extend {v : Value} (h : v.isObject) (fields : List (String × Value)) :
    (v.extend fields).isObject := by
  induction fields with
  | nil => exact h
  | cons f fields ih => exact isObject_setField ih

/-- What is assigned takes the place of what was there. -/
theorem get?_extend {v : Value} (h : v.isObject) (fields : List (String × Value)) (key : String) :
    (v.extend fields).get? key = ((obj fields).get? key).or (v.get? key) := by
  induction fields with
  | nil => rfl
  | cons f fields ih =>
    show ((v.extend fields).setField f.1 f.2).get? key = _
    by_cases hkey : key = f.1
    · subst hkey
      rw [get?_setField_self (isObject_extend h fields)]
      simp [get?]
    · have hne : ¬ f.1 = key := fun heq => hkey heq.symm
      rw [get?_setField_ne hkey, ih]
      simp [get?, hne]

theorem mem_extend {v : Value} {fields all : List (String × Value)} {sorted : List (String × Value)}
    (hv : v = .obj all) (h : v.extend fields = .obj sorted) {f : String × Value} (hf : f ∈ sorted) :
    f ∈ fields ∨ f ∈ all := by
  induction fields generalizing sorted f with
  | nil =>
    rw [hv] at h
    cases h
    exact .inr hf
  | cons g fields ih =>
    cases hrest : v.extend fields with
    | obj rest =>
      have hinsert : obj sorted = obj (insertField g.1 g.2 rest) := by
        rw [← h]
        show (v.extend fields).setField g.1 g.2 = _
        rw [hrest]
        rfl
      cases hinsert
      rcases mem_insertField hf with rfl | hf
      · exact .inl List.mem_cons_self
      · exact (ih hrest hf).imp_left (List.mem_cons_of_mem g)
    | _ =>
      have hobject := isObject_extend (v := v) (by rw [hv]; rfl) fields
      rw [hrest] at hobject
      cases hobject

/-! ## Editing -/

/-- The keys of an object. -/
def keys? (v : Value) : Option (List String) := v.asObject?.map fun fields => fields.map Prod.fst

/-- Assigning to a field that is there. -/
def replaceField (v : Value) (key : String) (x : Value) : Value :=
  match v with
  | .obj fields => .obj (fields.map fun f => if f.1 = key then (f.1, x) else f)
  | v => v

/-- Rewriting a field, if it is there. -/
def editField (v : Value) (key : String) (f : Value → Option Value) : Option Value :=
  match v.get? key with
  | some x => (f x).map (v.replaceField key)
  | none => some v

/-- Rewriting fields one after the other. -/
def editFields (v : Value) (edits : List (String × (Value → Option Value))) : Option Value :=
  edits.foldlM (fun v e => v.editField e.1 e.2) v

example : (Value.object [("a", .null), ("b", .bool true)]).editField "b" (fun _ => some .null) =
    some (.object [("a", .null), ("b", .null)]) := by decide

theorem keys?_replaceField (v : Value) (key : String) (x : Value) : (v.replaceField key x).keys? = v.keys? := by
  cases v with
  | obj fields =>
    show some ((fields.map fun f => if f.1 = key then (f.1, x) else f).map Prod.fst) = some (fields.map Prod.fst)
    rw [List.map_map, Option.some.injEq]
    apply List.map_congr_left
    intro f _
    show (if f.1 = key then (f.1, x) else f).1 = f.1
    split
    · rfl
    · rfl
  | _ => rfl

theorem get?_replaceField (v : Value) (key : String) (x : Value) (k : String) :
    (v.replaceField key x).get? k = if k = key then (v.get? k).map fun _ => x else v.get? k := by
  cases v with
  | obj fields =>
    show ((fields.map fun f => if f.1 = key then (f.1, x) else f).find? fun f => f.1 = k).map Prod.snd = _
    rw [get?]
    induction fields with
    | nil => simp
    | cons f fields ih =>
      rw [List.map_cons, List.find?_cons, List.find?_cons]
      by_cases hf : f.1 = key
      · rw [if_pos hf]
        by_cases hk : f.1 = k
        · rw [if_pos (hk.symm.trans hf)]
          simp [hk]
        · simpa [hk] using ih
      · rw [if_neg hf]
        by_cases hk : f.1 = k
        · have hne : k ≠ key := fun heq => hf (hk.trans heq)
          simp [hk, hne]
        · simpa [hk] using ih
  | _ => simp [replaceField, get?]

theorem editField_eq_some {v v' : Value} {key : String} {f : Value → Option Value} :
    v.editField key f = some v' ↔
      (v.get? key = none ∧ v' = v) ∨ ∃ x y, v.get? key = some x ∧ f x = some y ∧ v' = v.replaceField key y := by
  unfold editField
  cases hx : v.get? key with
  | some x =>
    cases hf : f x with
    | some y => simp [hf, eq_comm]
    | none => simp [hf]
  | none => simp [eq_comm]

theorem editFields_append (v : Value) (edits edits' : List (String × (Value → Option Value))) :
    v.editFields (edits ++ edits') = (v.editFields edits).bind fun v => v.editFields edits' :=
  List.foldlM_append

/-- Another field is left as it is. -/
theorem get?_editField {v v' : Value} {key k : String} {f : Value → Option Value}
    (h : v.editField key f = some v') (hk : k ≠ key) : v'.get? k = v.get? k := by
  rcases editField_eq_some.mp h with ⟨-, rfl⟩ | ⟨x, y, -, -, rfl⟩
  · rfl
  · rw [get?_replaceField, if_neg hk]

/-- Edits of different fields succeed when each of them does on the field as it was. -/
theorem editFields_isSome {edits : List (String × (Value → Option Value))} (hnodup : (edits.map Prod.fst).Nodup)
    (v : Value) :
    (v.editFields edits).isSome ↔ ∀ e ∈ edits, ∀ x, v.get? e.1 = some x → (e.2 x).isSome := by
  induction edits generalizing v with
  | nil => exact ⟨fun _ e he => absurd he List.not_mem_nil, fun _ => rfl⟩
  | cons e edits ih =>
    rw [List.map_cons, List.nodup_cons] at hnodup
    rw [editFields, List.foldlM_cons, Option.bind_eq_bind]
    have hhead : (v.editField e.1 e.2).isSome ↔ ∀ x, v.get? e.1 = some x → (e.2 x).isSome := by
      unfold editField
      split
      · rename_i x hx
        simp [hx]
      · rename_i hx
        simp [hx]
    cases hfirst : v.editField e.1 e.2 with
    | none =>
      rw [hfirst] at hhead
      refine iff_of_false (by simp) fun hall => ?_
      exact absurd (hhead.mpr (hall e List.mem_cons_self)) (by simp)
    | some next =>
      rw [hfirst] at hhead
      rw [Option.bind_some, ← editFields, ih hnodup.2, List.forall_mem_cons]
      have hsame : ∀ e' ∈ edits, next.get? e'.1 = v.get? e'.1 := by
        intro e' he'
        apply get?_editField hfirst
        intro heq
        exact hnodup.1 (heq ▸ List.mem_map_of_mem he')
      constructor
      · intro hrest
        exact ⟨hhead.mp rfl, fun e' he' x hx => hrest e' he' x ((hsame e' he').trans hx)⟩
      · intro hall e' he' x hx
        exact hall.2 e' he' x ((hsame e' he').symm.trans hx)

/-- Whether edits of different fields succeed is decided edit by edit. -/
theorem editFields_isSome_congr {edits edits' : List (String × (Value → Option Value))}
    (h : List.Forall₂ (fun e e' => e.1 = e'.1 ∧ ∀ x, (e.2 x).isSome ↔ (e'.2 x).isSome) edits edits')
    (hnodup : (edits.map Prod.fst).Nodup) (v : Value) :
    (v.editFields edits).isSome ↔ (v.editFields edits').isSome := by
  have hkeys : edits.map Prod.fst = edits'.map Prod.fst := by
    clear hnodup
    induction h with
    | nil => rfl
    | cons h _ ih => rw [List.map_cons, List.map_cons, ih, h.1]
  rw [editFields_isSome hnodup, editFields_isSome (hkeys ▸ hnodup)]
  clear hnodup hkeys
  induction h with
  | nil => exact ⟨fun _ _ he => absurd he List.not_mem_nil, fun _ _ he => absurd he List.not_mem_nil⟩
  | cons h _ ih =>
    rw [List.forall_mem_cons, List.forall_mem_cons]
    refine and_congr ?_ ih
    rw [h.1]
    exact forall₂_congr fun x _ => h.2 x

/-! ## Rewritings -/

/-- `v'` is `v` with the known fields rewritten: a field that is there and not null, into one that its
relation allows. -/
structure Rewrites (known : List (String × (Value → Value → Prop))) (v v' : Value) : Prop where
  keys : v'.keys? = v.keys?
  other : ∀ key, key ∉ known.map Prod.fst → v'.get? key = v.get? key
  missing : ∀ key, v.get? key = none → v'.get? key = none
  null : ∀ key, v.get? key = some .null → v'.get? key = some .null
  known : ∀ k ∈ known, ∀ x, v.get? k.1 = some x → x ≠ .null → ∃ x', v'.get? k.1 = some x' ∧ k.2 x x'

/-- An edit keeps null and rewrites anything else as its relation allows. -/
def Allows (e : String × (Value → Option Value)) (k : String × (Value → Value → Prop)) : Prop :=
  e.1 = k.1 ∧ ∀ x x', e.2 x = some x' → (x = .null → x' = .null) ∧ (x ≠ .null → k.2 x x')

theorem Rewrites.refl (v : Value) : Rewrites [] v v :=
  ⟨rfl, fun _ _ => rfl, fun _ h => h, fun _ h => h, fun _ h => absurd h List.not_mem_nil⟩

/-- Edits of different fields rewrite them. -/
theorem editFields_rewrites {edits : List (String × (Value → Option Value))}
    {known : List (String × (Value → Value → Prop))} (hallows : List.Forall₂ Allows edits known)
    (hnodup : (edits.map Prod.fst).Nodup) {v v' : Value} (h : v.editFields edits = some v') :
    Rewrites known v v' := by
  induction hallows generalizing v with
  | nil =>
    cases h
    exact .refl _
  | @cons e k edits known he hrest ih =>
    rw [List.map_cons, List.nodup_cons] at hnodup
    rw [editFields, List.foldlM_cons, Option.bind_eq_bind, Option.bind_eq_some_iff] at h
    obtain ⟨next, hfirst, hlater⟩ := h
    have hr := ih hnodup.2 hlater
    have hkeys : known.map Prod.fst = edits.map Prod.fst := by
      clear ih hr hlater hnodup
      induction hrest with
      | nil => rfl
      | cons h _ ih => rw [List.map_cons, List.map_cons, ih, h.1]
    have hlast : v'.get? e.1 = next.get? e.1 := hr.other e.1 (by rw [hkeys]; exact hnodup.1)
    obtain ⟨hkey, hallow⟩ := he
    have hheadKeys : next.keys? = v.keys? := by
      rcases editField_eq_some.mp hfirst with ⟨-, rfl⟩ | ⟨x, y, -, -, rfl⟩
      · rfl
      · exact keys?_replaceField _ e.1 y
    have hheadGet : ∀ key, key = e.1 → (v.get? key = none ∧ next.get? key = none) ∨
        ∃ x x', v.get? key = some x ∧ next.get? key = some x' ∧ (x = .null → x' = .null) ∧ (x ≠ .null → k.2 x x') := by
      rintro _ rfl
      rcases editField_eq_some.mp hfirst with ⟨hnone, rfl⟩ | ⟨x, y, hx, hy, rfl⟩
      · exact .inl ⟨hnone, hnone⟩
      · exact .inr ⟨x, y, hx, by rw [get?_replaceField, if_pos rfl, hx]; rfl, hallow x y hy⟩
    refine ⟨hr.keys.trans hheadKeys, ?_, ?_, ?_, ?_⟩
    · intro key hkeyNot
      rw [List.map_cons, List.mem_cons, not_or, ← hkey] at hkeyNot
      rw [hr.other key hkeyNot.2, get?_editField hfirst hkeyNot.1]
    · intro key hnone
      apply hr.missing
      by_cases hk : key = e.1
      · rcases hheadGet key hk with ⟨-, hnext⟩ | ⟨x, x', hx, -⟩
        · exact hnext
        · rw [hnone] at hx
          cases hx
      · rw [get?_editField hfirst hk, hnone]
    · intro key hnull
      apply hr.null
      by_cases hk : key = e.1
      · rcases hheadGet key hk with ⟨hnone, -⟩ | ⟨x, x', hx, hx', hkept, -⟩
        · rw [hnull] at hnone
          cases hnone
        · rw [hnull] at hx
          rw [hx', hkept (Option.some.inj hx).symm]
      · rw [get?_editField hfirst hk, hnull]
    · intro k' hk' x hx hne
      rcases List.mem_cons.mp hk' with rfl | hk'
      · rw [← hkey] at hx ⊢
        rcases hheadGet e.1 rfl with ⟨hnone, -⟩ | ⟨x₀, x', hx₀, hx', -, hmeets⟩
        · rw [hx] at hnone
          cases hnone
        · obtain rfl : x = x₀ := Option.some.inj (hx.symm.trans hx₀)
          exact ⟨x', hlast.trans hx', hmeets hne⟩
      · refine hr.known k' hk' x ?_ hne
        rw [get?_editField hfirst, hx]
        intro heq
        exact hnodup.1 (by rw [← hkeys, ← heq]; exact List.mem_map_of_mem hk')

/-- Two rewritings of one object agree on a field where their relations do. -/
theorem Rewrites.agree {known known' : List (String × (Value → Value → Prop))} {v v' v'' : Value} {β : Type}
    (h : Rewrites known v v') (h' : Rewrites known' v v'') {key : String} {P P' : Value → Value → Prop}
    (hk : (key, P) ∈ known) (hk' : (key, P') ∈ known') {f : Value → β}
    (hagree : ∀ x x' x'', P x x' → P' x x'' → f x' = f x'') : (v'.get? key).map f = (v''.get? key).map f := by
  cases hx : v.get? key with
  | none => rw [h.missing key hx, h'.missing key hx]
  | some x =>
    by_cases hnull : x = .null
    · rw [hnull] at hx
      rw [h.null key hx, h'.null key hx]
    · obtain ⟨x', hx', hp⟩ := h.known _ hk x hx hnull
      obtain ⟨x'', hx'', hp'⟩ := h'.known _ hk' x hx hnull
      rw [hx', hx'', Option.map_some, Option.map_some, hagree x x' x'' hp hp']

end Value

end ShaponTravels
