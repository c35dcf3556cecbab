import Mathlib.Data.Set.Function
import ShaponTravels.Booking.References

/-!
# Binding — the walk that draws public references

`search::bind_references` with the map it extends.  A text under a reference key is published as what
the map has for it, or else as an identifier that is drawn and remembered.  The walk is a renaming by
the map it ends with.
-/

namespace ShaponTravels.Booking

/-- The map of a walk and the number of identifiers it has drawn. -/
structure Binding where
  map : List (String × Value)
  drawn : Nat

/-- What the map has for a text. -/
def Binding.get? (s : Binding) (text : String) : Option Value := (Value.obj s.map).get? text

/-- `map.entry(text).or_insert_with(…)`. -/
def Binding.entry (draw : Nat → Uuid) (s : Binding) (text : String) : Value × Binding :=
  match s.get? text with
  | some v => (v, s)
  | none =>
    let v := Value.str (draw s.drawn).text
    (v, ⟨Value.insertField text v s.map, s.drawn + 1⟩)

/-- The text that is replaced in a field: a string that is not empty, under a key that holds a
reference. -/
def referenceText (key : String) (v : Value) : Option String :=
  if isReference key then nonEmptyText v else none

mutual

/-- `search::bind_references`; `draw` is the sequence of the identifiers. -/
def bindInto (draw : Nat → Uuid) : Value → Binding → Value × Binding
  | .obj fields, s =>
    let bound := bindFieldsInto draw fields s
    (.obj bound.1, bound.2)
  | .arr values, s =>
    let bound := bindValuesInto draw values s
    (.arr bound.1, bound.2)
  | v, s => (v, s)

def bindValuesInto (draw : Nat → Uuid) : List Value → Binding → List Value × Binding
  | [], s => ([], s)
  | v :: values, s =>
    let bound := bindInto draw v s
    let others := bindValuesInto draw values bound.2
    (bound.1 :: others.1, others.2)

def bindFieldsInto (draw : Nat → Uuid) :
    List (String × Value) → Binding → List (String × Value) × Binding
  | [], s => ([], s)
  | (key, v) :: fields, s =>
    let bound := match referenceText key v with
      | some text => s.entry draw text
      | none => bindInto draw v s
    let others := bindFieldsInto draw fields bound.2
    ((key, bound.1) :: others.1, others.2)

end

/-! ## Renaming -/

mutual

/-- A value with every replaced text under its new name. -/
def renameReferences (name : String → Value) : Value → Value
  | .obj fields => .obj (renameFields name fields)
  | .arr values => .arr (renameValues name values)
  | v => v

def renameValues (name : String → Value) : List Value → List Value
  | [] => []
  | v :: values => renameReferences name v :: renameValues name values

def renameFields (name : String → Value) : List (String × Value) → List (String × Value)
  | [] => []
  | (key, v) :: fields =>
    (key, match referenceText key v with
      | some text => name text
      | none => renameReferences name v) :: renameFields name fields

end

mutual

/-- The texts that are replaced. -/
def referenceTexts : Value → List String
  | .obj fields => referenceTextsFields fields
  | .arr values => referenceTextsValues values
  | _ => []

def referenceTextsValues : List Value → List String
  | [] => []
  | v :: values => referenceTexts v ++ referenceTextsValues values

def referenceTextsFields : List (String × Value) → List String
  | [] => []
  | (key, v) :: fields =>
    (match referenceText key v with
      | some text => [text]
      | none => referenceTexts v) ++ referenceTextsFields fields

end

theorem referenceText_eq_some {key text : String} {v : Value} :
    referenceText key v = some text ↔ isReference key = true ∧ v = .str text ∧ text ≠ "" := by
  rw [referenceText, Option.ite_none_right_eq_some, nonEmptyText, Option.filter_eq_some_iff,
    Value.asStr?_eq_some, decide_eq_true_eq]

/-! ## The map grows -/

/-- A later map keeps what an earlier one has. -/
def Binding.Extends (t s : Binding) : Prop := ∀ text v, s.get? text = some v → t.get? text = some v

namespace Binding

variable {draw : Nat → Uuid} {s t u : Binding} {text : String}

theorem Extends.refl (s : Binding) : s.Extends s := fun _ _ h => h

theorem Extends.trans (htu : u.Extends t) (hst : t.Extends s) : u.Extends s :=
  fun text v h => htu text v (hst text v h)

theorem get?_insert (s : Binding) (text k : String) (v : Value) (n : Nat) :
    (⟨Value.insertField text v s.map, n⟩ : Binding).get? k = if text = k then some v else s.get? k := by
  rw [get?, get?, Value.get?, Value.get?]
  dsimp only
  rw [Value.find?_insertField]
  split <;> rfl

theorem entry_of_some {v : Value} (h : s.get? text = some v) : s.entry draw text = (v, s) := by
  rw [entry, h]

theorem entry_of_none (h : s.get? text = none) : s.entry draw text =
    (.str (draw s.drawn).text,
      ⟨Value.insertField text (.str (draw s.drawn).text) s.map, s.drawn + 1⟩) := by
  rw [entry, h]

theorem entry_extends (draw : Nat → Uuid) (s : Binding) (text : String) :
    (s.entry draw text).2.Extends s := by
  cases h : s.get? text with
  | some v =>
    rw [entry_of_some h]
    exact .refl s
  | none =>
    rw [entry_of_none h]
    intro k v hk
    have hne : ¬ text = k := fun heq => by rw [heq, hk] at h; cases h
    rw [get?_insert, if_neg hne]
    exact hk

theorem drawn_le_entry (draw : Nat → Uuid) (s : Binding) (text : String) :
    s.drawn ≤ (s.entry draw text).2.drawn := by
  cases h : s.get? text with
  | some v => rw [entry_of_some h]
  | none =>
    rw [entry_of_none h]
    exact Nat.le_succ _

theorem entry_added {k : String} {v : Value} (h : (s.entry draw text).2.get? k = some v) :
    s.get? k = some v ∨ ∃ u : Uuid, v = .str u.text := by
  cases hs : s.get? text with
  | some x =>
    rw [entry_of_some hs] at h
    exact .inl h
  | none =>
    rw [entry_of_none hs, get?_insert] at h
    split at h
    · cases h
      exact .inr ⟨_, rfl⟩
    · exact .inl h

/-- The map has what was published. -/
theorem get?_entry (draw : Nat → Uuid) (s : Binding) (text : String) :
    (s.entry draw text).2.get? text = some (s.entry draw text).1 := by
  cases h : s.get? text with
  | some v =>
    rw [entry_of_some h]
    exact h
  | none =>
    rw [entry_of_none h]
    exact (get?_insert ..).trans (if_pos rfl)

/-- The name a map gives a text. -/
def name (s : Binding) (text : String) : Value := (s.get? text).getD .null

theorem name_of_extends {v : Value} (hext : t.Extends s) (h : s.get? text = some v) :
    t.name text = v := by
  rw [name, hext text v h, Option.getD_some]

end Binding

/-! ## The walk is a renaming -/

section Fields

variable {draw : Nat → Uuid} {key text : String} {v : Value} {fields : List (String × Value)}
  {s : Binding}

theorem bindFieldsInto_of_some (h : referenceText key v = some text) :
    bindFieldsInto draw ((key, v) :: fields) s =
      ((key, (s.entry draw text).1) :: (bindFieldsInto draw fields (s.entry draw text).2).1,
        (bindFieldsInto draw fields (s.entry draw text).2).2) := by
  rw [bindFieldsInto, h]

theorem bindFieldsInto_of_none (h : referenceText key v = none) :
    bindFieldsInto draw ((key, v) :: fields) s =
      ((key, (bindInto draw v s).1) :: (bindFieldsInto draw fields (bindInto draw v s).2).1,
        (bindFieldsInto draw fields (bindInto draw v s).2).2) := by
  rw [bindFieldsInto, h]

theorem renameFields_of_some {name : String → Value} (h : referenceText key v = some text) :
    renameFields name ((key, v) :: fields) = (key, name text) :: renameFields name fields := by
  rw [renameFields, h]

theorem renameFields_of_none {name : String → Value} (h : referenceText key v = none) :
    renameFields name ((key, v) :: fields) =
      (key, renameReferences name v) :: renameFields name fields := by
  rw [renameFields, h]

theorem referenceTextsFields_of_some (h : referenceText key v = some text) :
    referenceTextsFields ((key, v) :: fields) = text :: referenceTextsFields fields := by
  rw [referenceTextsFields, h]
  rfl

theorem referenceTextsFields_of_none (h : referenceText key v = none) :
    referenceTextsFields ((key, v) :: fields) =
      referenceTexts v ++ referenceTextsFields fields := by
  rw [referenceTextsFields, h]

end Fields

/-- What a walk has done: its map adds identifiers to the one it began with and has every text that was
replaced, and any later map renames the value to what was published. -/
structure Walked {α : Type} (texts : List String) (rename : (String → Value) → α) (published : α)
    (s t : Binding) : Prop where
  keeps : t.Extends s
  drawn : s.drawn ≤ t.drawn
  added : ∀ text v, t.get? text = some v → s.get? text = some v ∨ ∃ u : Uuid, v = .str u.text
  known : ∀ text ∈ texts, (t.get? text).isSome = true
  renamed : ∀ later : Binding, later.Extends t → rename later.name = published

mutual

theorem bindInto_walked (draw : Nat → Uuid) : ∀ (v : Value) (s : Binding),
    Walked (referenceTexts v) (renameReferences · v) (bindInto draw v s).1 s (bindInto draw v s).2
  | .null, s | .bool _, s | .num _, s | .str _, s =>
    ⟨.refl s, Nat.le_refl _, fun _ _ h => .inl h, fun _ h => absurd h List.not_mem_nil, fun _ _ => rfl⟩
  | .arr values, s =>
    have h := bindValuesInto_walked draw values s
    ⟨h.keeps, h.drawn, h.added, h.known, fun later hlater => congrArg Value.arr (h.renamed later hlater)⟩
  | .obj fields, s =>
    have h := bindFieldsInto_walked draw fields s
    ⟨h.keeps, h.drawn, h.added, h.known, fun later hlater => congrArg Value.obj (h.renamed later hlater)⟩

theorem bindValuesInto_walked (draw : Nat → Uuid) : ∀ (values : List Value) (s : Binding),
    Walked (referenceTextsValues values) (renameValues · values) (bindValuesInto draw values s).1 s
      (bindValuesInto draw values s).2
  | [], s => ⟨.refl s, Nat.le_refl _, fun _ _ h => .inl h, fun _ h => absurd h List.not_mem_nil, fun _ _ => rfl⟩
  | v :: values, s => by
    have hfirst := bindInto_walked draw v s
    have hrest := bindValuesInto_walked draw values (bindInto draw v s).2
    constructor
    case keeps => exact hrest.keeps.trans hfirst.keeps
    case drawn => exact hfirst.drawn.trans hrest.drawn
    case added =>
      intro text x h
      exact (hrest.added text x h).elim (hfirst.added text x) .inr
    case known =>
      rw [referenceTextsValues, List.forall_mem_append]
      refine ⟨?_, hrest.known⟩
      intro text htext
      obtain ⟨x, hx⟩ := Option.isSome_iff_exists.mp (hfirst.known text htext)
      exact Option.isSome_iff_exists.mpr ⟨x, hrest.keeps text x hx⟩
    case renamed =>
      intro later hlater
      show renameReferences later.name v :: renameValues later.name values = _
      rw [hfirst.renamed later (hlater.trans hrest.keeps), hrest.renamed later hlater]
      rfl

theorem bindFieldsInto_walked (draw : Nat → Uuid) : ∀ (fields : List (String × Value)) (s : Binding),
    Walked (referenceTextsFields fields) (renameFields · fields) (bindFieldsInto draw fields s).1 s
      (bindFieldsInto draw fields s).2
  | [], s => ⟨.refl s, Nat.le_refl _, fun _ _ h => .inl h, fun _ h => absurd h List.not_mem_nil, fun _ _ => rfl⟩
  | (key, v) :: fields, s => by
    cases htext : referenceText key v with
    | some text =>
      have hrest := bindFieldsInto_walked draw fields (s.entry draw text).2
      rw [bindFieldsInto_of_some htext, referenceTextsFields_of_some htext]
      constructor
      case keeps => exact hrest.keeps.trans (Binding.entry_extends draw s text)
      case drawn => exact (Binding.drawn_le_entry draw s text).trans hrest.drawn
      case added =>
        intro k x h
        exact (hrest.added k x h).elim Binding.entry_added .inr
      case known =>
        rw [List.forall_mem_cons]
        refine ⟨?_, hrest.known⟩
        exact Option.isSome_iff_exists.mpr
          ⟨_, hrest.keeps text _ (Binding.get?_entry draw s text)⟩
      case renamed =>
        intro later hlater
        rw [renameFields_of_some htext, hrest.renamed later hlater, Binding.name_of_extends
          (hlater.trans hrest.keeps) (Binding.get?_entry draw s text)]
    | none =>
      have hfirst := bindInto_walked draw v s
      have hrest := bindFieldsInto_walked draw fields (bindInto draw v s).2
      rw [bindFieldsInto_of_none htext, referenceTextsFields_of_none htext]
      constructor
      case keeps => exact hrest.keeps.trans hfirst.keeps
      case drawn => exact hfirst.drawn.trans hrest.drawn
      case added =>
        intro k x h
        exact (hrest.added k x h).elim (hfirst.added k x) .inr
      case known =>
        rw [List.forall_mem_append]
        refine ⟨?_, hrest.known⟩
        intro text htext
        obtain ⟨x, hx⟩ := Option.isSome_iff_exists.mp (hfirst.known text htext)
        exact Option.isSome_iff_exists.mpr ⟨x, hrest.keeps text x hx⟩
      case renamed =>
        intro later hlater
        rw [renameFields_of_none htext, hrest.renamed later hlater,
          hfirst.renamed later (hlater.trans hrest.keeps)]

end

/-! ## Distinct references -/

/-- Every name is an identifier, different texts have different ones, and none is drawn again before
the limit. -/
structure Binding.Distinct (draw : Nat → Uuid) (limit : Nat) (s : Binding) : Prop where
  identifier : ∀ text v, s.get? text = some v → ∃ u : Uuid, v = .str u.text ∧
    ∀ n, s.drawn ≤ n → n < limit → draw n ≠ u
  injective : ∀ a b v, s.get? a = some v → s.get? b = some v → a = b

section Distinct

variable {draw : Nat → Uuid} {limit : Nat} {s : Binding}

theorem entry_distinct (hdraw : Set.InjOn draw (Set.Iio limit)) (hs : s.Distinct draw limit)
    (text : String) (hlimit : (s.entry draw text).2.drawn ≤ limit) :
    (s.entry draw text).2.Distinct draw limit := by
  cases h : s.get? text with
  | some v =>
    rw [Binding.entry_of_some h]
    exact hs
  | none =>
    rw [Binding.entry_of_none h] at hlimit ⊢
    have hroom : s.drawn < limit := hlimit
    -- No text has the new identifier yet.
    have hnew : ∀ k, s.get? k ≠ some (.str (draw s.drawn).text) := by
      intro k hk
      obtain ⟨u, hu, hundrawn⟩ := hs.identifier k _ hk
      exact hundrawn s.drawn (Nat.le_refl _) hroom (Uuid.text_inj (Value.str.inj hu))
    constructor
    case identifier =>
      intro k v hk
      rw [Binding.get?_insert] at hk
      split at hk
      · cases hk
        refine ⟨draw s.drawn, rfl, ?_⟩
        intro n hn hbelow heq
        have hsame : n = s.drawn := hdraw hbelow hroom heq
        have hlater : s.drawn + 1 ≤ n := hn
        omega
      · obtain ⟨u, hu, hundrawn⟩ := hs.identifier k v hk
        exact ⟨u, hu, fun n hn => hundrawn n (Nat.le_of_succ_le hn)⟩
    case injective =>
      intro a b v ha hb
      rw [Binding.get?_insert] at ha hb
      split at ha
      · rename_i hta
        cases ha
        split at hb
        · rename_i htb
          exact hta.symm.trans htb
        · exact absurd hb (hnew b)
      · split at hb
        · cases hb
          exact absurd ha (hnew a)
        · exact hs.injective a b v ha hb

mutual

theorem bindInto_distinct (hdraw : Set.InjOn draw (Set.Iio limit)) : ∀ (v : Value) {s : Binding},
    s.Distinct draw limit → (bindInto draw v s).2.drawn ≤ limit →
      (bindInto draw v s).2.Distinct draw limit
  | .null, _, hs, _ | .bool _, _, hs, _ | .num _, _, hs, _ | .str _, _, hs, _ => hs
  | .arr values, _, hs, hlimit => bindValuesInto_distinct hdraw values hs hlimit
  | .obj fields, _, hs, hlimit => bindFieldsInto_distinct hdraw fields hs hlimit

theorem bindValuesInto_distinct (hdraw : Set.InjOn draw (Set.Iio limit)) :
    ∀ (values : List Value) {s : Binding}, s.Distinct draw limit →
      (bindValuesInto draw values s).2.drawn ≤ limit →
      (bindValuesInto draw values s).2.Distinct draw limit
  | [], _, hs, _ => hs
  | v :: values, s, hs, hlimit => by
    have hrest := (bindValuesInto_walked draw values (bindInto draw v s).2).drawn
    exact bindValuesInto_distinct hdraw values
      (bindInto_distinct hdraw v hs (hrest.trans hlimit)) hlimit

theorem bindFieldsInto_distinct (hdraw : Set.InjOn draw (Set.Iio limit)) :
    ∀ (fields : List (String × Value)) {s : Binding}, s.Distinct draw limit →
      (bindFieldsInto draw fields s).2.drawn ≤ limit →
      (bindFieldsInto draw fields s).2.Distinct draw limit
  | [], _, hs, _ => hs
  | (key, v) :: fields, s, hs, hlimit => by
    cases htext : referenceText key v with
    | some text =>
      rw [bindFieldsInto_of_some htext] at hlimit ⊢
      have hrest := (bindFieldsInto_walked draw fields (s.entry draw text).2).drawn
      exact bindFieldsInto_distinct hdraw fields
        (entry_distinct hdraw hs text (hrest.trans hlimit)) hlimit
    | none =>
      rw [bindFieldsInto_of_none htext] at hlimit ⊢
      have hrest := (bindFieldsInto_walked draw fields (bindInto draw v s).2).drawn
      exact bindFieldsInto_distinct hdraw fields
        (bindInto_distinct hdraw v hs (hrest.trans hlimit)) hlimit

end

end Distinct

/-! ## The stateless form -/

mutual

theorem bindReferences_eq (fresh : String → Uuid) (map : Value) : ∀ v : Value,
    bindReferences fresh map v =
      renameReferences (fun text => (map.get? text).getD (.str (fresh text).text)) v
  | .null | .bool _ | .num _ | .str _ => rfl
  | .arr values => congrArg Value.arr (bindReferenceValues_eq fresh map values)
  | .obj fields => congrArg Value.obj (bindReferenceFields_eq fresh map fields)

theorem bindReferenceValues_eq (fresh : String → Uuid) (map : Value) : ∀ values : List Value,
    bindReferenceValues fresh map values =
      renameValues (fun text => (map.get? text).getD (.str (fresh text).text)) values
  | [] => rfl
  | v :: values => by
    rw [bindReferenceValues, renameValues, bindReferences_eq fresh map v,
      bindReferenceValues_eq fresh map values]

theorem bindReferenceFields_eq (fresh : String → Uuid) (map : Value) :
    ∀ fields : List (String × Value), bindReferenceFields fresh map fields =
      renameFields (fun text => (map.get? text).getD (.str (fresh text).text)) fields
  | [] => rfl
  | (key, v) :: fields => by
    rw [bindReferenceFields_eq_map, List.map_cons, ← bindReferenceFields_eq_map,
      bindReferenceFields_eq fresh map fields]
    cases htext : referenceText key v with
    | some text =>
      rw [renameFields_of_some htext]
      obtain ⟨hkey, rfl, hne⟩ := referenceText_eq_some.mp htext
      rw [boundReference, if_pos (by simp [hkey, hne])]
    | none =>
      rw [renameFields_of_none htext, ← bindReferences_eq fresh map v]
      cases v with
      | str text =>
        have hnot : ¬ (isReference key && text ≠ "") = true := by
          intro hboth
          rw [Bool.and_eq_true, decide_eq_true_eq] at hboth
          rw [referenceText_eq_some.mpr ⟨hboth.1, rfl, hboth.2⟩] at htext
          cases htext
        rw [boundReference, if_neg hnot]
        rfl
      | _ => rfl

end

mutual

/-- Only the names of the texts that are replaced count. -/
theorem renameReferences_congr {f g : String → Value} : ∀ v : Value,
    (∀ text ∈ referenceTexts v, f text = g text) → renameReferences f v = renameReferences g v
  | .null, _ | .bool _, _ | .num _, _ | .str _, _ => rfl
  | .arr values, h => congrArg Value.arr (renameValues_congr values h)
  | .obj fields, h => congrArg Value.obj (renameFields_congr fields h)

theorem renameValues_congr {f g : String → Value} : ∀ values : List Value,
    (∀ text ∈ referenceTextsValues values, f text = g text) → renameValues f values = renameValues g values
  | [], _ => rfl
  | v :: values, h => by
    rw [referenceTextsValues, List.forall_mem_append] at h
    rw [renameValues, renameValues, renameReferences_congr v h.1, renameValues_congr values h.2]

theorem renameFields_congr {f g : String → Value} : ∀ fields : List (String × Value),
    (∀ text ∈ referenceTextsFields fields, f text = g text) → renameFields f fields = renameFields g fields
  | [], _ => rfl
  | (key, v) :: fields, h => by
    cases htext : referenceText key v with
    | some text =>
      rw [referenceTextsFields_of_some htext, List.forall_mem_cons] at h
      rw [renameFields_of_some htext, renameFields_of_some htext, h.1, renameFields_congr fields h.2]
    | none =>
      rw [referenceTextsFields_of_none htext, List.forall_mem_append] at h
      rw [renameFields_of_none htext, renameFields_of_none htext, renameReferences_congr v h.1,
        renameFields_congr fields h.2]

end

/-- The two embeddings of `bind_references` agree: what a walk publishes is what `bindReferences` gives, which
the responses and the quotes are modelled with, for the identifiers the walk draws. -/
theorem bindInto_stateless (draw : Nat → Uuid) (v : Value) (s : Binding) :
    ∃ fresh, (bindInto draw v s).1 = bindReferences fresh (.obj s.map) v := by
  have hwalk := bindInto_walked draw v s
  have hidentifier : ∀ text, ∃ u : Uuid, text ∈ referenceTexts v → s.get? text = none →
      (bindInto draw v s).2.name text = .str u.text := by
    intro text
    by_cases hmem : text ∈ referenceTexts v
    · obtain ⟨x, hx⟩ := Option.isSome_iff_exists.mp (hwalk.known text hmem)
      rcases hwalk.added text x hx with hold | ⟨u, rfl⟩
      · exact ⟨0, fun _ hnone => by rw [hold] at hnone; cases hnone⟩
      · exact ⟨u, fun _ _ => Binding.name_of_extends (.refl _) hx⟩
    · exact ⟨0, fun h => absurd h hmem⟩
  choose fresh hfresh using hidentifier
  refine ⟨fresh, ?_⟩
  rw [← hwalk.renamed _ (.refl _), bindReferences_eq]
  apply renameReferences_congr
  intro text hmem
  show _ = (s.get? text).getD _
  cases hs : s.get? text with
  | some x => exact Binding.name_of_extends hwalk.keeps hs
  | none => exact hfresh text hmem hs

/-! ## Fields of a renamed value -/

section Renamed

variable {name : String → Value} {v x : Value} {key text : String}

/-- What a field is renamed to. -/
def renamedField (name : String → Value) (key : String) (v : Value) : Value :=
  match referenceText key v with
  | some text => name text
  | none => renameReferences name v

theorem renameFields_eq_map (name : String → Value) (fields : List (String × Value)) :
    renameFields name fields = fields.map fun f => (f.1, renamedField name f.1 f.2) := by
  induction fields with
  | nil => rfl
  | cons f fields ih => rw [renameFields, ih, List.map_cons, renamedField]

theorem renameValues_eq_map (name : String → Value) (values : List Value) :
    renameValues name values = values.map (renameReferences name) := by
  induction values with
  | nil => rfl
  | cons v values ih => rw [renameValues, ih, List.map_cons]

theorem get?_renameReferences (name : String → Value) (v : Value) (key : String) :
    (renameReferences name v).get? key = (v.get? key).map (renamedField name key) := by
  cases v with
  | obj fields =>
    rw [renameReferences, renameFields_eq_map]
    exact find?_map_value _ fields key
  | _ => rfl

theorem field_renameReferences (h : isReference key = false) (name : String → Value) (v : Value) :
    (renameReferences name v).field key = renameReferences name (v.field key) := by
  rw [Value.field, Value.field, get?_renameReferences]
  cases v.get? key with
  | none => rfl
  | some x =>
    show renamedField name key x = renameReferences name x
    rw [renamedField, referenceText, h]
    rfl

theorem mem_referenceTextsFields {fields : List (String × Value)} {f : String × Value} (hf : f ∈ fields)
    (h : text ∈ referenceTextsFields [f]) : text ∈ referenceTextsFields fields := by
  induction fields with
  | nil => cases hf
  | cons g fields ih =>
    obtain ⟨key, v⟩ := g
    rcases List.mem_cons.mp hf with rfl | hf
    · rw [referenceTextsFields] at h ⊢
      rw [referenceTextsFields, List.append_nil] at h
      exact List.mem_append_left _ h
    · rw [referenceTextsFields]
      exact List.mem_append_right _ (ih hf)

/-- The texts of a field are texts of the value. -/
theorem mem_referenceTexts_of_get? (hget : v.get? key = some x)
    (h : text ∈ referenceTextsFields [(key, x)]) : text ∈ referenceTexts v := by
  cases v with
  | obj fields =>
    obtain ⟨f, hf, rfl⟩ := Option.map_eq_some_iff.mp hget
    have hkey : f.1 = key := by simpa using List.find?_some hf
    subst hkey
    exact mem_referenceTextsFields (List.mem_of_find?_eq_some hf) h
  | _ => cases hget

theorem mem_referenceTextsValues {values : List Value} (hv : v ∈ values)
    (h : text ∈ referenceTexts v) : text ∈ referenceTextsValues values := by
  induction values with
  | nil => cases hv
  | cons w values ih =>
    rw [referenceTextsValues]
    rcases List.mem_cons.mp hv with rfl | hv
    · exact List.mem_append_left _ h
    · exact List.mem_append_right _ (ih hv)

/-- A list under a key that holds no reference is part of the value. -/
theorem mem_referenceTexts_of_field {values : List Value} (hkey : isReference key = false)
    (hfield : v.field key = .arr values) (h : text ∈ referenceTextsValues values) :
    text ∈ referenceTexts v := by
  cases hget : v.get? key with
  | none =>
    rw [Value.field, hget] at hfield
    cases hfield
  | some x =>
    rw [Value.field_of_get? hget] at hfield
    subst hfield
    apply mem_referenceTexts_of_get? hget
    rw [referenceTextsFields_of_none (by rw [referenceText, hkey]; rfl)]
    exact List.mem_append_left _ h

end Renamed

/-- A reference map: what it has for a text is an identifier. -/
def Binding.Identifiers (s : Binding) : Prop :=
  ∀ text v, s.get? text = some v → ∃ u : Uuid, v = .str u.text

/-- The identifiers of a walk are fresh: none of those it draws is drawn twice or was there before. -/
structure FreshDraws (draw : Nat → Uuid) (v : Value) (s : Binding) : Prop where
  draws : Set.InjOn draw (Set.Iio (bindInto draw v s).2.drawn)
  known : s.Distinct draw (bindInto draw v s).2.drawn

/-- What is published is the value with its texts renamed to the identifiers of the map. -/
theorem bindInto_published {draw : Nat → Uuid} {v : Value} {s : Binding} (hs : s.Identifiers) :
    ∃ published : String → Uuid,
      (bindInto draw v s).1 = renameReferences (fun text => .str (published text).text) v ∧
      ∀ text ∈ referenceTexts v,
        (bindInto draw v s).2.get? text = some (.str (published text).text) := by
  have hwalk := bindInto_walked draw v s
  have hnamed : ∀ text, ∃ u : Uuid, text ∈ referenceTexts v →
      (bindInto draw v s).2.get? text = some (.str u.text) := by
    intro text
    by_cases hmem : text ∈ referenceTexts v
    · obtain ⟨x, hx⟩ := Option.isSome_iff_exists.mp (hwalk.known text hmem)
      obtain ⟨u, rfl⟩ := (hwalk.added text x hx).elim (hs text x) fun h => h
      exact ⟨u, fun _ => hx⟩
    · exact ⟨0, fun h => absurd h hmem⟩
  choose published hpublished using hnamed
  refine ⟨published, ?_, hpublished⟩
  rw [← hwalk.renamed _ (.refl _)]
  apply renameReferences_congr
  intro text hmem
  exact Binding.name_of_extends (.refl _) (hpublished text hmem)

/-- With fresh identifiers the renaming is one to one. -/
theorem bindInto_renames {draw : Nat → Uuid} {v : Value} {s : Binding} (hfresh : FreshDraws draw v s) :
    ∃ published : String → Uuid, Set.InjOn published {text | text ∈ referenceTexts v} ∧
      (bindInto draw v s).1 = renameReferences (fun text => .str (published text).text) v ∧
      ∀ text ∈ referenceTexts v,
        (bindInto draw v s).2.get? text = some (.str (published text).text) := by
  have hdistinct := bindInto_distinct hfresh.draws v hfresh.known (Nat.le_refl _)
  have hidentifiers : s.Identifiers := fun text x hx =>
    have ⟨u, hu, _⟩ := hfresh.known.identifier text x hx
    ⟨u, hu⟩
  obtain ⟨published, hrenamed, hpublished⟩ := bindInto_published hidentifiers
  refine ⟨published, ?_, hrenamed, hpublished⟩
  intro a ha b hb hab
  have hfound := hpublished b hb
  rw [← hab] at hfound
  exact hdistinct.injective a b _ (hpublished a ha) hfound

theorem text_ne_empty (u : Uuid) : u.text ≠ "" := by
  intro h
  have hlist := congrArg String.toList h
  rw [Uuid.text, String.toList_ofList] at hlist
  have hlength := congrArg List.length hlist
  simp at hlength

/-- Identifiers one after the other. -/
def sampleDraw (n : Nat) : Uuid := BitVec.ofNat 128 (n + 1)

end ShaponTravels.Booking
