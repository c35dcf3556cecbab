import Mathlib.Data.List.Nodup
import Mathlib.Tactic.Common
import ShaponTravels.Text

/-!
# Json — the `serde_json` value

Numbers keep the text they were written with, so two numbers are equal when their texts are.
An object is the list of its fields in key order, each key once: `Value.insert` keeps it so.
-/

namespace ShaponTravels

/-- `serde_json::Value`. -/
inductive Value where
  | null
  | bool (b : Bool)
  | num (lexeme : String)
  | str (s : String)
  | arr (values : List Value)
  | obj (fields : List (String × Value))
  deriving Inhabited

namespace Value

/-! ## Equality -/

mutual

def decEq : (a b : Value) → Decidable (a = b)
  | .null, .null => .isTrue rfl
  | .bool a, .bool b => decidable_of_iff (a = b) (by simp)
  | .num a, .num b => decidable_of_iff (a = b) (by simp)
  | .str a, .str b => decidable_of_iff (a = b) (by simp)
  | .arr a, .arr b => have := decEqValues a b; decidable_of_iff (a = b) (by simp)
  | .obj a, .obj b => have := decEqFields a b; decidable_of_iff (a = b) (by simp)
  | .null, .bool _ | .null, .num _ | .null, .str _ | .null, .arr _ | .null, .obj _
  | .bool _, .null | .bool _, .num _ | .bool _, .str _ | .bool _, .arr _ | .bool _, .obj _
  | .num _, .null | .num _, .bool _ | .num _, .str _ | .num _, .arr _ | .num _, .obj _
  | .str _, .null | .str _, .bool _ | .str _, .num _ | .str _, .arr _ | .str _, .obj _
  | .arr _, .null | .arr _, .bool _ | .arr _, .num _ | .arr _, .str _ | .arr _, .obj _
  | .obj _, .null | .obj _, .bool _ | .obj _, .num _ | .obj _, .str _ | .obj _, .arr _ =>
    .isFalse (by intro h; cases h)

def decEqValues : (a b : List Value) → Decidable (a = b)
  | [], [] => .isTrue rfl
  | [], _ :: _ | _ :: _, [] => .isFalse (by intro h; cases h)
  | x :: a, y :: b =>
    have := decEq x y
    have := decEqValues a b
    decidable_of_iff (x = y ∧ a = b) (by simp)

def decEqFields : (a b : List (String × Value)) → Decidable (a = b)
  | [], [] => .isTrue rfl
  | [], _ :: _ | _ :: _, [] => .isFalse (by intro h; cases h)
  | (j, x) :: a, (k, y) :: b =>
    have := decEq x y
    have := decEqFields a b
    decidable_of_iff ((j = k ∧ x = y) ∧ a = b) (by simp)

end

instance : DecidableEq Value := decEq

/-! ## Reading -/

/-- `Value::get` with a key. -/
def get? (v : Value) (key : String) : Option Value :=
  match v with
  | .obj fields => (fields.find? (fun f => f.1 = key)).map Prod.snd
  | _ => none

/-- Indexing with a key: a missing key, or a value that is no object, reads as null. -/
def field (v : Value) (key : String) : Value := (v.get? key).getD .null

/-- Indexing with a position. -/
def item (v : Value) (i : Nat) : Value :=
  match v with
  | .arr values => values.getD i .null
  | _ => .null

/-- `Value::as_str`. -/
def asStr? : Value → Option String
  | .str s => some s
  | _ => none

/-- `Value::as_bool`. -/
def asBool? : Value → Option Bool
  | .bool b => some b
  | _ => none

/-- `Value::as_array`. -/
def asArray? : Value → Option (List Value)
  | .arr values => some values
  | _ => none

/-- `Value::is_number`. -/
def isNumber : Value → Bool
  | .num _ => true
  | _ => false

/-- `Value::as_u64`. -/
def asU64? : Value → Option Nat
  | .num lexeme => parseU64 lexeme
  | _ => none

/-- `Value::as_object`. -/
def asObject? : Value → Option (List (String × Value))
  | .obj fields => some fields
  | _ => none

/-- `Value::is_object`. -/
def isObject (v : Value) : Bool := v.asObject?.isSome

/-- `Value::is_null`. -/
def isNull : Value → Bool
  | .null => true
  | _ => false

theorem asU64?_lt {v : Value} {n : Nat} (h : v.asU64? = some n) : n < 2 ^ 64 := by
  cases v with
  | num lexeme => exact parseU64_lt h
  | _ => cases h

@[simp] theorem asStr?_eq_some {v : Value} {s : String} : v.asStr? = some s ↔ v = .str s := by
  cases v <;> simp [asStr?]

@[simp] theorem asArray?_eq_some {v : Value} {vs : List Value} :
    v.asArray? = some vs ↔ v = .arr vs := by
  cases v <;> simp [asArray?]

@[simp] theorem asObject?_eq_some {v : Value} {fs : List (String × Value)} :
    v.asObject? = some fs ↔ v = .obj fs := by
  cases v <;> simp [asObject?]

/-! ## Building -/

/-- Insert a field in key order, replacing the value of a key that is there. -/
def insertField (key : String) (v : Value) : List (String × Value) → List (String × Value)
  | [] => [(key, v)]
  | f :: fields =>
    if key = f.1 then (key, v) :: fields
    else if key < f.1 then (key, v) :: f :: fields
    else f :: insertField key v fields

/-- The object `json!` builds from its fields. -/
def object (fields : List (String × Value)) : Value :=
  .obj (fields.foldl (fun acc f => insertField f.1 f.2 acc) [])

/-- The entries of an object, each key once. -/
def entries : List (String × Value) → List (String × Value)
  | [] => []
  | f :: fields => f :: (entries fields).filter fun g => g.1 ≠ f.1

/-- Assigning to an index with a key. -/
def setField (v : Value) (key : String) (x : Value) : Value :=
  match v with
  | .obj fields => .obj (insertField key x fields)
  | .null => .obj [(key, x)]
  | v => v

/-- Assigning inside a field. -/
def updateField (v : Value) (key : String) (f : Value → Value) : Value :=
  v.setField key (f (v.field key))

/-- Assigning inside an item. -/
def updateItem (v : Value) (i : Nat) (f : Value → Value) : Value :=
  match v with
  | .arr values => .arr (values.modify i f)
  | v => v

/-- `json!` of an integer. -/
def ofInt (n : Int) : Value := .num (toString n)

/-- `json!` of an optional text. -/
def ofOption : Option String → Value
  | some s => .str s
  | none => .null

/-- A count of 64 bits reads back from the number it is written as. -/
theorem asU64?_ofInt {n : Nat} (h : n < 2 ^ 64) : (ofInt n).asU64? = some n :=
  parseU64_repr h

theorem find?_insertField (key k : String) (v : Value) (fields : List (String × Value)) :
    (insertField key v fields).find? (fun f => f.1 = k) =
      if key = k then some (key, v) else fields.find? (fun f => f.1 = k) := by
  induction fields with
  | nil =>
    by_cases hk : key = k
    · simp [insertField, hk]
    · simp [insertField, hk]
  | cons f fields ih =>
    simp only [insertField]
    split
    · rename_i hf
      by_cases hk : key = k
      · simp [hk]
      · have hfk : f.1 ≠ k := fun h => hk (hf.trans h)
        simp [hk, hfk]
    · rename_i hf
      split
      · by_cases hk : key = k
        · simp [hk]
        · simp [hk]
      · rw [List.find?_cons, ih]
        by_cases hk : key = k
        · have hfk : f.1 ≠ k := fun h => hf (hk.trans h.symm)
          simp [hk, hfk]
        · simp [hk, List.find?_cons]

theorem find?_entries (k : String) (fields : List (String × Value)) :
    (entries fields).find? (fun f => f.1 = k) = fields.find? (fun f => f.1 = k) := by
  induction fields with
  | nil => rfl
  | cons f fields ih =>
    by_cases hk : f.1 = k
    · simp [entries, hk]
    · rw [entries, List.find?_cons_of_neg (by simpa using hk),
        List.find?_cons_of_neg (by simpa using hk), ← ih, List.find?_filter]
      congr 1
      funext g
      by_cases hg : g.1 = k
      · have hne : ¬ k = f.1 := fun h => hk h.symm
        simp [hg, hne]
      · simp [hg]

theorem entries_nodup (fields : List (String × Value)) :
    ((entries fields).map Prod.fst).Nodup := by
  induction fields with
  | nil => exact List.nodup_nil
  | cons f fields ih =>
    rw [entries, List.map_cons, List.nodup_cons]
    constructor
    · simp [List.mem_map]
    · exact ih.sublist (List.filter_sublist.map Prod.fst)

/-- The value of an entry is the one its key reads. -/
theorem get?_of_mem_entries {fields : List (String × Value)} {f : String × Value}
    (h : f ∈ entries fields) : (Value.obj fields).get? f.1 = some f.2 := by
  have hfind : (entries fields).find? (fun g => g.1 = f.1) = some f := by
    cases hfound : (entries fields).find? (fun g => g.1 = f.1) with
    | none =>
      rw [List.find?_eq_none] at hfound
      exact absurd (decide_eq_true rfl) (hfound f h)
    | some g =>
      have hkey : g.1 = f.1 := by simpa using List.find?_some hfound
      rw [List.inj_on_of_nodup_map (entries_nodup fields) (List.mem_of_find?_eq_some hfound) h hkey]
  rw [get?, ← find?_entries, hfind]
  rfl

/-- A key that reads a value is the key of an entry. -/
theorem exists_entry {fields : List (String × Value)} {key : String} (h : ((Value.obj fields).get? key).isSome) :
    ∃ f ∈ entries fields, f.1 = key := by
  rw [get?, ← find?_entries, Option.isSome_map, Option.isSome_iff_exists] at h
  obtain ⟨f, hf⟩ := h
  exact ⟨f, List.mem_of_find?_eq_some hf, by simpa using List.find?_some hf⟩

theorem get?_setField_self {v x : Value} {key : String} (h : v.isObject) :
    (v.setField key x).get? key = some x := by
  cases v with
  | obj fields => simp [setField, get?, find?_insertField]
  | _ => cases h

theorem get?_setField_ne {v x : Value} {key k : String} (hne : k ≠ key) :
    (v.setField key x).get? k = v.get? k := by
  cases v with
  | obj fields => simp [setField, get?, find?_insertField, Ne.symm hne]
  | null => simp [setField, get?, Ne.symm hne]
  | _ => rfl

theorem field_setField_self {v x : Value} {key : String} (h : v.isObject) :
    (v.setField key x).field key = x := by
  rw [field, get?_setField_self h]
  rfl

theorem field_setField_ne {v x : Value} {key k : String} (hne : k ≠ key) :
    (v.setField key x).field k = v.field k := by
  rw [field, get?_setField_ne hne]
  rfl

theorem isObject_setField {v x : Value} {key : String} (h : v.isObject) :
    (v.setField key x).isObject := by
  cases v with
  | obj fields => rfl
  | _ => cases h

theorem isObject_of_get? {v x : Value} {key : String} (h : v.get? key = some x) : v.isObject := by
  cases v with
  | obj fields => rfl
  | _ => cases h

theorem field_of_get? {v x : Value} {key : String} (h : v.get? key = some x) : v.field key = x := by
  rw [field, h]
  rfl

/-- A field read from a built object is the last one written under its key. -/
theorem get?_object (fields : List (String × Value)) (k : String) :
    (object fields).get? k = (fields.reverse.find? fun f => f.1 = k).map Prod.snd := by
  have hfold : ∀ acc, (fields.foldl (fun acc f => insertField f.1 f.2 acc) acc).find?
      (fun f => f.1 = k) = (fields.reverse.find? fun f => f.1 = k).or
        (acc.find? fun f => f.1 = k) := by
    induction fields with
    | nil => intro acc; rfl
    | cons f fields ih =>
      intro acc
      rw [List.foldl_cons, ih, find?_insertField, List.reverse_cons, List.find?_append,
        Option.or_assoc]
      congr 1
      split
      · rename_i hk
        subst hk
        simp
      · rename_i hk
        simp [hk]
  rw [object, get?, hfold]
  simp

/-- Inserting under a new key adds the field. -/
theorem insertField_perm {key : String} {v : Value} {fields : List (String × Value)}
    (h : ∀ f ∈ fields, f.1 ≠ key) : (insertField key v fields).Perm ((key, v) :: fields) := by
  induction fields with
  | nil => exact .refl _
  | cons f fields ih =>
    rw [insertField, if_neg (Ne.symm (h f List.mem_cons_self))]
    split
    · exact .refl _
    · exact ((ih fun g hg => h g (List.mem_cons_of_mem _ hg)).cons f).trans (.swap _ _ _)

/-- The fields of an object built from distinct keys are the ones it is built from. -/
theorem object_perm {fields : List (String × Value)} (h : (fields.map Prod.fst).Nodup) :
    ∃ sorted, object fields = .obj sorted ∧ sorted.Perm fields := by
  have hfold : ∀ acc, ((acc ++ fields).map Prod.fst).Nodup →
      (fields.foldl (fun acc f => insertField f.1 f.2 acc) acc).Perm (acc ++ fields) := by
    clear h
    induction fields with
    | nil => intro acc _; simp
    | cons f fields ih =>
      intro acc hnodup
      have hperm : (insertField f.1 f.2 acc).Perm (f :: acc) := by
        apply insertField_perm
        intro g hg heq
        rw [List.map_append, List.nodup_append] at hnodup
        exact hnodup.2.2 g.1 (List.mem_map_of_mem hg) f.1
          (List.mem_map_of_mem List.mem_cons_self) heq
      have hmiddle : (insertField f.1 f.2 acc ++ fields).Perm (acc ++ f :: fields) :=
        (hperm.append_right fields).trans (List.perm_middle.symm)
      rw [List.foldl_cons]
      refine (ih _ ?_).trans hmiddle
      exact (hmiddle.map Prod.fst).nodup_iff.mpr hnodup
  refine ⟨_, rfl, ?_⟩
  simpa using hfold [] (by simpa using h)

theorem mem_insertField {key : String} {v : Value} {fields : List (String × Value)} {f : String × Value}
    (h : f ∈ insertField key v fields) : f = (key, v) ∨ f ∈ fields := by
  induction fields with
  | nil => exact .inl (List.mem_singleton.mp h)
  | cons g fields ih =>
    rw [insertField] at h
    split at h
    · rcases List.mem_cons.mp h with rfl | h
      · exact .inl rfl
      · exact .inr (List.mem_cons_of_mem _ h)
    · split at h
      · exact List.mem_cons.mp h
      · rcases List.mem_cons.mp h with rfl | h
        · exact .inr List.mem_cons_self
        · exact (ih h).imp_right (List.mem_cons_of_mem _)

/-- The fields of a built object are among those it is built from. -/
theorem mem_object {fields sorted : List (String × Value)} (h : object fields = .obj sorted)
    {f : String × Value} (hf : f ∈ sorted) : f ∈ fields := by
  have hfold : ∀ acc, f ∈ fields.foldl (fun acc f => insertField f.1 f.2 acc) acc →
      f ∈ acc ∨ f ∈ fields := by
    clear h hf
    induction fields with
    | nil => exact fun acc h => .inl h
    | cons g fields ih =>
      intro acc h
      rcases ih _ h with h | h
      · rcases mem_insertField h with rfl | h
        · exact .inr List.mem_cons_self
        · exact .inl h
      · exact .inr (List.mem_cons_of_mem _ h)
  cases h
  exact (hfold [] hf).resolve_left List.not_mem_nil

theorem mem_entries {fields : List (String × Value)} {f : String × Value} (h : f ∈ entries fields) :
    f ∈ fields := by
  induction fields with
  | nil => exact h
  | cons g fields ih =>
    rw [entries] at h
    rcases List.mem_cons.mp h with rfl | h
    · exact List.mem_cons_self
    · exact List.mem_cons_of_mem _ (ih (List.mem_of_mem_filter h))

/-- Entries with different keys are all kept. -/
theorem entries_of_nodup {fields : List (String × Value)} (h : (fields.map Prod.fst).Nodup) :
    entries fields = fields := by
  induction fields with
  | nil => rfl
  | cons f fields ih =>
    rw [List.map_cons, List.nodup_cons] at h
    rw [entries, ih h.2, List.filter_eq_self.mpr]
    intro g hg
    have hne : g.1 ≠ f.1 := fun heq => h.1 (heq ▸ List.mem_map_of_mem hg)
    simpa using hne

theorem insertField_insertField (key : String) (v w : Value) (fields : List (String × Value)) :
    insertField key v (insertField key w fields) = insertField key v fields := by
  induction fields with
  | nil => simp [insertField]
  | cons f fields ih =>
    simp only [insertField]
    split
    · simp [insertField]
    · split
      · simp [insertField]
      · simp [insertField, *]

theorem setField_setField (v x y : Value) (key : String) :
    (v.setField key y).setField key x = v.setField key x := by
  cases v with
  | obj fields => simp [setField, insertField_insertField]
  | null => simp [setField, insertField]
  | _ => rfl

/-! ## Text -/

/-- One character of a string as the serializer writes it. -/
def escapeChar (c : Char) : List Char :=
  if c = '"' then ['\\', '"']
  else if c = '\\' then ['\\', '\\']
  else if c.toNat = 0x08 then ['\\', 'b']
  else if c.toNat = 0x09 then ['\\', 't']
  else if c.toNat = 0x0a then ['\\', 'n']
  else if c.toNat = 0x0c then ['\\', 'f']
  else if c.toNat = 0x0d then ['\\', 'r']
  else if c.toNat < 0x20 then '\\' :: 'u' :: hexDigits 4 c.toNat
  else [c]

def quoted (s : String) : String :=
  String.ofList ('"' :: s.toList.flatMap escapeChar ++ ['"'])

mutual

/-- `Value::to_string`, the compact text. -/
def text : Value → String
  | .null => "null"
  | .bool b => if b then "true" else "false"
  | .num lexeme => lexeme
  | .str s => quoted s
  | .arr values => "[" ++ ",".intercalate (textValues values) ++ "]"
  | .obj fields => "\x7b" ++ ",".intercalate (textFields fields) ++ "\x7d"

def textValues : List Value → List String
  | [] => []
  | v :: values => v.text :: textValues values

def textFields : List (String × Value) → List String
  | [] => []
  | (key, v) :: fields => (quoted key ++ ":" ++ v.text) :: textFields fields

end

example : text (object [("b", .str "x\"y"), ("a", .arr [ofInt (-1), .null])]) =
    "\x7b\"a\":[-1,null],\"b\":\"x\\\"y\"\x7d" := by decide

end Value

end ShaponTravels
