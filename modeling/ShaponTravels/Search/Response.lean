import ShaponTravels.Json

/-!
# Response — serializing a search response while it is taken apart

`search_response.rs` over the compact serializer of `serde_json`.
-/

namespace ShaponTravels.Search.Response

/-! ## The serializer -/

/-- Where an open array or object stands: it was closed at once, nothing is written in it yet, or
something is. -/
inductive Opened where
  | empty
  | first
  | rest
  deriving DecidableEq, Repr

/-- What writes itself after what is written. -/
abbrev Serialize := String → Except String String

/-- `serialize_seq` and `serialize_map`: without items the closing bracket follows at once. -/
def openWith (start finish : String) (len : Nat) (out : String) : Opened × String :=
  if len = 0 then (.empty, out ++ start ++ finish) else (.first, out ++ start)

/-- `end`. -/
def closeWith (finish : String) (c : Opened × String) : String :=
  if c.1 = .empty then c.2 else c.2 ++ finish

/-- The comma before everything but the first item. -/
def separated (c : Opened × String) : String :=
  if c.1 = .first then c.2 else c.2 ++ ","

/-- `serialize_element`. -/
def element (serialize : Serialize) (c : Opened × String) : Except String (Opened × String) := do
  let out ← serialize (separated c)
  return (.rest, out)

/-- `serialize_entry`. -/
def entry (key : String) (serialize : Serialize) (c : Opened × String) :
    Except String (Opened × String) := do
  let out ← serialize (separated c ++ Value.quoted key ++ ":")
  return (.rest, out)

mutual

/-- `Value::serialize`. -/
def serialize : Value → Serialize
  | .null, out => .ok (out ++ "null")
  | .bool b, out => .ok (out ++ if b then "true" else "false")
  | .num lexeme, out => .ok (out ++ lexeme)
  | .str s, out => .ok (out ++ Value.quoted s)
  | .arr values, out => do
    let c ← serializeValues values (openWith "[" "]" values.length out)
    return closeWith "]" c
  | .obj fields, out => do
    let c ← serializeFields fields (openWith "\x7b" "\x7d" fields.length out)
    return closeWith "\x7d" c

def serializeValues : List Value → Opened × String → Except String (Opened × String)
  | [], c => .ok c
  | v :: values, c => do
    let c ← element (serialize v) c
    serializeValues values c

def serializeFields : List (String × Value) → Opened × String → Except String (Opened × String)
  | [], c => .ok c
  | (key, v) :: fields, c => do
    let c ← entry key (serialize v) c
    serializeFields fields c

end

/-! ## The response -/

inductive Position where
  | envelope
  | item
  | offers
  deriving DecidableEq, Repr

/-- `SearchResponse`, its value gone once it is serialized. -/
structure SearchResponse where
  value : Option Value
  position : Position

/-- `SearchResponse::at`. -/
def SearchResponse.at (value : Value) (position : Position) : SearchResponse := ⟨some value, position⟩

/-- `SearchResponse::new`. -/
def SearchResponse.new (value : Value) : SearchResponse := .at value .envelope

/-- What a value under a key of an object is at. -/
def position? (position : Position) (key : String) : Option Position :=
  match position, key with
  | .envelope, "item1" => some .item
  | .item, "airSearchResponses" => some .offers
  | _, _ => none

mutual

/-- What `serialize` does with the value it has taken.  A nested response is full when it is written, and
written once. -/
def write : Position → Value → Serialize
  | .offers, .arr offers, out => do
    let c ← serializeValues offers (openWith "[" "]" offers.length out)
    return closeWith "]" c
  | .envelope, .obj fields, out => do
    let c ← writeFields .envelope fields (openWith "\x7b" "\x7d" fields.length out)
    return closeWith "\x7d" c
  | .item, .obj fields, out => do
    let c ← writeFields .item fields (openWith "\x7b" "\x7d" fields.length out)
    return closeWith "\x7d" c
  | _, value, out => serialize value out

def writeFields (position : Position) :
    List (String × Value) → Opened × String → Except String (Opened × String)
  | [], c => .ok c
  | (key, v) :: fields, c => do
    let c ← match position? position key with
      | some next => entry key (write next v) c
      | none => entry key (serialize v) c
    writeFields position fields c

end

/-- `SearchResponse::serialize`: the value is taken before anything is written. -/
def SearchResponse.serialize (r : SearchResponse) (out : String) : Except String String × SearchResponse :=
  (match r.value with
    | some value => write r.position value out
    | none => .error "Search response already serialized",
  { r with value := none })

/-- `serde_json::to_vec`. -/
def toVec (serialize : Serialize) : Except String ByteArray :=
  (serialize "").map String.toUTF8

/-! ## What the serializer writes -/

/-- The items after the first one. -/
def following (parts : List String) : String := parts.foldr (fun part rest => "," ++ part ++ rest) ""

theorem intercalate_cons (part : String) (parts : List String) :
    ",".intercalate (part :: parts) = part ++ following parts := by
  induction parts generalizing part with
  | nil => simp [following]
  | cons next parts ih =>
    rw [String.intercalate_cons_cons, ih]
    show part ++ "," ++ (next ++ following parts) = part ++ ("," ++ next ++ following parts)
    simp only [String.append_assoc]

theorem element_rest {serialize : Serialize} {out text : String}
    (h : ∀ out, serialize out = .ok (out ++ text)) :
    element serialize (.rest, out) = .ok (.rest, out ++ ("," ++ text)) := by
  show (serialize (out ++ ",")).bind _ = _
  rw [h, String.append_assoc]
  rfl

theorem element_first {serialize : Serialize} {out text : String}
    (h : ∀ out, serialize out = .ok (out ++ text)) :
    element serialize (.first, out) = .ok (.rest, out ++ text) := by
  show (serialize out).bind _ = _
  rw [h]
  rfl

/-- An entry is an element that starts with its key. -/
theorem entry_eq (key : String) (serialize : Serialize) (c : Opened × String) :
    entry key serialize c = element (fun out => serialize (out ++ (Value.quoted key ++ ":"))) c := by
  unfold entry element
  rw [String.append_assoc]

theorem keyed_eq {key text : String} {serialize : Serialize} (h : ∀ out, serialize out = .ok (out ++ text))
    (out : String) : serialize (out ++ (Value.quoted key ++ ":")) = .ok (out ++ (Value.quoted key ++ ":" ++ text)) := by
  rw [h, String.append_assoc]

mutual

/-- The standard serialization is the text of the value. -/
theorem serialize_eq : ∀ (v : Value) (out : String), serialize v out = .ok (out ++ v.text)
  | .null, _ | .bool _, _ | .num _, _ | .str _, _ => rfl
  | .arr [], out => congrArg Except.ok (String.append_assoc ..)
  | .arr (v :: values), out => by
    have hfirst : element (serialize v) (.first, out ++ "[") = _ := element_first (serialize_eq v)
    have hrest := serializeValues_eq values (out ++ "[" ++ v.text)
    show ((element (serialize v) (.first, out ++ "[")).bind (serializeValues values)).bind _ = _
    rw [hfirst]
    show (serializeValues values (.rest, out ++ "[" ++ v.text)).bind _ = _
    rw [hrest, Value.text, Value.textValues, intercalate_cons]
    show Except.ok (out ++ "[" ++ v.text ++ following (Value.textValues values) ++ "]") = _
    simp only [String.append_assoc]
  | .obj [], out => congrArg Except.ok (String.append_assoc ..)
  | .obj ((key, v) :: fields), out => by
    have hfirst : entry key (serialize v) (.first, out ++ "\x7b") = _ :=
      (entry_eq ..).trans (element_first (keyed_eq (serialize_eq v)))
    have hrest := serializeFields_eq fields (out ++ "\x7b" ++ (Value.quoted key ++ ":" ++ v.text))
    show ((entry key (serialize v) (.first, out ++ "\x7b")).bind (serializeFields fields)).bind _ = _
    rw [hfirst]
    show (serializeFields fields (.rest, out ++ "\x7b" ++ (Value.quoted key ++ ":" ++ v.text))).bind _ = _
    rw [hrest, Value.text, Value.textFields, intercalate_cons]
    show Except.ok (out ++ "\x7b" ++ (Value.quoted key ++ ":" ++ v.text) ++
      following (Value.textFields fields) ++ "\x7d") = _
    simp only [String.append_assoc]

theorem serializeValues_eq : ∀ (values : List Value) (out : String),
    serializeValues values (.rest, out) = .ok (.rest, out ++ following (Value.textValues values))
  | [], out => by simp [serializeValues, Value.textValues, following]
  | v :: values, out => by
    have hrest := serializeValues_eq values (out ++ ("," ++ v.text))
    rw [serializeValues, element_rest (serialize_eq v)]
    show serializeValues values (.rest, out ++ ("," ++ v.text)) = _
    rw [hrest, String.append_assoc]
    rfl

theorem serializeFields_eq : ∀ (fields : List (String × Value)) (out : String),
    serializeFields fields (.rest, out) = .ok (.rest, out ++ following (Value.textFields fields))
  | [], out => by simp [serializeFields, Value.textFields, following]
  | (key, v) :: fields, out => by
    have hrest := serializeFields_eq fields (out ++ ("," ++ (Value.quoted key ++ ":" ++ v.text)))
    rw [serializeFields, entry_eq, element_rest (keyed_eq (serialize_eq v))]
    show serializeFields fields (.rest, out ++ ("," ++ (Value.quoted key ++ ":" ++ v.text))) = _
    rw [hrest, String.append_assoc]
    rfl

end

/-! ## What the response writes -/

mutual

/-- Taken apart or whole, a value is written the same. -/
theorem write_eq : ∀ (position : Position) (v : Value) (out : String), write position v out = serialize v out
  | .offers, .arr offers, out => rfl
  | .envelope, .obj fields, out => by
    rw [write, serialize, writeFields_eq]
  | .item, .obj fields, out => by
    rw [write, serialize, writeFields_eq]
  | .envelope, .null, _ | .envelope, .bool _, _ | .envelope, .num _, _ | .envelope, .str _, _ |
    .envelope, .arr _, _ => rfl
  | .item, .null, _ | .item, .bool _, _ | .item, .num _, _ | .item, .str _, _ | .item, .arr _, _ => rfl
  | .offers, .null, _ | .offers, .bool _, _ | .offers, .num _, _ | .offers, .str _, _ |
    .offers, .obj _, _ => rfl

theorem writeFields_eq : ∀ (position : Position) (fields : List (String × Value)) (c : Opened × String),
    writeFields position fields c = serializeFields fields c
  | _, [], _ => rfl
  | position, (key, v) :: fields, c => by
    have hnested : ∀ next, entry key (write next v) c = entry key (serialize v) c := by
      intro next
      rw [show write next v = serialize v from funext (write_eq next v)]
    have hrest : writeFields position fields = serializeFields fields := funext (writeFields_eq position fields)
    rw [writeFields, serializeFields, hrest]
    cases position? position key with
    | none => rfl
    | some next =>
      dsimp only
      rw [hnested]

end

/-- A response is written as the standard serialization of its value, byte for byte, which is used up by
it: to serialize the response once more fails before anything is written. -/
theorem response_serializes (v : Value) (out : String) :
    ((SearchResponse.new v).serialize out).1 = serialize v out ∧
    toVec (fun out => ((SearchResponse.new v).serialize out).1) = toVec (serialize v) ∧
    toVec (serialize v) = .ok v.text.toUTF8 ∧
    ((SearchResponse.new v).serialize out).2.value = none ∧
    ∀ out', (((SearchResponse.new v).serialize out).2.serialize out').1 =
      .error "Search response already serialized" := by
  have hwrite : ∀ out, ((SearchResponse.new v).serialize out).1 = serialize v out := write_eq .envelope v
  have htext : toVec (serialize v) = .ok v.text.toUTF8 := by
    unfold toVec
    rw [serialize_eq]
    show Except.ok ("" ++ v.text).toUTF8 = _
    rw [String.empty_append]
  exact ⟨hwrite out, congrArg toVec (funext hwrite), htext, rfl, fun _ => rfl⟩

end ShaponTravels.Search.Response
