import Mathlib.Data.List.Sort
import ShaponTravels.Booking.Evidence

/-!
# Signals — what counts as a ticket that may have been issued

A hold is released only where nothing points to a ticket.  The application asks `ticket_signal`, the
triggers of migration 0033 ask `ticket_positive_signal`; on ASCII texts the two say the same.
-/

namespace ShaponTravels.Booking

/-! ## The application -/

mutual

/-- `nonissuance::ticket_signal`. -/
def ticketSignal : Value → Bool
  | .obj fields => ticketSignalFields fields
  | .arr values => ticketSignalValues values
  | .null | .bool _ | .num _ | .str _ => false

def ticketSignalFields : List (String × Value) → Bool
  | [] => false
  | (k, v) :: fields =>
    ((containsText (toAsciiLowercase k) "ticketnumber" || toAsciiLowercase k = "ticketcoderef") &&
        isFilled v) ||
      (["status", "bookingstatus"].contains (toAsciiLowercase k) &&
        v.asStr?.any fun s => ["ticketed", "issued"].contains (toAsciiLowercase s)) ||
      ticketSignal v || ticketSignalFields fields

def ticketSignalValues : List Value → Bool
  | [] => false
  | v :: values => ticketSignal v || ticketSignalValues values

end

/-! ## The database -/

/-- The order `jsonb` keeps the keys of an object in: by length, then by bytes. -/
def keyBefore (a b : String) : Bool :=
  a.utf8ByteSize < b.utf8ByteSize || (a.utf8ByteSize = b.utf8ByteSize && a ≤ b)

mutual

/-- The characters `jsonb` is printed with. -/
def jsonbChars : Value → List Char
  | .null => "null".toList
  | .bool b => if b then "true".toList else "false".toList
  | .num lexeme => lexeme.toList
  | .str s => (Value.quoted s).toList
  | .arr values => '[' :: [',', ' '].intercalate (jsonbValues values) ++ [']']
  | .obj fields =>
    let sorted := (jsonbFields fields).mergeSort fun f g => keyBefore f.1 g.1
    '\x7b' :: [',', ' '].intercalate (sorted.map Prod.snd) ++ ['\x7d']

def jsonbValues : List Value → List (List Char)
  | [] => []
  | v :: values => jsonbChars v :: jsonbValues values

def jsonbFields : List (String × Value) → List (String × List Char)
  | [] => []
  | (k, v) :: fields =>
    (k, (Value.quoted k).toList ++ ':' :: ' ' :: jsonbChars v) :: jsonbFields fields

end

/-- `v #>> '{}'`: the text of any value but the JSON null. -/
def jsonbText : Value → Option String
  | .null => none
  | .str s => some s
  | v => some (String.ofList (jsonbChars v))

mutual

/-- `ticket_positive_signal` of migration 0033, for a `body` that is not NULL. -/
def positiveSignal (lower : String → String) : Value → Bool
  | .obj fields => positiveSignalFields lower fields
  | .arr values => positiveSignalValues lower values
  | .null | .bool _ | .num _ | .str _ => false

def positiveSignalFields (lower : String → String) : List (String × Value) → Bool
  | [] => false
  | (k, v) :: fields =>
    -- A comparison with NULL is not true, and neither is its conjunction with the key.
    if ((containsText (lower k) "ticketnumber" || lower k = "ticketcoderef") &&
          !([Value.null, .str "", .arr []].contains v)) ||
        (["status", "bookingstatus"].contains (lower k) &&
          (jsonbText v).any fun s => ["ticketed", "issued"].contains (lower s)) ||
        positiveSignal lower v then true
    else positiveSignalFields lower fields

def positiveSignalValues (lower : String → String) : List Value → Bool
  | [] => false
  | v :: values => if positiveSignal lower v then true else positiveSignalValues lower values

end

/-- `ticket_positive_signal` of a column that may be NULL. -/
def ticketPositiveSignal (pf : Platform) (v : Option Value) : Bool :=
  v.any (positiveSignal pf.sqlLower)

example : ticketSignal (.object [("nested", .object [("ticketNumber", .str "x")])]) ∧
    ticketSignal (.object [("status", .str "Ticketed")]) ∧
    ¬ ticketSignal (.object [("status", .str "Booked"), ("ticketNumbers", .arr [])]) := by
  decide

/-! ## ASCII texts -/

def isAscii (c : Char) : Bool := c.toNat < 128

def isAsciiText (s : String) : Bool := s.toList.all isAscii

/-- The characters of a JSON number. -/
def isNumberChar (c : Char) : Bool := "+-.0123456789Ee".toList.contains c

mutual

/-- A JSON value whose keys and strings are ASCII; its numbers are written as JSON writes them. -/
def isAsciiValue : Value → Bool
  | .null | .bool _ => true
  | .num lexeme => lexeme.toList.all isNumberChar
  | .str s => isAsciiText s
  | .arr values => isAsciiValues values
  | .obj fields => isAsciiFields fields

def isAsciiValues : List Value → Bool
  | [] => true
  | v :: values => isAsciiValue v && isAsciiValues values

def isAsciiFields : List (String × Value) → Bool
  | [] => true
  | (k, v) :: fields => isAsciiText k && isAsciiValue v && isAsciiFields fields

end

/-! ## Printed values are ASCII -/

theorem isAscii_hexDigits (w n : Nat) : ∀ c ∈ hexDigits w n, isAscii c = true := by
  have hdigit : ∀ d < 16, isAscii (Nat.digitChar d) = true := by decide
  induction w generalizing n with
  | zero => intro c hc; cases hc
  | succ w ih =>
    intro c hc
    rw [hexDigits] at hc
    rcases List.mem_append.mp hc with hc | hc
    · exact ih _ c hc
    · rw [List.mem_singleton.mp hc]
      exact hdigit _ (Nat.mod_lt _ (by decide))

theorem isAscii_pair {a b : Char} (ha : isAscii a = true) (hb : isAscii b = true) :
    ∀ d ∈ [a, b], isAscii d = true := by
  simp [ha, hb]

theorem isAscii_escapeChar {c : Char} (h : isAscii c = true) :
    ∀ d ∈ Value.escapeChar c, isAscii d = true := by
  intro d hd
  unfold Value.escapeChar at hd
  split at hd
  · exact isAscii_pair (by decide) (by decide) d hd
  split at hd
  · exact isAscii_pair (by decide) (by decide) d hd
  split at hd
  · exact isAscii_pair (by decide) (by decide) d hd
  split at hd
  · exact isAscii_pair (by decide) (by decide) d hd
  split at hd
  · exact isAscii_pair (by decide) (by decide) d hd
  split at hd
  · exact isAscii_pair (by decide) (by decide) d hd
  split at hd
  · exact isAscii_pair (by decide) (by decide) d hd
  split at hd
  · rcases List.mem_cons.mp hd with rfl | hd
    · decide
    rcases List.mem_cons.mp hd with rfl | hd
    · decide
    · exact isAscii_hexDigits 4 _ d hd
  · rw [List.mem_singleton.mp hd]
    exact h

theorem isAscii_quoted {s : String} (h : isAsciiText s = true) :
    ∀ c ∈ (Value.quoted s).toList, isAscii c = true := by
  intro c hc
  rw [isAsciiText, List.all_eq_true] at h
  rw [Value.quoted, String.toList_ofList] at hc
  rcases List.mem_append.mp hc with hc | hc
  · rcases List.mem_cons.mp hc with rfl | hc
    · decide
    · obtain ⟨x, hx, hc⟩ := List.mem_flatMap.mp hc
      exact isAscii_escapeChar (h x hx) c hc
  · rw [List.mem_singleton.mp hc]
    decide

theorem isAscii_of_isNumberChar {c : Char} (h : isNumberChar c = true) : isAscii c = true := by
  have hall : "+-.0123456789Ee".toList.all isAscii = true := by decide
  exact List.all_eq_true.mp hall c (List.contains_iff_mem.mp h)

theorem isAscii_separator : ∀ c ∈ [',', ' '], isAscii c = true :=
  isAscii_pair (by decide) (by decide)

theorem mem_intercalate {α : Type} {sep : List α} {x : α} {parts : List (List α)}
    (h : x ∈ sep.intercalate parts) : x ∈ sep ∨ ∃ part ∈ parts, x ∈ part := by
  induction parts with
  | nil => cases h
  | cons part parts ih =>
    cases parts with
    | nil =>
      rw [List.intercalate_singleton] at h
      exact .inr ⟨part, List.mem_cons_self, h⟩
    | cons next parts =>
      rw [List.intercalate_cons_cons, List.append_assoc] at h
      rcases List.mem_append.mp h with h | h
      · exact .inr ⟨part, List.mem_cons_self, h⟩
      rcases List.mem_append.mp h with h | h
      · exact .inl h
      · rcases ih h with h | ⟨other, hother, h⟩
        · exact .inl h
        · exact .inr ⟨other, List.mem_cons_of_mem _ hother, h⟩

mutual

theorem isAscii_jsonbChars : ∀ v : Value, isAsciiValue v = true →
    ∀ c ∈ jsonbChars v, isAscii c = true
  | .null, _ => List.all_eq_true.mp (by decide)
  | .bool b, _ => List.all_eq_true.mp (by cases b <;> decide)
  | .num lexeme, h => fun c hc =>
    isAscii_of_isNumberChar (List.all_eq_true.mp h c (by rwa [jsonbChars] at hc))
  | .str s, h => by
    rw [jsonbChars]
    exact isAscii_quoted h
  | .arr values, h => by
    intro c hc
    rw [jsonbChars] at hc
    rcases List.mem_cons.mp hc with rfl | hc
    · decide
    rcases List.mem_append.mp hc with hc | hc
    · rcases mem_intercalate hc with hc | ⟨part, hpart, hc⟩
      · exact isAscii_separator c hc
      · exact isAscii_jsonbValues values h part hpart c hc
    · rw [List.mem_singleton.mp hc]
      decide
  | .obj fields, h => by
    intro c hc
    rw [jsonbChars] at hc
    rcases List.mem_cons.mp hc with rfl | hc
    · decide
    rcases List.mem_append.mp hc with hc | hc
    · rcases mem_intercalate hc with hc | ⟨part, hpart, hc⟩
      · exact isAscii_separator c hc
      · obtain ⟨f, hf, rfl⟩ := List.mem_map.mp hpart
        exact isAscii_jsonbFields fields h f (List.mem_mergeSort.mp hf) c hc
    · rw [List.mem_singleton.mp hc]
      decide

theorem isAscii_jsonbValues : ∀ values : List Value, isAsciiValues values = true →
    ∀ part ∈ jsonbValues values, ∀ c ∈ part, isAscii c = true
  | [], _ => fun part hpart => absurd hpart List.not_mem_nil
  | v :: values, h => by
    rw [isAsciiValues, Bool.and_eq_true] at h
    intro part hpart
    rcases List.mem_cons.mp hpart with rfl | hpart
    · exact isAscii_jsonbChars v h.1
    · exact isAscii_jsonbValues values h.2 part hpart

theorem isAscii_jsonbFields : ∀ fields : List (String × Value), isAsciiFields fields = true →
    ∀ f ∈ jsonbFields fields, ∀ c ∈ f.2, isAscii c = true
  | [], _ => fun f hf => absurd hf List.not_mem_nil
  | (k, v) :: fields, h => by
    rw [isAsciiFields, Bool.and_eq_true, Bool.and_eq_true] at h
    intro f hf
    rcases List.mem_cons.mp hf with rfl | hf
    · intro c hc
      rcases List.mem_append.mp hc with hc | hc
      · exact isAscii_quoted h.1.1 c hc
      rcases List.mem_cons.mp hc with rfl | hc
      · decide
      rcases List.mem_cons.mp hc with rfl | hc
      · decide
      · exact isAscii_jsonbChars v h.1.2 c hc
    · exact isAscii_jsonbFields fields h.2 f hf

end

/-! ## Agreement -/

/-- `lower` of a text that starts with no letter of a ticketed status is none. -/
theorem not_ticketed {c : Char} {rest : List Char} (ht : c.toLower ≠ 't') (hi : c.toLower ≠ 'i') :
    ["ticketed", "issued"].contains (toAsciiLowercase (String.ofList (c :: rest))) = false := by
  rw [Bool.eq_false_iff]
  intro h
  rw [List.contains_iff_mem, List.mem_cons, List.mem_singleton, toAsciiLowercase,
    String.toList_ofList, List.map_cons] at h
  rcases h with h | h
  · have hlist := congrArg String.toList h
    rw [String.toList_ofList] at hlist
    exact ht (List.cons.inj hlist).1
  · have hlist := congrArg String.toList h
    rw [String.toList_ofList] at hlist
    exact hi (List.cons.inj hlist).1

/-- A case mapping that is the one of ASCII on ASCII texts. -/
def LowersAscii (lower : String → String) : Prop :=
  ∀ s, isAsciiText s = true → lower s = toAsciiLowercase s

variable {lower : String → String}

/-- Only a string can be a ticketed status, also where every value is read as text. -/
theorem ticketedText_eq (hlower : LowersAscii lower) {v : Value} (hv : isAsciiValue v = true) :
    ((jsonbText v).any fun s => ["ticketed", "issued"].contains (lower s)) =
      v.asStr?.any fun s => ["ticketed", "issued"].contains (toAsciiLowercase s) := by
  have hprinted : isAsciiText (String.ofList (jsonbChars v)) = true := by
    rw [isAsciiText, String.toList_ofList, List.all_eq_true]
    exact isAscii_jsonbChars v hv
  have hnumber : "+-.0123456789Ee".toList.all fun c => c.toLower ≠ 't' ∧ c.toLower ≠ 'i' := by decide
  simp only [List.all_eq_true, decide_eq_true_eq] at hnumber
  cases v with
  | null => rfl
  | str s =>
    show ["ticketed", "issued"].contains (lower s) = _
    rw [hlower s hv]
    rfl
  | bool b =>
    show ["ticketed", "issued"].contains (lower (String.ofList (jsonbChars (.bool b)))) = false
    rw [hlower _ hprinted]
    cases b <;> decide
  | num lexeme =>
    show ["ticketed", "issued"].contains (lower (String.ofList (jsonbChars (.num lexeme)))) = false
    rw [hlower _ hprinted, jsonbChars]
    cases hchars : lexeme.toList with
    | nil => decide
    | cons c rest =>
      rw [isAsciiValue, hchars, List.all_cons, Bool.and_eq_true] at hv
      obtain ⟨ht, hi⟩ := hnumber c (List.contains_iff_mem.mp hv.1)
      exact not_ticketed ht hi
  | arr values =>
    show ["ticketed", "issued"].contains (lower (String.ofList (jsonbChars (.arr values)))) = false
    rw [hlower _ hprinted, jsonbChars]
    exact not_ticketed (by decide) (by decide)
  | obj fields =>
    show ["ticketed", "issued"].contains (lower (String.ofList (jsonbChars (.obj fields)))) = false
    rw [hlower _ hprinted, jsonbChars]
    exact not_ticketed (by decide) (by decide)

mutual

theorem positiveSignal_eq (hlower : LowersAscii lower) : ∀ v : Value, isAsciiValue v = true →
    positiveSignal lower v = ticketSignal v
  | .null, _ | .bool _, _ | .num _, _ | .str _, _ => rfl
  | .arr values, h => positiveSignalValues_eq hlower values h
  | .obj fields, h => positiveSignalFields_eq hlower fields h

theorem positiveSignalValues_eq (hlower : LowersAscii lower) :
    ∀ values : List Value, isAsciiValues values = true →
    positiveSignalValues lower values = ticketSignalValues values
  | [], _ => rfl
  | v :: values, h => by
    rw [isAsciiValues, Bool.and_eq_true] at h
    rw [positiveSignalValues, ticketSignalValues, positiveSignal_eq hlower v h.1,
      positiveSignalValues_eq hlower values h.2]
    cases ticketSignal v <;> rfl

theorem positiveSignalFields_eq (hlower : LowersAscii lower) :
    ∀ fields : List (String × Value), isAsciiFields fields = true →
    positiveSignalFields lower fields = ticketSignalFields fields
  | [], _ => rfl
  | (k, v) :: fields, h => by
    rw [isAsciiFields, Bool.and_eq_true, Bool.and_eq_true] at h
    have hfilled : (!([Value.null, .str "", .arr []].contains v)) = isFilled v := by
      by_cases hempty : v = .arr []
      · simp [isFilled, hempty]
      · simp [isFilled, hempty]
    rw [positiveSignalFields, ticketSignalFields, hlower k h.1.1, ticketedText_eq hlower h.1.2,
      positiveSignal_eq hlower v h.1.2, positiveSignalFields_eq hlower fields h.2, hfilled]
    split
    · rename_i hhere
      rw [hhere, Bool.true_or]
    · rename_i hhere
      rw [Bool.not_eq_true] at hhere
      rw [hhere, Bool.false_or]

end

mutual

/-- A field of ticket numbers is a signal. -/
theorem ticketSignal_of_containsTicket : ∀ v : Value, containsTicket v = true →
    ticketSignal v = true
  | .null, h | .bool _, h | .num _, h | .str _, h => by cases h
  | .arr values, h => ticketSignalValues_of_containsTicket values h
  | .obj fields, h => ticketSignalFields_of_containsTicket fields h

theorem ticketSignalValues_of_containsTicket : ∀ values : List Value,
    containsTicketValues values = true → ticketSignalValues values = true
  | [], h => by cases h
  | v :: values, h => by
    rw [containsTicketValues, Bool.or_eq_true] at h
    rw [ticketSignalValues, Bool.or_eq_true]
    exact h.imp (ticketSignal_of_containsTicket v) (ticketSignalValues_of_containsTicket values)

theorem ticketSignalFields_of_containsTicket : ∀ fields : List (String × Value),
    containsTicketFields fields = true → ticketSignalFields fields = true
  | [], h => by cases h
  | (k, v) :: fields, h => by
    rw [containsTicketFields, Bool.or_eq_true, Bool.or_eq_true, Bool.and_eq_true,
      decide_eq_true_eq] at h
    rw [ticketSignalFields, Bool.or_eq_true, Bool.or_eq_true, Bool.or_eq_true]
    rcases h with (⟨rfl, hfilled⟩ | hdeeper) | hrest
    · have hkey : containsText (toAsciiLowercase "ticketNumbers") "ticketnumber" = true := by decide
      rw [hkey, hfilled]
      exact .inl (.inl (.inl rfl))
    · exact .inl (.inr (ticketSignal_of_containsTicket v hdeeper))
    · exact .inr (ticketSignalFields_of_containsTicket fields hrest)

end

/-- The guard of the application and the trigger of the database agree on every ASCII value, and on a
column that may be NULL; a response that contains a ticket is a signal for both. -/
theorem ticketSignal_agreement (pf : Platform)
    (hlower : LowersAscii pf.sqlLower) :
    (∀ v, isAsciiValue v = true →
      (ticketSignal v = true ↔ ticketPositiveSignal pf (some v) = true)) ∧
    (∀ column : Option Value, (∀ v ∈ column, isAsciiValue v = true) →
      column.any ticketSignal = ticketPositiveSignal pf column) ∧
    ∀ v, containsTicket v = true → ticketSignal v = true := by
  refine ⟨?_, ?_, ticketSignal_of_containsTicket⟩
  · intro v hv
    show _ ↔ positiveSignal pf.sqlLower v = true
    rw [positiveSignal_eq hlower v hv]
  · intro column hcolumn
    cases column with
    | none => rfl
    | some v => exact (positiveSignal_eq hlower v (hcolumn v rfl)).symm

/-- A database whose `lower` maps the letters of ASCII. -/
def samplePlatform : Platform := ⟨fun _ => 0, fun s => s, fun s => s, toAsciiLowercase⟩

theorem ticketSignal_agreement_issued :
    ticketPositiveSignal samplePlatform (some (.object [("bookingStatus", .str "ISSUED")])) = true ∧
      (ticketSignal (.object [("bookingStatus", .str "ISSUED")]) = true ↔
        ticketPositiveSignal samplePlatform (some (.object [("bookingStatus", .str "ISSUED")])) =
          true) :=
  ⟨by decide, (ticketSignal_agreement samplePlatform fun _ _ => rfl).1 _ (by decide)⟩

end ShaponTravels.Booking
