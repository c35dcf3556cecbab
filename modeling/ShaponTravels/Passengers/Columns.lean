import ShaponTravels.Edits
import ShaponTravels.Passengers.Profile

/-!
# Columns — a saved passenger in its table

`record` maps the fields to the columns of `passenger_profiles`, `jsonb_populate_record` reads a row from it,
and `portal_passenger_json` shows the row under the names of the fields.  What is shown of a row that was
written from valid data is that data.
-/

namespace ShaponTravels.Passengers

open Library
open Booking (NaiveDate)

/-! ## Rows -/

/-- The columns of `passenger_profiles` that a field is kept in. -/
structure Columns where
  passengerType : Option String
  title : Option String
  givenName : Option String
  surname : Option String
  gender : Option String
  nationality : Option String
  phoneCountryCode : Option String
  phone : Option String
  email : Option String
  dateOfBirth : Option NaiveDate
  passportNumber : Option String
  passportExpiry : Option NaiveDate
  issuingCountry : Option String
  loyaltyAirlineCode : Option String
  loyaltyAccountNumber : Option String
  ssrRequests : Option Value
  organization : Option String
  deriving DecidableEq

/-- What a column holds. -/
inductive Cell where
  | text (s : Option String)
  | date (d : Option NaiveDate)
  | json (v : Option Value)
  deriving DecidableEq

namespace Columns

/-- The column of a field. -/
def cell (c : Columns) : Field → Cell
  | .passengerType => .text c.passengerType
  | .title => .text c.title
  | .firstName => .text c.givenName
  | .lastName => .text c.surname
  | .gender => .text c.gender
  | .nationality => .text c.nationality
  | .phoneCountryCode => .text c.phoneCountryCode
  | .phone => .text c.phone
  | .email => .text c.email
  | .dateOfBirth => .date c.dateOfBirth
  | .passportNumber => .text c.passportNumber
  | .passportExpiry => .date c.passportExpiry
  | .issuingCountry => .text c.issuingCountry
  | .loyaltyAirlineCode => .text c.loyaltyAirlineCode
  | .loyaltyAccountNumber => .text c.loyaltyAccountNumber
  | .ssrRequests => .json c.ssrRequests
  | .organization => .text c.organization

/-- `SET column = v.column` for the fields that are named. -/
def assign (named : Field → Bool) (v p : Columns) : Columns where
  passengerType := if named .passengerType then v.passengerType else p.passengerType
  title := if named .title then v.title else p.title
  givenName := if named .firstName then v.givenName else p.givenName
  surname := if named .lastName then v.surname else p.surname
  gender := if named .gender then v.gender else p.gender
  nationality := if named .nationality then v.nationality else p.nationality
  phoneCountryCode := if named .phoneCountryCode then v.phoneCountryCode else p.phoneCountryCode
  phone := if named .phone then v.phone else p.phone
  email := if named .email then v.email else p.email
  dateOfBirth := if named .dateOfBirth then v.dateOfBirth else p.dateOfBirth
  passportNumber := if named .passportNumber then v.passportNumber else p.passportNumber
  passportExpiry := if named .passportExpiry then v.passportExpiry else p.passportExpiry
  issuingCountry := if named .issuingCountry then v.issuingCountry else p.issuingCountry
  loyaltyAirlineCode := if named .loyaltyAirlineCode then v.loyaltyAirlineCode else p.loyaltyAirlineCode
  loyaltyAccountNumber :=
    if named .loyaltyAccountNumber then v.loyaltyAccountNumber else p.loyaltyAccountNumber
  ssrRequests := if named .ssrRequests then v.ssrRequests else p.ssrRequests
  organization := if named .organization then v.organization else p.organization

theorem cell_assign (named : Field → Bool) (v p : Columns) (f : Field) :
    (assign named v p).cell f = if named f then v.cell f else p.cell f := by
  cases f <;> simp only [assign, cell, apply_ite Cell.text, apply_ite Cell.date, apply_ite Cell.json]

theorem ext_cell {c c' : Columns} (h : ∀ f, c.cell f = c'.cell f) : c = c' := by
  rw [Field.forall_iff] at h
  simp only [cell, Cell.text.injEq, Cell.date.injEq, Cell.json.injEq] at h
  obtain ⟨h₁, h₂, h₃, h₄, h₅, h₆, h₇, h₈, h₉, h₁₀, h₁₁, h₁₂, h₁₃, h₁₄, h₁₅, h₁₆, h₁₇⟩ := h
  rw [Columns.mk.injEq]
  exact ⟨h₁, h₂, h₃, h₄, h₅, h₆, h₇, h₈, h₉, h₁₀, h₁₁, h₁₂, h₁₃, h₁₄, h₁₅, h₁₆, h₁₇⟩

/-! ## Constraints -/

/-- `NOT NULL`, and a check that null passes. -/
def required (x : Option String) (p : String → Bool) : Bool := x.isSome && x.all p

def ofLength (min max : Nat) (s : String) : Bool := min ≤ s.length && s.length ≤ max

/-- The constraints on the columns of a field, and those of the table on the title and on the phone. -/
def constraints (c : Columns) : List Bool :=
  [required c.passengerType (· ∈ ["ADT", "CHD", "CNN", "INF", "INS"]),
    required c.title (· ∈ ["Mr", "Mrs", "Ms", "Mstr", "Miss"]),
    required c.givenName (ofLength 1 60),
    required c.surname (ofLength 1 60),
    required c.gender (· ∈ ["Male", "Female"]),
    required c.nationality fun s => s.length = 2 && s.toList.all isAsciiUpper,
    c.phoneCountryCode.all fun s =>
      startsWith s "+" && ofLength 2 5 s && (s.toList.drop 1).all isAsciiDigit,
    c.phone.all fun s => ofLength 6 15 s && s.toList.all isAsciiDigit,
    c.email.all (ofLength 0 254),
    c.passportNumber.all fun s =>
      ofLength 5 20 s && s.toList.all fun x => isAsciiUpper x || isAsciiDigit x,
    c.issuingCountry.all fun s => s.length = 2 && s.toList.all isAsciiUpper,
    c.loyaltyAirlineCode.all fun s =>
      ofLength 2 10 s && s.toList.all fun x => isAsciiUpper x || isAsciiDigit x,
    c.loyaltyAccountNumber.all (ofLength 0 50),
    c.ssrRequests.any fun v => v.asArray?.isSome,
    c.organization.all (ofLength 0 120),
    -- passenger_profiles_title_match_check
    (c.passengerType, c.gender, c.title) ∈
      [(some "ADT", some "Male", some "Mr"), (some "ADT", some "Female", some "Ms"),
        (some "ADT", some "Female", some "Mrs")] ||
      (c.passengerType ∈ [some "CHD", some "CNN", some "INF", some "INS"] &&
        (c.gender, c.title) ∈ [(some "Male", some "Mstr"), (some "Female", some "Miss")]),
    -- passenger_profiles_phone_pair_check
    c.phone.isSome == c.phoneCountryCode.isSome]

def Allowed (c : Columns) : Prop := ∀ b ∈ c.constraints, b = true

instance (c : Columns) : Decidable c.Allowed := inferInstanceAs (Decidable (∀ b ∈ c.constraints, b = true))

/-! ## Shown -/

def coalesce (x : Option String) : Value := .str (x.getD "")

/-- What `portal_passenger_json` shows of the column of a field. -/
def json (c : Columns) : Field → Value
  | .passengerType => coalesce c.passengerType
  | .title => coalesce c.title
  | .firstName => coalesce c.givenName
  | .lastName => coalesce c.surname
  | .gender => coalesce c.gender
  | .nationality => coalesce c.nationality
  | .phoneCountryCode => coalesce c.phoneCountryCode
  | .phone => coalesce c.phone
  | .email => coalesce c.email
  | .dateOfBirth => coalesce (c.dateOfBirth.map dateText)
  | .passportNumber => coalesce c.passportNumber
  | .passportExpiry => coalesce (c.passportExpiry.map dateText)
  | .issuingCountry => coalesce c.issuingCountry
  | .loyaltyAirlineCode => coalesce c.loyaltyAirlineCode
  | .loyaltyAccountNumber => coalesce c.loyaltyAccountNumber
  | .ssrRequests => c.ssrRequests.getD .null
  | .organization => coalesce c.organization

end Columns

/-! ## Records -/

/-- An empty text is null. -/
def blank (v : Value) : Value := if v = .str "" then .null else v

/-- `record`. -/
def record (d : PassengerData) : Value :=
  .object (Field.all.map fun f => (f.column, blank (d.toValue.field f.api)))

def textCell : Value → Option (Option String)
  | .null => some none
  | .str s => some (some s)
  | _ => none

/-- The database reads a date that is written in full, from the year 1 on. -/
def Texts.dateCell (k : Texts) : Value → Option (Option NaiveDate)
  | .null => some none
  | .str s => ((k.parseDate s).filter fun d => 1 ≤ d.year).map some
  | _ => none

def jsonCell : Value → Option Value
  | .null => none
  | v => some v

/-- The texts of a record hold no null character: `jsonb` takes none. -/
def storable (d : PassengerData) : Bool :=
  (Field.all.all fun f => (d.value f).asStr?.all fun s => Char.ofNat 0 ∉ s.toList) &&
    d.ssrRequests.all fun r => Char.ofNat 0 ∉ r.code.toList ∧ Char.ofNat 0 ∉ r.remark.toList

/-- `jsonb_populate_record`. -/
def Texts.populate (k : Texts) (v : Value) : Option Columns := do
  let text (f : Field) : Option (Option String) := textCell (v.field f.column)
  let date (f : Field) : Option (Option NaiveDate) := k.dateCell (v.field f.column)
  return {
    passengerType := ← text .passengerType
    title := ← text .title
    givenName := ← text .firstName
    surname := ← text .lastName
    gender := ← text .gender
    nationality := ← text .nationality
    phoneCountryCode := ← text .phoneCountryCode
    phone := ← text .phone
    email := ← text .email
    dateOfBirth := ← date .dateOfBirth
    passportNumber := ← text .passportNumber
    passportExpiry := ← date .passportExpiry
    issuingCountry := ← text .issuingCountry
    loyaltyAirlineCode := ← text .loyaltyAirlineCode
    loyaltyAccountNumber := ← text .loyaltyAccountNumber
    ssrRequests := jsonCell (v.field Field.ssrRequests.column)
    organization := ← text .organization }

/-- Reading the column of a field. -/
def Texts.cell (k : Texts) (f : Field) (v : Value) : Option Cell :=
  match f with
  | .dateOfBirth | .passportExpiry => (k.dateCell v).map .date
  | .ssrRequests => some (.json (jsonCell v))
  | _ => (textCell v).map .text

theorem Texts.populate_eq_some {k : Texts} {v : Value} {c : Columns} :
    k.populate v = some c ↔ ∀ f : Field, k.cell f (v.field f.column) = some (c.cell f) := by
  rw [Field.forall_iff]
  unfold populate
  simp only [bind_eq_some, Option.pure_def, Option.some.injEq, Texts.cell, Columns.cell,
    Option.map_eq_some_iff, Cell.text.injEq, Cell.date.injEq, Cell.json.injEq, exists_eq_right]
  constructor
  · rintro ⟨_, h₁, _, h₂, _, h₃, _, h₄, _, h₅, _, h₆, _, h₇, _, h₈, _, h₉, _, h₁₀, _, h₁₁, _, h₁₂, _, h₁₃, _, h₁₄, _, h₁₅, _, h₁₆, rfl⟩
    exact ⟨h₁, h₂, h₃, h₄, h₅, h₆, h₇, h₈, h₉, h₁₀, h₁₁, h₁₂, h₁₃, h₁₄, h₁₅, rfl, h₁₆⟩
  · rintro ⟨h₁, h₂, h₃, h₄, h₅, h₆, h₇, h₈, h₉, h₁₀, h₁₁, h₁₂, h₁₃, h₁₄, h₁₅, hjson, h₁₆⟩
    refine ⟨_, h₁, _, h₂, _, h₃, _, h₄, _, h₅, _, h₆, _, h₇, _, h₈, _, h₉, _, h₁₀, _, h₁₁, _, h₁₂, _, h₁₃, _, h₁₄, _, h₁₅, _, h₁₆, ?_⟩
    rw [hjson]

/-! ## What is shown of a record -/

theorem PassengerData.get?_toValue (d : PassengerData) (f : Field) : d.toValue.get? f.api = some (d.value f) := by
  unfold toValue
  exact Value.get?_object_map Field.api_nodup d.value (Field.mem_all f)

theorem field_record (d : PassengerData) (f : Field) : (record d).field f.column = blank (d.value f) := by
  unfold record
  rw [Value.field_of_get? (Value.get?_object_map Field.column_nodup
    (fun f => blank (d.toValue.field f.api)) (Field.mem_all f)), Value.field_of_get? (d.get?_toValue f)]

/-- The dates of the data are empty or written in full. -/
def Dated (k : Texts) (d : PassengerData) : Prop :=
  ∀ s ∈ [d.dateOfBirth, d.passportExpiry], ∃ date, k.date s = .ok date

theorem textCell_blank {s : String} {x : Option String} (h : textCell (blank (.str s)) = some x) :
    Columns.coalesce x = .str s := by
  unfold blank at h
  split at h
  · rename_i hs
    cases hs
    cases h
    rfl
  · cases h
    rfl

theorem Texts.date_eq_some {k : Texts} {s : String} {date : NaiveDate} :
    k.date s = .ok (some date) ↔
      s ≠ "" ∧ s.utf8ByteSize = 10 ∧ k.parseDate s = some date ∧ dateText date = s := by
  unfold Texts.date
  split
  · rename_i hs
    simp [hs]
  · rename_i hs
    simp only [bind_eq_ok, ensure_eq_ok, fetch_eq_ok, pure_eq_ok, exists_const, Option.some.injEq]
    constructor
    · rintro ⟨hsize, parsed, hparsed, htext, rfl⟩
      exact ⟨hs, hsize, hparsed, htext⟩
    · rintro ⟨-, hsize, hparsed, htext⟩
      exact ⟨hsize, date, hparsed, htext, rfl⟩

theorem dateCell_blank {k : Texts} {s : String} {date x : Option NaiveDate} (hdate : k.date s = .ok date)
    (h : k.dateCell (blank (.str s)) = some x) : Columns.coalesce (x.map dateText) = .str s := by
  unfold blank at h
  split at h
  · rename_i hs
    cases hs
    cases h
    rfl
  · rename_i hs
    have hne : s ≠ "" := fun heq => hs (heq ▸ rfl)
    cases date with
    | none =>
      unfold Texts.date at hdate
      rw [if_neg hne] at hdate
      simp only [bind_eq_ok, pure_eq_ok, reduceCtorEq, and_false, exists_false] at hdate
    | some parsed =>
      obtain ⟨-, -, hparsed, htext⟩ := Texts.date_eq_some.mp hdate
      simp only [Texts.dateCell, hparsed, Option.filter_some, Option.map_eq_some_iff] at h
      obtain ⟨read, hread, rfl⟩ := h
      split at hread
      · cases hread
        show Value.str (dateText parsed) = .str s
        rw [htext]
      · cases hread

/-- A row that was read from the record of dated data shows the data. -/
theorem json_populate {k : Texts} {d : PassengerData} {c : Columns} (hdated : Dated k d)
    (h : k.populate (record d) = some c) (f : Field) : c.json f = d.value f := by
  have hcell := Texts.populate_eq_some.mp h f
  rw [field_record] at hcell
  obtain ⟨born, hborn⟩ := hdated d.dateOfBirth List.mem_cons_self
  obtain ⟨expiry, hexpiry⟩ := hdated d.passportExpiry (List.mem_cons_of_mem _ List.mem_cons_self)
  cases f with
  | dateOfBirth =>
    simp only [Texts.cell, Columns.cell, Option.map_eq_some_iff, Cell.date.injEq, exists_eq_right] at hcell
    exact dateCell_blank hborn hcell
  | passportExpiry =>
    simp only [Texts.cell, Columns.cell, Option.map_eq_some_iff, Cell.date.injEq, exists_eq_right] at hcell
    exact dateCell_blank hexpiry hcell
  | ssrRequests =>
    simp only [Texts.cell, Columns.cell, Option.some.injEq, Cell.json.injEq] at hcell
    show c.ssrRequests.getD .null = _
    rw [← hcell]
    rfl
  | _ =>
    simp only [Texts.cell, Columns.cell, Option.map_eq_some_iff, Cell.text.injEq, exists_eq_right] at hcell
    exact textCell_blank hcell

end ShaponTravels.Passengers
