import ShaponTravels.Booking.Party
import ShaponTravels.Trimmed

/-!
# Profile — a saved passenger as a request, a row and the JSON of a row

A request carries the seventeen fields as texts.  `normalize` and `validate` work on these, `record` maps
them to the columns, an empty text becoming null, and `portal_passenger_json` shows a row with null as the
empty text.
-/

namespace ShaponTravels.Passengers

open Library
open Booking (NaiveDate)

def invalid : ApiError := ⟨.badRequest, "INVALID_PASSENGER"⟩
def missing : ApiError := ⟨.notFound, "PASSENGER_NOT_FOUND"⟩

/-! ## Fields -/

inductive Field where
  | passengerType
  | title
  | firstName
  | lastName
  | gender
  | nationality
  | phoneCountryCode
  | phone
  | email
  | dateOfBirth
  | passportNumber
  | passportExpiry
  | issuingCountry
  | loyaltyAirlineCode
  | loyaltyAccountNumber
  | ssrRequests
  | organization
  deriving DecidableEq, Repr

namespace Field

/-- The name of a field in a request. -/
def api : Field → String
  | passengerType => "passengerType"
  | title => "title"
  | firstName => "firstName"
  | lastName => "lastName"
  | gender => "gender"
  | nationality => "nationality"
  | phoneCountryCode => "phoneCountryCode"
  | phone => "phone"
  | email => "email"
  | dateOfBirth => "dateOfBirth"
  | passportNumber => "passportNumber"
  | passportExpiry => "passportExpiry"
  | issuingCountry => "issuingCountry"
  | loyaltyAirlineCode => "loyaltyAirlineCode"
  | loyaltyAccountNumber => "loyaltyAccountNumber"
  | ssrRequests => "ssrRequests"
  | organization => "organization"

/-- The column a field is kept in. -/
def column : Field → String
  | passengerType => "passenger_type"
  | title => "title"
  | firstName => "given_name"
  | lastName => "surname"
  | gender => "gender"
  | nationality => "nationality"
  | phoneCountryCode => "phone_country_code"
  | phone => "phone"
  | email => "email"
  | dateOfBirth => "date_of_birth"
  | passportNumber => "passport_number"
  | passportExpiry => "passport_expiry"
  | issuingCountry => "issuing_country"
  | loyaltyAirlineCode => "loyalty_airline_code"
  | loyaltyAccountNumber => "loyalty_account_number"
  | ssrRequests => "ssr_requests"
  | organization => "organization"

/-- `FIELDS`. -/
def all : List Field :=
  [passengerType, title, firstName, lastName, gender, nationality, phoneCountryCode, phone, email,
    dateOfBirth, passportNumber, passportExpiry, issuingCountry, loyaltyAirlineCode,
    loyaltyAccountNumber, ssrRequests, organization]

theorem mem_all (f : Field) : f ∈ all := by cases f <;> decide

theorem api_nodup : (all.map api).Nodup := by decide

theorem column_nodup : (all.map column).Nodup := by decide

end Field

/-! ## Requests -/

structure SsrRequest where
  code : String
  remark : String
  deriving DecidableEq, Repr

structure PassengerData where
  passengerType : String
  title : String
  firstName : String
  lastName : String
  gender : String
  nationality : String
  phoneCountryCode : String
  phone : String
  email : String
  dateOfBirth : String
  passportNumber : String
  passportExpiry : String
  issuingCountry : String
  loyaltyAirlineCode : String
  loyaltyAccountNumber : String
  ssrRequests : List SsrRequest
  organization : String
  deriving DecidableEq, Repr

def SsrRequest.toValue (r : SsrRequest) : Value :=
  .object [("code", .str r.code), ("remark", .str r.remark)]

/-- A request reads from its two fields and no other, or from a list of the two. -/
def SsrRequest.fromValue : Value → Option SsrRequest
  | .arr [.str code, .str remark] => some ⟨code, remark⟩
  | .obj fields => do
    guard (∀ f ∈ fields, f.1 ∈ ["code", "remark"])
    let code ← ((Value.obj fields).get? "code").bind Value.asStr?
    let remark ← ((Value.obj fields).get? "remark").bind Value.asStr?
    return ⟨code, remark⟩
  | _ => none

namespace PassengerData

/-- A field of `serde_json::to_value`. -/
def value (d : PassengerData) : Field → Value
  | .passengerType => .str d.passengerType
  | .title => .str d.title
  | .firstName => .str d.firstName
  | .lastName => .str d.lastName
  | .gender => .str d.gender
  | .nationality => .str d.nationality
  | .phoneCountryCode => .str d.phoneCountryCode
  | .phone => .str d.phone
  | .email => .str d.email
  | .dateOfBirth => .str d.dateOfBirth
  | .passportNumber => .str d.passportNumber
  | .passportExpiry => .str d.passportExpiry
  | .issuingCountry => .str d.issuingCountry
  | .loyaltyAirlineCode => .str d.loyaltyAirlineCode
  | .loyaltyAccountNumber => .str d.loyaltyAccountNumber
  | .ssrRequests => .arr (d.ssrRequests.map SsrRequest.toValue)
  | .organization => .str d.organization

def toValue (d : PassengerData) : Value := .object (Field.all.map fun f => (f.api, d.value f))

/-- `serde_json::from_value`: every field is there, a text or a list of requests, and no other is. -/
def fromValue (v : Value) : Option PassengerData := do
  let fields ← v.asObject?
  guard (∀ f ∈ fields, f.1 ∈ Field.all.map Field.api)
  let text (f : Field) : Option String := (v.get? f.api).bind Value.asStr?
  let requests ← (v.get? Field.ssrRequests.api).bind Value.asArray?
  return {
    passengerType := ← text .passengerType
    title := ← text .title
    firstName := ← text .firstName
    lastName := ← text .lastName
    gender := ← text .gender
    nationality := ← text .nationality
    phoneCountryCode := ← text .phoneCountryCode
    phone := ← text .phone
    email := ← text .email
    dateOfBirth := ← text .dateOfBirth
    passportNumber := ← text .passportNumber
    passportExpiry := ← text .passportExpiry
    issuingCountry := ← text .issuingCountry
    loyaltyAirlineCode := ← text .loyaltyAirlineCode
    loyaltyAccountNumber := ← text .loyaltyAccountNumber
    ssrRequests := ← requests.mapM SsrRequest.fromValue
    organization := ← text .organization }

end PassengerData

/-! ## Normalizing -/

/-- A country code that is there begins with a plus sign. -/
def plusSign (s : String) : String :=
  if s ≠ "" ∧ ¬ startsWith s "+" then String.ofList ('+' :: s.toList) else s

def SsrRequest.normalize (r : SsrRequest) : SsrRequest where
  code := toAsciiUppercase (trim r.code)
  remark := trim r.remark

def PassengerData.normalize (d : PassengerData) : PassengerData :=
  { d with
    firstName := trim d.firstName
    lastName := trim d.lastName
    phone := trim d.phone
    phoneCountryCode := plusSign (trim d.phoneCountryCode)
    email := toAsciiLowercase (trim d.email)
    passportNumber := toAsciiUppercase (trim d.passportNumber)
    nationality := toAsciiUppercase (trim d.nationality)
    issuingCountry := toAsciiUppercase (trim d.issuingCountry)
    loyaltyAirlineCode := toAsciiUppercase (trim d.loyaltyAirlineCode)
    loyaltyAccountNumber := trim d.loyaltyAccountNumber
    organization := trim d.organization
    ssrRequests := d.ssrRequests.map SsrRequest.normalize }

/-- What normalizing makes of the text of a field. -/
def Field.normalizeText : Field → String → String
  | .firstName | .lastName | .phone | .loyaltyAccountNumber | .organization => trim
  | .nationality | .passportNumber | .issuingCountry | .loyaltyAirlineCode =>
    fun s => toAsciiUppercase (trim s)
  | .email => fun s => toAsciiLowercase (trim s)
  | .phoneCountryCode => fun s => plusSign (trim s)
  | .passengerType | .title | .gender | .dateOfBirth | .passportExpiry | .ssrRequests => id

/-- The normalized value of a field, of a text or of a list of requests. -/
def Field.normalized (f : Field) (v : Value) : Option Value :=
  if f = .ssrRequests then do
    let items ← v.asArray?
    let requests ← items.mapM SsrRequest.fromValue
    return .arr (requests.map fun r => r.normalize.toValue)
  else v.asStr?.map fun s => .str (f.normalizeText s)

/-! ## Validating -/

def isAsciiUpper (c : Char) : Bool := 'A' ≤ c && c ≤ 'Z'
def isAsciiAlpha (c : Char) : Bool := isAsciiUpper c || ('a' ≤ c && c ≤ 'z')

def asciiCode (value : String) (min max : Nat) : Bool :=
  min ≤ value.utf8ByteSize && value.utf8ByteSize ≤ max &&
    value.toList.all fun c => isAsciiUpper c || isAsciiDigit c

def country (value : String) : Bool := value.utf8ByteSize = 2 && value.toList.all isAsciiUpper

def padded (width n : Nat) : List Char :=
  List.replicate (width - (Nat.toDigits 10 n).length) '0' ++ Nat.toDigits 10 n

/-- `NaiveDate::to_string`: a year of more than four digits, or before the year 0, has a sign. -/
def dateText (d : NaiveDate) : String :=
  let year :=
    if 0 ≤ d.year ∧ d.year ≤ 9999 then padded 4 d.year.natAbs
    else (if d.year < 0 then '-' else '+') :: padded 4 d.year.natAbs
  String.ofList (year ++ '-' :: padded 2 d.month ++ '-' :: padded 2 d.day)

/-- `years_ago`: where the year has no such day, the first of March. -/
def yearsAgo (today : NaiveDate) (years : Int) : NaiveDate :=
  if today.day ≤ NaiveDate.daysIn (today.year - years) today.month then
    { today with year := today.year - years }
  else ⟨today.year - years, 3, 1⟩

/-- What the checks use of the standard library and of `chrono`. -/
structure Texts where
  /-- `char::is_alphabetic` -/
  alphabetic : Char → Bool
  /-- `NaiveDate::parse_from_str` with `%Y-%m-%d` -/
  parseDate : String → Option NaiveDate

/-- `date`: none for an empty text, else the date that is written so. -/
def Texts.date (k : Texts) (value : String) : Except ApiError (Option NaiveDate) :=
  if value = "" then .ok none
  else do
    ensure (value.utf8ByteSize = 10) invalid
    let parsed ← fetch (k.parseDate value) invalid
    ensure (dateText parsed = value) invalid
    return some parsed

namespace PassengerData

def titleOk (d : PassengerData) : Bool :=
  if d.gender = "Male" then d.title = if d.passengerType = "ADT" then "Mr" else "Mstr"
  else if d.gender = "Female" then
    if d.passengerType = "ADT" then d.title ∈ ["Mrs", "Ms"] else d.title = "Miss"
  else false

def nameOk (k : Texts) (name : String) : Bool :=
  1 ≤ name.length && name.length ≤ 60 && name.toList.head?.any k.alphabetic &&
    name.toList.all fun c => k.alphabetic c || c ∈ " .'-".toList

def phoneOk (d : PassengerData) : Bool :=
  6 ≤ d.phone.utf8ByteSize && d.phone.utf8ByteSize ≤ 15 && d.phone.toList.all isAsciiDigit &&
    startsWith d.phoneCountryCode "+" && 2 ≤ d.phoneCountryCode.utf8ByteSize &&
    d.phoneCountryCode.utf8ByteSize ≤ 5 && (d.phoneCountryCode.toList.drop 1).all isAsciiDigit

def emailOk (email : String) : Bool :=
  email.utf8ByteSize ≤ 254 && !email.toList.any isWhitespace &&
    match email.toList.splitOn '@' with
    | [name, host] => name ≠ [] && '.' ∈ host && (host.splitOn '.').all fun part => part ≠ []
    | _ => false

/-- A passenger is of the age that the type says. -/
def ageOk (passengerType : String) (today dob : NaiveDate) : Bool :=
  let since (first : NaiveDate) := !dob.before first
  let upTo (last : NaiveDate) := !last.before dob
  let after (last : NaiveDate) := last.before dob
  if passengerType = "ADT" then since ⟨1900, 1, 1⟩ && upTo (yearsAgo today 12)
  else if passengerType ∈ ["CHD", "CNN"] then after (yearsAgo today 12) && upTo (yearsAgo today 2)
  else after (yearsAgo today 2) && upTo today

def documentsOk (d : PassengerData) : Bool :=
  (d.passportNumber = "" || asciiCode d.passportNumber 5 20) &&
    (d.issuingCountry = "" || country d.issuingCountry) &&
    (d.loyaltyAirlineCode = "" || asciiCode d.loyaltyAirlineCode 2 10) &&
    d.loyaltyAccountNumber.utf8ByteSize ≤ 50 &&
    d.loyaltyAccountNumber.toList.all (fun c =>
      isAsciiAlpha c || isAsciiDigit c || c ∈ [' ', '.', '-']) &&
    d.organization.length ≤ 120 && d.ssrRequests.length ≤ 8

def requestsOk (d : PassengerData) : Bool :=
  d.ssrRequests.all (fun r => asciiCode r.code 2 10 && r.remark.length ≤ 250) &&
    decide (d.ssrRequests.map SsrRequest.code).Nodup

/-- `validate`; the date is that of the request, and matters where ages are checked. -/
def validate (k : Texts) (today : NaiveDate) (checkAge : Bool) (d : PassengerData) : Except ApiError Unit := do
  ensure (d.passengerType ∈ ["ADT", "CHD", "CNN", "INF", "INS"]) invalid
  ensure (d.titleOk ∧ country d.nationality) invalid
  ensure (nameOk k d.firstName ∧ nameOk k d.lastName) invalid
  ensure (d.phone = "" ↔ d.phoneCountryCode = "") invalid
  ensure (d.phone = "" ∨ d.phoneOk) invalid
  ensure (d.email = "" ∨ emailOk d.email) invalid
  let dob ← k.date d.dateOfBirth
  let _ ← k.date d.passportExpiry
  ensure (∀ born ∈ dob, checkAge → ageOk d.passengerType today born) ⟨.badRequest, "PASSENGER_DOB_MISMATCH"⟩
  ensure d.documentsOk invalid
  ensure d.requestsOk invalid

end PassengerData

/-! ## Reading requests -/

theorem Field.forall_iff {P : Field → Prop} :
    (∀ f, P f) ↔ P .passengerType ∧ P .title ∧ P .firstName ∧ P .lastName ∧ P .gender ∧ P .nationality ∧
      P .phoneCountryCode ∧ P .phone ∧ P .email ∧ P .dateOfBirth ∧ P .passportNumber ∧ P .passportExpiry ∧
      P .issuingCountry ∧ P .loyaltyAirlineCode ∧ P .loyaltyAccountNumber ∧ P .ssrRequests ∧
      P .organization := by
  constructor
  · intro h
    exact ⟨h _, h _, h _, h _, h _, h _, h _, h _, h _, h _, h _, h _, h _, h _, h _, h _, h _⟩
  · rintro ⟨h₁, h₂, h₃, h₄, h₅, h₆, h₇, h₈, h₉, h₁₀, h₁₁, h₁₂, h₁₃, h₁₄, h₁₅, h₁₆, h₁₇⟩ f
    cases f <;> assumption

theorem SsrRequest.fromValue_toValue (r : SsrRequest) : fromValue r.toValue = some r := by
  have hlt : ¬ "remark" = "code" ∧ ¬ "remark" < "code" := by decide
  have hvalue : r.toValue = .obj [("code", .str r.code), ("remark", .str r.remark)] := by
    show Value.obj (Value.insertField "remark" (.str r.remark) [("code", .str r.code)]) = _
    rw [Value.insertField, if_neg hlt.1, if_neg hlt.2]
    rfl
  rw [hvalue]
  simp [fromValue, Value.get?, Value.asStr?, guard]

/-- What a field of the data is read from. -/
def Field.Reads (f : Field) (v : Value) (d : PassengerData) : Prop :=
  if f = .ssrRequests then ∃ items, v = .arr items ∧ items.mapM SsrRequest.fromValue = some d.ssrRequests
  else v = d.value f

namespace PassengerData

theorem fromValue_eq_some {v : Value} {d : PassengerData} :
    fromValue v = some d ↔
      (∃ fields, v = .obj fields ∧ ∀ f ∈ fields, f.1 ∈ Field.all.map Field.api) ∧
      ∀ f : Field, ∃ x, v.get? f.api = some x ∧ f.Reads x d := by
  rw [Field.forall_iff]
  unfold fromValue
  simp only [bind_eq_some, guard_eq_some, Option.bind_eq_some_iff, Value.asStr?_eq_some,
    Value.asArray?_eq_some, Value.asObject?_eq_some, Option.pure_def, Option.some.injEq, Field.Reads,
    exists_eq_right, reduceCtorEq, if_false, if_true, exists_const, value]
  constructor
  · rintro ⟨fields, rfl, hkeys, items, hitems, _, h₁, _, h₂, _, h₃, _, h₄, _, h₅, _, h₆, _, h₇, _, h₈, _, h₉, _, h₁₀, _, h₁₁, _, h₁₂, _, h₁₃, _, h₁₄, _, h₁₅,
      requests, hrequests, _, h₁₆, rfl⟩
    exact ⟨⟨fields, rfl, hkeys⟩, h₁, h₂, h₃, h₄, h₅, h₆, h₇, h₈, h₉, h₁₀, h₁₁, h₁₂, h₁₃, h₁₄, h₁₅,
      ⟨_, hitems, items, rfl, hrequests⟩, h₁₆⟩
  · rintro ⟨⟨fields, rfl, hkeys⟩, h₁, h₂, h₃, h₄, h₅, h₆, h₇, h₈, h₉, h₁₀, h₁₁, h₁₂, h₁₃, h₁₄, h₁₅,
      ⟨_, hitems, items, rfl, hrequests⟩, h₁₆⟩
    exact ⟨fields, rfl, hkeys, items, hitems, _, h₁, _, h₂, _, h₃, _, h₄, _, h₅, _, h₆, _, h₇, _, h₈, _, h₉, _, h₁₀, _, h₁₁, _, h₁₂, _, h₁₃, _, h₁₄, _, h₁₅,
      _, hrequests, _, h₁₆, rfl⟩

end PassengerData

theorem mapM_toValue (requests : List SsrRequest) :
    (requests.map SsrRequest.toValue).mapM SsrRequest.fromValue = some requests := by
  induction requests with
  | nil => rfl
  | cons r requests ih =>
    rw [List.map_cons, List.mapM_cons, SsrRequest.fromValue_toValue, ih]
    rfl

theorem Field.reads_value (f : Field) (d : PassengerData) : f.Reads (d.value f) d := by
  unfold Field.Reads
  split
  · rename_i hf
    subst hf
    exact ⟨_, rfl, mapM_toValue _⟩
  · rfl

/-! ## Normalizing twice -/

theorem Field.Reads.normalized {f : Field} {v : Value} {d : PassengerData} (h : f.Reads v d) :
    f.normalized v = some (d.normalize.value f) := by
  unfold Field.Reads at h
  unfold Field.normalized
  split at h
  · rename_i hf
    subst hf
    obtain ⟨items, rfl, hread⟩ := h
    rw [if_pos rfl]
    show (items.mapM SsrRequest.fromValue >>= fun requests => _) = _
    rw [hread]
    show some (Value.arr _) = some (Value.arr ((d.ssrRequests.map SsrRequest.normalize).map SsrRequest.toValue))
    rw [List.map_map]
    rfl
  · rename_i hf
    rw [if_neg hf, h]
    cases f <;> first | rfl | exact absurd rfl hf

theorem upper_trim_idem (s : String) :
    toAsciiUppercase (trim (toAsciiUppercase (trim s))) = toAsciiUppercase (trim s) := by
  rw [trim_of_trimmed (trimmed_trim s).toAsciiUppercase, toAsciiUppercase_idem]

theorem lower_trim_idem (s : String) :
    toAsciiLowercase (trim (toAsciiLowercase (trim s))) = toAsciiLowercase (trim s) := by
  rw [trim_of_trimmed (trimmed_trim s).toAsciiLowercase, toAsciiLowercase_idem]

/-- A plus sign before a trimmed text leaves it trimmed. -/
theorem trimmed_plusSign {s : String} (h : Trimmed s) : Trimmed (plusSign s) := by
  unfold plusSign
  split
  · rename_i hs
    rw [Trimmed, String.toList_ofList]
    constructor
    · intro c hc
      cases hc
      decide
    · intro c hc
      apply h.2
      cases hlist : s.toList with
      | nil => exact absurd (String.toList_eq_nil_iff.mp hlist) hs.1
      | cons d rest =>
        rw [hlist, List.getLast?_cons_cons] at hc
        exact hc
  · exact h

theorem plusSign_idem (s : String) : plusSign (plusSign s) = plusSign s := by
  by_cases hs : s ≠ "" ∧ ¬ startsWith s "+"
  · have hplus : startsWith (plusSign s) "+" := by
      rw [plusSign, if_pos hs, startsWith]
      show ('+' :: []).isPrefixOf (String.ofList ('+' :: s.toList)).toList = true
      rw [String.toList_ofList]
      simp
    exact if_neg fun h => h.2 hplus
  · have hkept : plusSign s = s := if_neg hs
    rw [hkept, hkept]

theorem plusSign_trim_idem (s : String) : plusSign (trim (plusSign (trim s))) = plusSign (trim s) := by
  rw [trim_of_trimmed (trimmed_plusSign (trimmed_trim s)), plusSign_idem]

theorem SsrRequest.normalize_idem (r : SsrRequest) : r.normalize.normalize = r.normalize := by
  show SsrRequest.mk _ _ = SsrRequest.mk _ _
  rw [SsrRequest.mk.injEq]
  exact ⟨upper_trim_idem r.code, trim_trim r.remark⟩

theorem PassengerData.normalize_idem (d : PassengerData) : d.normalize.normalize = d.normalize := by
  have hrequests : (d.ssrRequests.map SsrRequest.normalize).map SsrRequest.normalize =
      d.ssrRequests.map SsrRequest.normalize := by
    rw [List.map_map]
    exact List.map_congr_left fun r _ => r.normalize_idem
  simp only [normalize, trim_trim, upper_trim_idem, lower_trim_idem, plusSign_trim_idem, hrequests]

end ShaponTravels.Passengers
