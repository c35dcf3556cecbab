import ShaponTravels.Booking.Passengers

/-!
# Party — the passengers `Book` accepts

`booking::validate`: ages, names, documents and contacts of every passenger, and the party against
the counts of the offer.
-/

namespace ShaponTravels.Booking

open Library

/-! ## Dates -/

/-- `chrono::NaiveDate`. -/
structure NaiveDate where
  year : Int
  month : Nat
  day : Nat
  deriving DecidableEq, Repr

namespace NaiveDate

def before (a b : NaiveDate) : Bool :=
  a.year < b.year ||
    (a.year = b.year && (a.month < b.month || (a.month = b.month && a.day < b.day)))

/-- `years_since`. -/
def yearsSince (a base : NaiveDate) : Option Nat :=
  let birthday := a.month < base.month ∨ (a.month = base.month ∧ a.day < base.day)
  let years := a.year - base.year - if birthday then 1 else 0
  if 0 ≤ years then some years.toNat else none

def isLeap (year : Int) : Bool := year % 4 = 0 && (year % 100 ≠ 0 || year % 400 = 0)

def daysIn (year : Int) (month : Nat) : Nat :=
  if month = 2 then if isLeap year then 29 else 28
  else if month ∈ [4, 6, 9, 11] then 30
  else 31

/-- The years a date may have. -/
def inRange (d : NaiveDate) : Bool := -262143 ≤ d.year && d.year ≤ 262142

/-- `checked_add_months`: the day is cut to the length of the month. -/
def addMonths (d : NaiveDate) (n : Nat) : Option NaiveDate :=
  let months := d.month - 1 + n
  let year := d.year + (months / 12 : Nat)
  let month := months % 12 + 1
  (some ⟨year, month, min d.day (daysIn year month)⟩).filter inRange

def succ (d : NaiveDate) : NaiveDate :=
  if d.day < daysIn d.year d.month then { d with day := d.day + 1 }
  else if d.month < 12 then ⟨d.year, d.month + 1, 1⟩
  else ⟨d.year + 1, 1, 1⟩

/-- `checked_add_days`. -/
def addDays (d : NaiveDate) (n : Nat) : Option NaiveDate := (some (succ^[n] d)).filter inRange

example : yearsSince ⟨2026, 9, 29⟩ ⟨2024, 9, 30⟩ = some 1 ∧
    addMonths ⟨2026, 11, 30⟩ 3 = some ⟨2027, 2, 28⟩ ∧
    addDays ⟨2027, 2, 27⟩ 3 = some ⟨2027, 3, 2⟩ := by decide

end NaiveDate

/-! ## Checks -/

/-- What the checks use of the process and of its libraries. -/
structure Checks where
  casing : Casing
  /-- `NaiveDate::parse_from_str` with `%Y-%m-%d` -/
  parseDate : String → Option NaiveDate
  today : NaiveDate
  /-- `airport_countries.json` -/
  airportCountry : String → Option String

/-- `booking::date`. -/
def Checks.date (k : Checks) (s : String) : Except ApiError NaiveDate :=
  fetch (k.parseDate s) (error "INVALID_PASSENGER_DATE")

/-- `booking::country`. -/
def isCountry (s : String) : Bool := s.utf8ByteSize = 2 && s.toList.all fun c => 'A' ≤ c && c ≤ 'Z'

/-- `booking::text`. -/
def isText (s : String) (max : Nat) : Bool :=
  trim s ≠ "" && s.utf8ByteSize ≤ max && !s.toList.any isControl

/-- `valid_given_name`. -/
def validGivenName (s : String) : Bool := s.utf8ByteSize ≤ 100 && !s.toList.any isControl

/-- The countries of every stop, when all are known. -/
def Checks.stopCountries (k : Checks) (directions : Value) : Option (List String) := do
  let routes ← directions.asArray?
  let found ← routes.mapM fun route => do
    let options ← route.asArray?
    guard (options ≠ [])
    let found ← options.mapM fun option => do
      let segments ← (option.field "segments").asArray?
      guard (segments ≠ [])
      let found ← segments.mapM fun segment => ["from", "to"].mapM fun key => do
        let code ← (segment.field key).asStr?
        k.airportCountry (k.casing.uppercase (trim code))
      return found.flatten
    return found.flatten
  return found.flatten

/-- `passport_required`: fields of a passport are optional when every stop is in one country. -/
def Checks.passportRequired (k : Checks) (directions : Value) : Bool :=
  match k.stopCountries directions with
  | some (country :: rest) => !rest.all (· = country)
  | _ => true

/-- `portal_passport_bounds`. -/
def portalPassportBounds (first last : NaiveDate) : Except ApiError (NaiveDate × NaiveDate) := do
  let start := { first with day := 1 }
  let min ← fetch ((start.addMonths 3).bind fun d => d.addDays (first.day - 1))
    (error "INVALID_SAVED_REQUEST")
  let max ← fetch (first.addMonths 144) (error "INVALID_SAVED_REQUEST")
  return (if min.before last then last else min, max)

/-- The passenger type an age has. -/
def kindOfAge (age : Nat) : String :=
  if age ≤ 1 then "INF" else if age ≤ 4 then "CNN" else if age ≤ 11 then "CHD" else "ADT"

/-- The titles of a passenger type and gender. -/
def titles (kind gender : String) : List String :=
  match kind, gender with
  | "ADT", "Male" => ["Mr"]
  | "ADT", "Female" => ["Mrs", "Ms"]
  | _, "Male" => ["Mstr"]
  | _, "Female" => ["Miss"]
  | _, _ => []

def validName (kind : String) (p : Passenger) : Bool :=
  (titles kind p.gender).contains p.name.title && validGivenName p.name.firstName &&
    isText p.name.lastName 100 &&
    !p.name.middleName.any fun s => 100 < s.utf8ByteSize || s.toList.any isControl

/-- The passport a portal asks for on an international journey. -/
def Checks.portalDocument (k : Checks) (first last : NaiveDate) (d : Document) :
    Except ApiError Unit := do
  let (min, max) ← portalPassportBounds first last
  let expiry ← k.date d.expireDate
  ensure (¬ (expiry.before min ∨ max.before expiry) ∧ 5 ≤ d.documentNumber.utf8ByteSize ∧
    d.documentNumber.utf8ByteSize ≤ 20 ∧
    d.documentNumber.toList.all fun c => ('A' ≤ c && c ≤ 'Z') || isAsciiDigit c)
    (error "INVALID_TRAVEL_DOCUMENT")

/-- The fields of a document that is required or given. -/
def Checks.document (k : Checks) (required : Bool) (last : NaiveDate) (d : Document) :
    Except ApiError Unit := do
  if required ∨ ¬ (d.documentNumber = "" ∧ d.expireDate = "") then
    ensure (isText d.documentNumber 50) (error "INVALID_TRAVEL_DOCUMENT")
    let expiry ← k.date d.expireDate
    ensure (¬ expiry.before last ∧ isCountry d.issuingCountry) (error "INVALID_TRAVEL_DOCUMENT")
  ensure ((d.issuingCountry = "" ∨ isCountry d.issuingCountry) ∧ isCountry d.nationality ∧
    ¬ d.documentType.any (· ≠ "")) (error "INVALID_TRAVEL_DOCUMENT")

def validContact (c : Contact) : Bool :=
  isText c.phone 20 && c.phone.toList.all isAsciiDigit &&
    startsWith c.phoneCountryCode "+" && 2 ≤ c.phoneCountryCode.utf8ByteSize &&
    c.phoneCountryCode.utf8ByteSize ≤ 5 && (c.phoneCountryCode.toList.drop 1).all isAsciiDigit &&
    isCountry c.countryCode && isText c.email 254 && !c.email.toList.any isWhitespace &&
    (c.email.toList.splitOn '@').length = 2 && !startsWith c.email "@" &&
    c.email.toList.getLast? ≠ some '@' && !c.cityName.any fun s => !isText s 100

/-- The variables of the loop over the passengers. -/
structure Observed where
  kinds : List String
  ages : List Nat
  lead : Nat
  identities : List (String × String × NaiveDate)

/-- The body of the loop. -/
def Checks.passenger (k : Checks) (q : Quote) (first last : NaiveDate) (portalCheckout : Bool)
    (s : Observed) (p : Passenger) : Except ApiError Observed := do
  let birth ← k.date p.dateOfBirth
  ensure (¬ (portalCheckout ∧ ((p.passengerType = "ADT" ∧ birth.before ⟨1900, 1, 1⟩) ∨
    (p.passengerType ∈ ["INF", "INS"] ∧ k.today.before birth)))) (error "INVALID_PASSENGER_AGE")
  let age ← fetch (first.yearsSince birth) (error "INVALID_PASSENGER_AGE")
  let kind := kindOfAge age
  ensure (p.passengerType = kind) (error "PASSENGER_TYPE_AGE_MISMATCH")
  ensure (validName kind p) (error "INVALID_PASSENGER_NAME")
  let required := k.passportRequired ((q.original.field "item1").field "directions")
  if portalCheckout ∧ required then k.portalDocument first last p.document
  k.document required last p.document
  ensure (validContact p.contact) (error "INVALID_PASSENGER_CONTACT")
  let identity := (k.casing.lower p.name.firstName, k.casing.lower p.name.lastName, birth)
  ensure (identity ∉ s.identities) (error "DUPLICATE_PASSENGER")
  return { kinds := kind :: s.kinds
           ages := if kind ∈ ["CNN", "CHD"] then age :: s.ages else s.ages
           lead := s.lead + if p.isLeadPassenger = some true then 1 else 0
           identities := identity :: s.identities }

/-- `booking::validate` of the passengers of a request. -/
def Checks.validate (k : Checks) (passengers : List Passenger) (q : Quote)
    (portalCheckout : Bool) : Except ApiError Unit := do
  let routes ← fetch (q.request.field "routes").asArray? (error "INVALID_SAVED_REQUEST")
  let departure (route : Option Value) : Except ApiError NaiveDate := do
    let text ← fetch (route.bind fun r => (r.field "departureDate").asStr?)
      (error "INVALID_SAVED_REQUEST")
    k.date text
  let first ← departure routes.head?
  let last ← departure routes.getLast?
  let counts := (q.original.field "item1").field "passengerCounts"
  ensure (passengers ≠ [] ∧ passengers.length ≤ 9) (error "INVALID_PASSENGERS")
  let s ← passengers.foldlM (k.passenger q first last portalCheckout) ⟨[], [], 0, []⟩
  ensure (s.lead ≤ 1) (error "INVALID_LEAD_PASSENGER")
  ensure (["ADT", "CHD", "CNN", "INF", "INS"].all fun kind =>
    (counts.field (toAsciiLowercase kind)).asU64? = some (s.kinds.count kind))
    (error "PASSENGER_COUNT_MISMATCH")
  let ages ← fetch (q.request.field "childrenAges").asArray? (error "INVALID_SAVED_REQUEST")
  let expected := ages.map fun a => a.asU64?.getD (2 ^ 64 - 1)
  ensure (s.ages.mergeSort = expected.mergeSort) (error "CHILD_AGE_MISMATCH")

/-! ## Accepted parties -/

variable {k : Checks} {q : Quote} {first last : NaiveDate} {portalCheckout : Bool}

/-- Every accepted passenger has a last name. -/
theorem passenger_lastName {s s' : Observed} {p : Passenger}
    (h : k.passenger q first last portalCheckout s p = .ok s') : isText p.name.lastName 100 = true := by
  simp only [Checks.passenger, bind_eq_ok, ensure_eq_ok, exists_const] at h
  obtain ⟨_, -, -, age, -, -, hname, -⟩ := h
  simp only [validName, Bool.and_eq_true] at hname
  exact hname.1.2

theorem passengers_lastName {passengers : List Passenger} {s s' : Observed}
    (h : passengers.foldlM (k.passenger q first last portalCheckout) s = .ok s') :
    ∀ p ∈ passengers, isText p.name.lastName 100 = true := by
  induction passengers generalizing s with
  | nil => intro p hp; cases hp
  | cons p passengers ih =>
    simp only [List.foldlM_cons, bind_eq_ok] at h
    obtain ⟨middle, hfirst, hrest⟩ := h
    exact List.forall_mem_cons.mpr ⟨passenger_lastName hfirst, ih hrest⟩

theorem validate_lastName {passengers : List Passenger}
    (h : k.validate passengers q portalCheckout = .ok ()) :
    passengers ≠ [] ∧ ∀ p ∈ passengers, isText p.name.lastName 100 = true := by
  simp only [Checks.validate, bind_eq_ok, ensure_eq_ok, exists_const] at h
  obtain ⟨_, -, _, -, _, -, hlength, s, hs, -⟩ := h
  exact ⟨hlength.1, passengers_lastName hs⟩

theorem Passenger.field_nameElement (p : Passenger) :
    p.toValue.field "nameElement" = p.name.toValue := by
  rw [Passenger.toValue, Value.field, Value.get?_object]
  cases p.isLeadPassenger <;> simp [optionalField]

theorem Passenger.field_passengerType (p : Passenger) :
    p.toValue.field "passengerType" = .str p.passengerType := by
  rw [Passenger.toValue, Value.field, Value.get?_object]
  cases p.isLeadPassenger <;> simp [optionalField]

theorem Name.field_names (n : Name) :
    n.toValue.field "firstName" = .str n.firstName ∧
      n.toValue.field "lastName" = .str n.lastName := by
  constructor
  · rw [Name.toValue, Value.field, Value.get?_object]
    cases n.middleName <;> simp [optionalField]
  · rw [Name.toValue, Value.field, Value.get?_object]
    cases n.middleName <;> simp [optionalField]

/-- A passenger with a last name can be recognized on a ticket. -/
theorem Passenger.identity_isSome {p : Passenger} (cs : Casing)
    (h : isText p.name.lastName 100 = true) : (identity cs p.toValue).isSome := by
  obtain ⟨hfirst, hlast⟩ := p.name.field_names
  have htext : trim p.name.lastName ≠ "" := by
    simp only [isText, Bool.and_eq_true, decide_eq_true_eq] at h
    exact h.1.1
  have hspaced : singleSpaced p.name.lastName ≠ "" :=
    singleSpaced_ne_empty fun hall => htext (trim_eq_empty hall)
  have hname : cs.uppercase (singleSpaced p.name.lastName) ≠ "" := cs.uppercase_ne_empty hspaced
  simp [identity, p.field_nameElement, p.field_passengerType, hfirst, hlast, Value.asStr?, hname,
    guard]

end ShaponTravels.Booking
