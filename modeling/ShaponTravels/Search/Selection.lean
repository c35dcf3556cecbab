import Mathlib.Data.Option.Basic
import ShaponTravels.Json
import ShaponTravels.Library.KeyedScan
import ShaponTravels.Pricing.BigDecimal

/-!
# Selection — equivalent offers and their supplier totals

`selection.rs`: the key two offers share when they are the same fare, and the selection of the
cheapest offers among those with one key.
-/

namespace ShaponTravels.Search.Selection

open Library

/-! ## The equivalence key -/

/-- Where in an offer a value stands, as far as the key treats it specially. -/
inductive KeyContext where
  | offer
  | components
  | component
  | fares
  | fare
  | directions
  | route
  | direction
  | segments
  | segment
  | other
  deriving DecidableEq, Repr

namespace KeyContext

def excludes (c : KeyContext) (field : String) : Bool :=
  match c with
  | .offer =>
    ["avlSrc", "uniqueTransID", "itemCodeRef", "totalPrice", "previousTotalFare"].contains field
  | .component => ["fareReference", "totalPrice", "discountPrice"].contains field
  | .fare => ["totalPrice", "discountPrice"].contains field
  | .segment => ["cabinClass", "segmentCodeRef"].contains field
  | _ => false

def field (c : KeyContext) (key : String) : KeyContext :=
  match c, key with
  | .offer, "bookingComponents" => .components
  | .offer, "passengerFares" => .fares
  | .offer, "directions" => .directions
  | .fares, _ => .fare
  | .direction, "segments" => .segments
  | _, _ => .other

def element : KeyContext → KeyContext
  | .components => .component
  | .directions => .route
  | .route => .direction
  | .segments => .segment
  | _ => .other

end KeyContext

mutual

/-- The text of a `KeyView`: the value without the fields its context excludes. -/
def keyText : KeyContext → Value → String
  | c, .obj fields =>
    if c = .other then (Value.obj fields).text
    else "\x7b" ++ ",".intercalate (keyFields c fields) ++ "\x7d"
  | c, .arr values =>
    if c = .other then (Value.arr values).text
    else "[" ++ ",".intercalate (keyElements c values) ++ "]"
  | _, .null => Value.null.text
  | _, .bool b => (Value.bool b).text
  | _, .num lexeme => (Value.num lexeme).text
  | _, .str s => (Value.str s).text

def keyFields : KeyContext → List (String × Value) → List String
  | _, [] => []
  | c, (key, v) :: fields =>
    if c.excludes key then keyFields c fields
    else (Value.quoted key ++ ":" ++ keyText (c.field key) v) :: keyFields c fields

def keyElements : KeyContext → List Value → List String
  | _, [] => []
  | c, v :: values => keyText c.element v :: keyElements c values

end

/-- `text`: the field is there and holds a text that is not blank. -/
def hasText (v : Value) (field : String) : Bool :=
  ((v.get? field).bind Value.asStr?).any fun s => trim s ≠ ""

/-- The texts every segment must have. -/
def segmentTexts : List String :=
  ["from", "to", "departure", "arrival", "airlineCode", "flightNumber", "bookingClass",
    "serviceClass", "fareBasisCode", "handBaggage"]

/-- The checks on the baggage of a segment. -/
def baggageComplete (required : List String) (segment : Value) : Bool :=
  match (segment.get? "baggage").bind Value.asArray? with
  | none => false
  | some baggage =>
    !baggage.isEmpty &&
      (baggage.all fun allowance => hasText allowance "passengerTypeCode" &&
        hasText allowance "units" && (allowance.get? "amount").any Value.isNumber) &&
      required.all fun kind =>
        baggage.any fun b => (b.field "passengerTypeCode").asStr? = some kind

/-- The cabin label of a segment: absent, null and blank labels are no label. -/
def cabinLabel (segment : Value) : Option (Option String) :=
  match segment.get? "cabinClass" with
  | none | some .null => some none
  | some (.str label) => some (if trim label = "" then none else some label)
  | some _ => none

/-- The segments of the only alternative of a route. -/
def routeSegments (route : Value) : Option (List Value) := do
  let alternatives ← route.asArray?
  guard (alternatives.length = 1)
  let alternative ← alternatives.head?
  let segments ← (alternative.get? "segments").bind Value.asArray?
  guard (segments ≠ [])
  return segments

def segmentCabin (required : List String) (segment : Value) : Option (Option String) := do
  guard (segmentTexts.all (hasText segment))
  guard (baggageComplete required segment)
  cabinLabel segment

/-- `equivalence_key`: the key of an offer and the cabin labels of its segments. -/
def equivalenceKey (original : Value) : Option (String × List (Option String)) := do
  let codeShared ← (original.get? "isCodeShared").bind Value.asBool?
  guard (!codeShared ∧ original.field "hasExtraService" = .bool false)
  let _ ← (original.get? "refundable").bind Value.asBool?
  let _ ← (original.get? "rbdChangeAllowed").bind Value.asBool?
  let _ ← (original.get? "bookable").bind Value.asBool?
  guard (hasText original "platingCarrier")
  let passengers ← (original.get? "passengerCounts").bind Value.asObject?
  let counts ← passengers.mapM fun p => p.2.asU64?.map fun count => (p.1, count)
  let required := (counts.filter fun c => 0 < c.2).map fun c => toAsciiUppercase c.1
  let components ← (original.get? "bookingComponents").bind Value.asArray?
  guard (components.length = 1 ∧ components.all Value.isObject)
  let fares ← (original.get? "passengerFares").bind Value.asObject?
  guard (fares.all fun f => f.2.isNull || f.2.isObject)
  let directions ← (original.get? "directions").bind Value.asArray?
  guard (directions ≠ [])
  let segments ← directions.mapM routeSegments
  let cabins ← segments.flatten.mapM (segmentCabin required)
  return (keyText .offer original, cabins)

/-! ## Cabin conflicts -/

/-- What the first pass keeps for a key: the labels known so far, and whether the key is in the
set of conflicts. -/
structure Cabins where
  known : List (Option String)
  conflict : Bool
  deriving DecidableEq, Repr

/-- Two labels of one segment that differ. -/
def labelsDiffer : Option String × Option String → Bool
  | (some a, some b) => a ≠ b
  | _ => false

/-- The first pass on the labels of one more offer with a key. -/
def noteCabins (state : Option Cabins) (cabins : List (Option String)) : Cabins :=
  match state with
  | none => ⟨cabins, false⟩
  | some s =>
    if s.known.length ≠ cabins.length then { s with conflict := true }
    else
      { known := List.zipWith (fun prior current => prior.or current) s.known cabins
        conflict := s.conflict || (s.known.zip cabins).any labelsDiffer }

/-- An offer as the search has it: the supplier and the original response. -/
abbrev Offer := String × Value

def knownCabins (offers : List Offer) : List (String × Cabins) :=
  keyedScan Prod.fst (fun state keyed => noteCabins state keyed.2)
    (offers.filterMap fun offer => equivalenceKey offer.2)

def conflicted (offers : List Offer) (key : String) : Bool :=
  (findKey key (knownCabins offers)).any Cabins.conflict

/-! ## Winners -/

/-- The total an offer is compared by, when it is a number. -/
def numericTotal (offer : Offer) : Option BigDecimal :=
  ((offer.2.get? "totalPrice").filter Value.isNumber).bind fun v => BigDecimal.parse v.text

/-- The position of a supplier in the priority list. -/
def rank (priority : List String) (supplier : String) : Option Nat :=
  priority.findIdx? fun id => id = supplier

/-- The lowest offers of a key so far. -/
structure Group where
  lowest : BigDecimal
  indices : List Nat
  deriving DecidableEq, Repr

/-- The order of an offer relative to a group: its total, then its supplier's rank. -/
def ordering (offers : List Offer) (priority : List String) (supplier : String)
    (total : BigDecimal) (g : Group) : Ordering :=
  (total.cmp g.lowest).then
    (match rank priority supplier,
        rank priority ((g.indices.head?.bind fun i => offers[i]?).elim "" Prod.fst) with
      | some a, some b => compare a b
      | _, _ => .eq)

structure Scan where
  groups : List (String × Group)
  retained : List Bool

/-- Drop the offers at some positions. -/
def drop (indices : List Nat) (retained : List Bool) : List Bool :=
  indices.foldl (fun kept i => kept.set i false) retained

/-- The second pass on the offer at one position. -/
def place (offers : List Offer) (priority : List String) (s : Scan) (index : Nat)
    (offer : Offer) : Scan :=
  match equivalenceKey offer.2 with
  | none => s
  | some (key, _) =>
    if conflicted offers key then s
    else
      match numericTotal offer with
      | none => s
      | some total =>
        match findKey key s.groups with
        | none => { s with groups := upsert key ⟨total, [index]⟩ s.groups }
        | some g =>
          match ordering offers priority offer.1 total g with
          | .lt =>
            { groups := upsert key ⟨total, [index]⟩ s.groups
              retained := drop g.indices s.retained }
          | .gt => { s with retained := drop [index] s.retained }
          | .eq =>
            { s with groups := upsert key { g with indices := g.indices ++ [index] } s.groups }

def scanned (offers : List Offer) (priority : List String) : Scan :=
  offers.zipIdx.foldl (fun s entry => place offers priority s entry.2 entry.1)
    ⟨[], List.replicate offers.length true⟩

/-- `winners`: the positions of the retained offers. -/
def winners (offers : List Offer) (priority : List String) : List Nat :=
  (scanned offers priority).retained.zipIdx.filterMap fun entry =>
    if entry.1 then some entry.2 else none

end ShaponTravels.Search.Selection
