import Mathlib.Data.List.ReduceOption
import ShaponTravels.Pricing.Arithmetic
import ShaponTravels.Pricing.Rules

/-!
# Projection — the selling fare of a supplier's offer

`pricing::price` and `projection.rs`.  Every fare of the offer is repriced on its own, the totals are
the sums over the passenger kinds, and the numbers are written into a copy of the offer.
-/

namespace ShaponTravels.Pricing

open Library BigDecimal

structure OriginalPassengerFare where
  supplierTotal : BigDecimal
  base : BigDecimal
  taxes : BigDecimal
  ait : BigDecimal
  count : Nat

structure SellingPassengerFare where
  total : BigDecimal
  discount : BigDecimal
  count : Nat

/-- `pricing::price`. -/
def price (original : OriginalPassengerFare) (markup : Markup) : SellingPassengerFare :=
  let amount := match markup with
    | .fixed amount => amount
    | .percentage percent => (original.supplierTotal.mulRef percent).mul ⟨1, 2⟩
  let total := (original.supplierTotal.add amount).withScaleRound 2
  { total := total
    discount := (original.base.add original.taxes).sub (total.sub original.ait)
    count := original.count }

inductive ProjectionError where
  | missingOrInvalidPrice
  | unverifiedCoverage
  deriving DecidableEq, Repr

/-- `projection::number`. -/
def number (v : Value) (key : String) : Except ProjectionError BigDecimal :=
  fetch (((v.get? key).filter Value.isNumber).bind fun n => BigDecimal.parse n.text)
    .missingOrInvalidPrice

/-- `projected_number`: a number takes the place of one that is there. -/
def projectedNumber (d : Decimals) (original : Value) (key : String) (amount : BigDecimal) :
    Except ProjectionError (Option Value) :=
  match original.get? key with
  | none => .ok none
  | some field => do
    ensure field.isNumber .missingOrInvalidPrice
    return some (.num (d.display amount))

/-- A passenger kind with its fares and the fields that change. -/
structure KindFare where
  kind : String
  original : OriginalPassengerFare
  selling : SellingPassengerFare
  total : Option Value
  discount : Option Value

/-- `Changes`. -/
structure Changes where
  passengers : List KindFare
  total : Option Value
  componentTotal : Option Value
  discount : Option Value

/-- The selling fare of a kind: its price under a markup, or the published base and taxes. -/
def sellingFare (fare : OriginalPassengerFare) :
    Option Markup → Except ProjectionError SellingPassengerFare
  | some markup => .ok (price fare markup)
  | none => do
    ensure (¬ (fare.base.isNegative ∨ fare.taxes.isNegative ∨ fare.supplierTotal.isNegative))
      .missingOrInvalidPrice
    let total := ((fare.base.withScaleRound 2).add (fare.taxes.withScaleRound 2)).withScale 2
    return { total := total, count := fare.count
             discount := (fare.base.add fare.taxes).sub (total.sub fare.ait) }

/-- A field that is absent or zero. -/
def absentOrZero (v : Value) (key : String) : Except ProjectionError Unit :=
  match v.get? key with
  | none => .ok ()
  | some _ => do
    let n ← number v key
    ensure (n.cmp (ofInt 0) = .eq) .unverifiedCoverage

/-- The body of the loop of `project`: a kind without passengers and without a fare is passed over. -/
def projectKind (d : Decimals) (fares : Value) (markup : Option Markup)
    (entry : String × Value) : Except ProjectionError (Option KindFare) := do
  let count ← fetch (entry.2.asU64?.filter fun n => n < 2 ^ 32) .missingOrInvalidPrice
  let fare := fares.field entry.1
  if count = 0 ∧ fare.isNull then return none
  else
    let supplierTotal ← number fare "totalPrice"
    let base ← number fare "basePrice"
    let taxes ← number fare "taxes"
    let ait ← number fare "ait"
    let original : OriginalPassengerFare := ⟨supplierTotal, base, taxes, ait, count⟩
    absentOrZero fare "serviceCharge"
    let selling ← sellingFare original markup
    let total ← projectedNumber d fare "totalPrice" selling.total
    let discount ← projectedNumber d fare "discountPrice" selling.discount
    return some ⟨entry.1, original, selling, total, discount⟩

/-- The sum of a product over the kinds, from zero on. -/
def summed {α : Type} (product : α → BigDecimal) (kinds : List α) : BigDecimal :=
  kinds.foldl (fun total k => total.addAssign (product k)) (ofInt 0)

/-- The sum of an amount over the kinds, each times its count. -/
def weighted {α : Type} (amount : α → BigDecimal) (count : α → Nat) (kinds : List α) : BigDecimal :=
  summed (fun k => (amount k).mul (ofInt (count k))) kinds

/-- The same with products of references. -/
def weightedRef {α : Type} (amount : α → BigDecimal) (count : α → Nat) (kinds : List α) : BigDecimal :=
  summed (fun k => (amount k).mulRef (ofInt (count k))) kinds

/-- A number that must be the sum the kinds add up to. -/
def covers (v : Value) (key : String) (sum : BigDecimal) : Except ProjectionError Unit := do
  let n ← number v key
  ensure (n.cmp sum = .eq) .unverifiedCoverage

structure Coverage where
  component : Value
  counts : List (String × Value)
  fares : List (String × Value)

/-- `coverage`. -/
def coverage (original : Value) : Except ProjectionError Coverage := do
  let components ← fetch ((original.get? "bookingComponents").bind Value.asArray?)
    .unverifiedCoverage
  match components with
  | [component] => do
    let counts ← fetch ((original.get? "passengerCounts").bind Value.asObject?)
      .missingOrInvalidPrice
    let fares ← fetch ((original.get? "passengerFares").bind Value.asObject?)
      .missingOrInvalidPrice
    ensure (fares.all fun f => ((Value.obj counts).get? f.1).isSome) .missingOrInvalidPrice
    return ⟨component, counts, fares⟩
  | _ => .error .unverifiedCoverage

/-- `project`. -/
def project (d : Decimals) (original : Value) (c : Coverage) (markup : Option Markup) :
    Except ProjectionError Changes := do
  let found ← (Value.entries c.counts).mapM (projectKind d (.obj c.fares) markup)
  let kinds := found.reduceOption
  let sum (amount : KindFare → BigDecimal) : BigDecimal := weightedRef amount (·.original.count) kinds
  let supplierTotal := sum (·.original.supplierTotal)
  let sellingTotal := sum (·.selling.total)
  let base := sum (·.original.base)
  let taxes := sum (·.original.taxes)
  let ait := sum (·.original.ait)
  covers original "totalPrice" supplierTotal
  covers c.component "totalPrice" supplierTotal
  covers c.component "basePrice" base
  covers c.component "taxes" taxes
  covers c.component "ait" ait
  absentOrZero original "totalExtraServicePrice"
  absentOrZero c.component "totalExtraServicePrice"
  absentOrZero c.component "agentAdditionalPrice"
  let discount := (base.add taxes).sub (sellingTotal.sub ait)
  let total ← projectedNumber d original "totalPrice" sellingTotal
  let componentTotal ← projectedNumber d c.component "totalPrice" sellingTotal
  let discount ← projectedNumber d c.component "discountPrice" discount
  return ⟨kinds, total, componentTotal, discount⟩

/-! ## Writing the changes -/

/-- `if let Some(value) = …`. -/
def setSome (key : String) (x : Option Value) (v : Value) : Value :=
  match x with
  | some x => v.setField key x
  | none => v

/-- The changes of one kind. -/
def KindFare.apply (output : Value) (k : KindFare) : Value :=
  output.updateField "passengerFares" fun fares =>
    fares.updateField k.kind fun fare =>
      setSome "discountPrice" k.discount (setSome "totalPrice" k.total fare)

/-- `Changes::apply`. -/
def Changes.apply (c : Changes) (output : Value) : Value :=
  let output := c.passengers.foldl KindFare.apply output
  let output := setSome "totalPrice" c.total output
  output.updateField "bookingComponents" fun components =>
    components.updateItem 0 fun component =>
      setSome "discountPrice" c.discount (setSome "totalPrice" c.componentTotal component)

/-- `single_component`. -/
def singleComponent (d : Decimals) (original : Value) (markup : Markup) :
    Except ProjectionError Value := do
  let changes ← project d original (← coverage original) (some markup)
  return changes.apply original

/-- `published_gross`. -/
def publishedGross (d : Decimals) (original : Value) : Except ProjectionError Value := do
  let changes ← project d original (← coverage original) none
  return changes.apply original

end ShaponTravels.Pricing
