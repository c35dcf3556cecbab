import ShaponTravels.Pricing.Projection

/-!
# Tier — the price of a quote

`tier::snapshot` and the display of `fare_breakdown.rs` that goes with it.
-/

namespace ShaponTravels.Pricing

open Library BigDecimal

inductive Tier where
  | basic
  | professional
  | enterprise
  deriving DecidableEq, Repr

/-- `Tier::name`. -/
def Tier.name : Tier → String
  | .basic => "basic"
  | .professional => "professional"
  | .enterprise => "enterprise"

/-- `tier::invalid`. -/
def invalidTier : ApiError := ⟨.unprocessableEntity, "TIER_PRICING_INVALID"⟩

/-- `tier::money`. -/
def tierMoney (v : Value) : Except ApiError BigDecimal :=
  fetch (if v.isNumber then BigDecimal.parse v.text else none) invalidTier

/-! ## The display of a price -/

/-- `fare_breakdown::amount`. -/
def displayAmount (v : Value) : Option BigDecimal :=
  match v with
  | .str s => BigDecimal.parse s
  | .num lexeme => BigDecimal.parse lexeme
  | _ => none

/-- The amounts of a breakdown, in the order they are added up. -/
def breakdownKeys : List String :=
  ["baseFare", "taxes", "ait", "serviceCharge", "discount", "gross", "payable"]

/-- The count and the amounts of one row. -/
def breakdownRow (fare : Value) (entry : String × Value) :
    Option (String × Nat × List BigDecimal) := do
  let row := entry.2
  let count ← (row.field "count").asU64?.filter fun n => 0 < n
  let original := (fare.field "passengerFares").field entry.1
  let base := (← displayAmount (original.field "basePrice")).withScaleRound 2
  let taxes := (← displayAmount (original.field "taxes")).withScaleRound 2
  let ait := (← displayAmount (original.field "ait")).withScaleRound 2
  let legacyGross ← displayAmount (row.field "gross")
  let commission ← displayAmount (row.field "commission")
  let payable ← displayAmount (row.field "payable")
  guard (legacyGross.cmp (commission.add payable) = .eq ∧
    ¬ [base, taxes, ait, payable].any isNegative)
  let gross := if commission.isNegative then payable else legacyGross
  let adjustment := payable.sub ((base.add taxes).add ait)
  let (charge, discount) := if adjustment.isNegative then
      (ofInt 0, adjustment.neg)
    else (adjustment, ofInt 0)
  return (entry.1, count, [base, taxes, ait, charge, discount, gross, payable])

/-- The amounts of a breakdown as fields. -/
def breakdownFields (d : Decimals) (amounts : List BigDecimal) : List (String × Value) :=
  (breakdownKeys.zip amounts).map fun p => (p.1, .str (d.fixed p.2))

/-- `fare_breakdown::build`. -/
def breakdown (d : Decimals) (pricing fare : Value) : Option Value := do
  guard ¬ (pricing.field "tier").isNull
  let currency ← (pricing.field "currency").asStr?
  let passengers ← (pricing.field "passengers").asObject?
  let rows ← (Value.entries passengers).mapM (breakdownRow fare)
  let totals := (List.range 7).map fun i =>
    weighted (fun r : String × Nat × List BigDecimal => r.2.2.getD i (ofInt 0)) (·.2.1) rows
  let payable ← displayAmount (pricing.field "payable")
  guard ((totals.getD 6 (ofInt 0)).cmp payable = .eq)
  let displayed := rows.map fun r => (r.1, Value.object
    ([("count", .ofInt r.2.1), ("tierAdjustment", .str "0.00")] ++ breakdownFields d r.2.2))
  return .object ([("version", .ofInt 1), ("currency", .str currency),
    ("tierAdjustment", .str "0.00"), ("passengers", .object displayed)] ++ breakdownFields d totals)

/-- `fare_breakdown::enrich`. -/
def enrich (d : Decimals) (pricing fare : Value) : Value :=
  match breakdown d pricing fare with
  | some b => pricing.setField "fareBreakdown" b
  | none => pricing

/-! ## Snapshots -/

/-- The quote of a passenger kind. -/
structure KindQuote where
  kind : String
  count : Nat
  gross : BigDecimal
  commission : BigDecimal
  payable : BigDecimal

/-- The discount a tier shares in: what is left of the gross above the supplier's fare with its
markup. -/
def pool (fare : Value) (supplier gross : BigDecimal) (tier : Option Tier) (markup : Markup) :
    Except ApiError BigDecimal :=
  match tier with
  | none => .ok (ofInt 0)
  | some _ => do
    let base ← tierMoney (fare.field "basePrice")
    let taxes ← tierMoney (fare.field "taxes")
    let ait ← tierMoney (fare.field "ait")
    return gross.sub (price ⟨supplier, base, taxes, ait, 1⟩ markup).total

/-- The body of the loop of `snapshot`. -/
def quoteKind (d : Decimals) (original gross : Value) (tier : Option Tier) (share : Int)
    (markup : Markup) (entry : String × Value) : Except ApiError (Option KindQuote) := do
  let count ← fetch entry.2.asU64? invalidTier
  if count = 0 then return none
  else
    let fare := (original.field "passengerFares").field entry.1
    let supplier ← tierMoney (fare.field "totalPrice")
    let gross ← tierMoney (((gross.field "passengerFares").field entry.1).field "totalPrice")
    let pool ← pool fare supplier gross tier markup
    ensure (¬ (supplier.isNegative ∨ gross.isNegative)) invalidTier
    let commission := (d.quotient (pool.mul (ofInt share)) (ofInt 100)).withScaleRound 2
    let payable := gross.sub commission
    ensure (¬ payable.isNegative) invalidTier
    return some ⟨entry.1, count, gross, commission, payable⟩

/-- The field of a quote in the snapshot. -/
def KindQuote.toField (d : Decimals) (q : KindQuote) : String × Value :=
  (q.kind, .object [("count", .ofInt q.count), ("gross", .str (d.fixed q.gross)),
    ("commission", .str (d.fixed q.commission)), ("payable", .str (d.fixed q.payable))])

/-- The markup of a rule as the number the code tests. -/
def Markup.value : Markup → BigDecimal
  | .fixed amount => amount
  | .percentage percent => percent

/-- `tier::snapshot`. -/
def snapshot (d : Decimals) (original gross : Value) (tier : Option Tier) (share : Int)
    (currency : String) (markup : Markup) : Except ApiError Value := do
  ensure (0 ≤ share ∧ share ≤ 100 ∧ (tier.isSome ∨ share = 0)) invalidTier
  ensure (¬ markup.value.isNegative) invalidTier
  let counts ← fetch (original.field "passengerCounts").asObject? invalidTier
  let found ← (Value.entries counts).mapM (quoteKind d original gross tier share markup)
  let quotes := found.reduceOption
  let totalGross := weighted KindQuote.gross KindQuote.count quotes
  let totalCommission := weighted KindQuote.commission KindQuote.count quotes
  let claimed ← tierMoney (gross.field "totalPrice")
  ensure (totalGross.cmp claimed = .eq) invalidTier
  let payable := totalGross.sub totalCommission
  let pricing := Value.object [("version", .ofInt 1), ("tier", .ofOption (tier.map Tier.name)),
    ("commissionSharePercent", .ofInt share), ("currency", .str currency),
    ("gross", .str (d.fixed totalGross)), ("commission", .str (d.fixed totalCommission)),
    ("payable", .str (d.fixed payable)),
    ("passengers", .object (quotes.map (KindQuote.toField d)))]
  return enrich d pricing original

end ShaponTravels.Pricing
