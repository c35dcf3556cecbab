import Mathlib.Data.List.Sort
import ShaponTravels.Booking.Responses
import ShaponTravels.Markup.Rules
import ShaponTravels.Pricing.RoundTrip
import ShaponTravels.Search.Context

/-!
# Quotes — what searches and RePrices make of the rules

`search.rs` and `reprice.rs`, from the rules they load to the offers and prices they save.  Between the
two a supplier is asked, so what was loaded is kept by the process, and the rules move on.
-/

namespace ShaponTravels.Markup

open Library ShaponTravels.Pricing
open Search (SearchRequest applicableRule error)
open Booking (bindReferences)
open BigDecimal (Decimals)

/-! ## Loading the rules -/

/-- `auth::Machine`, as far as prices depend on it. -/
structure Client where
  clientId : Uuid
  audience : String
  agentId : Option Uuid
  tier : Option Tier
  share : Int

def Client.pricingAudience (c : Client) : Audience :=
  if c.audience = "b2c" then .b2c
  else
    match c.agentId with
    | some id => .agent id.text
    | none => .b2b

/-- `StoredRule`. -/
structure StoredRule where
  id : Uuid
  version : Nat
  audience : String
  agentId : Option Uuid
  airline : Option String
  origin : Option String
  destination : Option String
  kind : String
  amount : String
  currency : String
  deriving DecidableEq

def RuleRecord.stored (r : RuleRecord) : StoredRule where
  id := r.id
  version := r.version
  audience := r.input.audience
  agentId := r.input.agentId
  airline := r.input.airline
  origin := r.input.origin
  destination := r.input.destination
  kind := r.input.kind
  amount := r.input.amount
  currency := r.input.currency

def invalidConfiguration : ApiError := error "INVALID_RULE_CONFIGURATION"

def StoredRule.ruleAudience (r : StoredRule) : Except ApiError Audience :=
  if r.audience = "b2c" then .ok .b2c
  else if r.audience = "b2b" then .ok .b2b
  else (fetch r.agentId invalidConfiguration).map fun id => .agent id.text

def StoredRule.markup (r : StoredRule) : Except ApiError Markup :=
  (fetch (BigDecimal.parse r.amount) invalidConfiguration).map
    (if r.kind = "fixed" then .fixed else .percentage)

/-- `StoredRule::rule`. -/
def StoredRule.rule (r : StoredRule) : Except ApiError Rule := do
  let audience ← r.ruleAudience
  let markup ← r.markup
  return ⟨r.id.text, audience, r.airline, Option.map₂ Prod.mk r.origin r.destination, markup⟩

/-- The active rules for a client, by id. -/
def Rulebook.visible (db : Rulebook) (c : Client) : List StoredRule :=
  ((db.rules.filter fun r => r.record.active ∧
      (r.record.input.audience = c.audience ∨ (r.record.input.audience = "specific_agent" ∧
        c.audience = "b2b" ∧ c.agentId.isSome ∧ r.record.input.agentId = c.agentId))).map
    fun r => r.record.stored).insertionSort fun a b => a.id ≤ b.id

/-- What a search or a RePrice holds while it waits for a supplier. -/
structure Loaded where
  client : Client
  request : SearchRequest
  currency : String
  stored : List StoredRule
  rules : List Rule

/-- The rules of one currency. -/
def Rulebook.load (db : Rulebook) (client : Client) (request : SearchRequest) (currency : String) :
    Except ApiError Loaded := do
  let stored := (db.visible client).filter fun r => r.currency = currency
  let rules ← stored.mapM StoredRule.rule
  return ⟨client, request, currency, stored, rules⟩

/-- The one currency of the active suppliers; a supplier may be unknown to the process, or have no
currency. -/
def searchCurrency (suppliers : List (Option (Option String))) : Except ApiError String := do
  let currency ← suppliers.foldlM (fun currency configured => do
    let configured ← fetch configured (error "SUPPLIER_CONFIGURATION_ERROR")
    let code ← fetch configured (error "SUPPLIER_CURRENCY_REQUIRED")
    ensure (∀ c ∈ currency, c = code) (error "CROSS_CURRENCY_COMPARISON_UNSUPPORTED")
    return some code) none
  fetch currency (error "SUPPLIER_CURRENCY_REQUIRED")

def pricingConfiguration : ApiError := error "PRICING_CONFIGURATION_ERROR"

/-- The part of `search_tracked` before the suppliers are asked. -/
def Rulebook.loadSearch (db : Rulebook) (client : Client) (request : SearchRequest)
    (suppliers : List (Option (Option String))) : Except ApiError Loaded := do
  ensure (suppliers ≠ []) ⟨.serviceUnavailable, "NO_ACTIVE_SUPPLIERS"⟩
  ensure (db.visible client ≠ []) pricingConfiguration
  let currency ← searchCurrency suppliers
  let loaded ← db.load client request currency
  ensure (loaded.rules ≠ []) pricingConfiguration
  return loaded

/-! ## Pricing a response -/

/-- A row of `flight_searches`. -/
structure SearchRow where
  id : Uuid
  clientId : Uuid
  request : SearchRequest
  currency : String

/-- A row of `flight_offers`. -/
structure OfferRow where
  id : Uuid
  clientId : Uuid
  searchId : Uuid
  original : Value
  selling : Value
  ruleId : Uuid
  ruleVersion : Nat
  tierPricing : Value

/-- A row of `flight_reprices`. -/
structure PriceRow where
  id : Uuid
  offerId : Uuid
  clientId : Uuid
  version : Nat
  original : Value
  selling : Value
  ruleId : Uuid
  ruleVersion : Nat
  audience : String
  agentId : Option Uuid
  currency : String
  tierPricing : Value

/-- The rule that applies to a response, and its stored row. -/
def Loaded.applicable (l : Loaded) (response : Value) : Except ApiError (Rule × StoredRule) := do
  let winner ← applicableRule response l.request l.rules l.client.pricingAudience
  let record ← fetch (l.stored.find? fun r => r.id.text = winner.id) pricingConfiguration
  return (winner, record)

def uncovered : ApiError := error "SUPPLIER_PRICING_COVERAGE_UNSUPPORTED"

/-- The selling fare under a rule. -/
def Loaded.selling (d : Decimals) (l : Loaded) (fare : Value) (rule : Rule) : Except ApiError Value :=
  (projected d fare l.client.tier rule.markup).mapError fun _ => uncovered

/-- The quote of a selling fare under a rule. -/
def Loaded.quote (d : Decimals) (l : Loaded) (fare selling : Value) (rule : Rule) :
    Except ApiError Value :=
  snapshot d fare selling l.client.tier l.client.share l.currency rule.markup

/-- The selling fare with the breakdown of its quote. -/
def withBreakdown (selling quote : Value) : Value :=
  match quote.get? "fareBreakdown" with
  | some breakdown => selling.setField "fareBreakdown" breakdown
  | none => selling

/-- What the quote of an offer is computed from. -/
def tierOriginal (original : Value) : Value :=
  .object [("passengerCounts", original.field "passengerCounts"),
    ("passengerFares", original.field "passengerFares")]

/-- An offer of a search, as `search_tracked` prices it; `fresh` draws the identifiers of the
supplier's other references. -/
def Loaded.offer (d : Decimals) (l : Loaded) (searchId id : Uuid) (fresh : String → Uuid)
    (original : Value) : Except ApiError OfferRow := do
  let (winner, record) ← l.applicable original
  let transaction ← fetch (original.field "uniqueTransID").asStr? (error "SUPPLIER_REFERENCE_MISSING")
  let item ← fetch (original.field "itemCodeRef").asStr? (error "SUPPLIER_REFERENCE_MISSING")
  ensure (transaction ≠ "" ∧ item ≠ "" ∧ transaction ≠ item) (error "SUPPLIER_REFERENCE_MISSING")
  let references := Value.object [(transaction, .str searchId.text), (item, .str id.text)]
  let selling ← l.selling d original winner
  let tierPricing ← l.quote d (tierOriginal original) selling winner
  return {
    id
    clientId := l.client.clientId
    searchId
    original
    selling := bindReferences fresh references (withBreakdown selling tierPricing)
    ruleId := record.id
    ruleVersion := record.version
    tierPricing }

/-- `reprice::decimal`. -/
def decimal (v : Value) : Except ApiError BigDecimal :=
  fetch (if v.isNumber then BigDecimal.parse v.text else none) (error "SUPPLIER_RESPONSE_INVALID")

/-- A reference every repriced fare must carry. -/
def reference (fare : Value) (key : String) : Except ApiError String :=
  fetch ((fare.field key).asStr?.filter fun s => s ≠ "") (error "SUPPLIER_REFERENCE_MISSING")

/-- The flag `isPriceChanged` of a repriced fare. -/
def priceChanged (offer : OfferRow) (fare selling tierPricing : Value) : Except ApiError Bool :=
  if fare.field "isPriceChanged" = .bool true ∨
      offer.tierPricing.field "payable" ≠ tierPricing.field "payable" then .ok true
  else do
    let total ← decimal (selling.field "totalPrice")
    let before ← decimal (offer.selling.field "totalPrice")
    return total.cmp before ≠ .eq

/-- What `reprice` takes from its surroundings: the display of decimals, and the checks of the
supplier's fare against the offer and the request. -/
structure Desk where
  decimals : Decimals
  numeric : Numeric
  checks : OfferRow → SearchRequest → Value → Except ApiError Unit

/-- A price of an offer, as `reprice` computes it from the supplier's answer. -/
def Loaded.price (desk : Desk) (l : Loaded) (offer : OfferRow) (id : Uuid) (version : Nat)
    (fresh : String → Uuid) (original : Value) : Except ApiError PriceRow := do
  ensure ((original.field "item2").field "isSuccess" = .bool true)
    ⟨.badGateway, "SUPPLIER_REPRICE_FAILED"⟩
  let fare := original.field "item1"
  desk.checks offer l.request fare
  let transaction ← reference fare "uniqueTransID"
  let item ← reference fare "itemCodeRef"
  let price ← reference fare "priceCodeRef"
  let (winner, record) ← l.applicable fare
  let selling ← l.selling desk.decimals fare winner
  let taxes ← decimal (fare.field "taxes")
  let componentTaxes ← decimal (((fare.field "bookingComponents").item 0).field "taxes")
  ensure (taxes.cmp componentTaxes = .eq) uncovered
  let tierPricing ← l.quote desk.decimals fare selling winner
  ensure [transaction, item, price].Nodup (error "SUPPLIER_REFERENCE_MISMATCH")
  let references := Value.object
    [(transaction, .str offer.searchId.text), (item, .str offer.id.text), (price, .str id.text)]
  let changed ← priceChanged offer fare (withBreakdown selling tierPricing) tierPricing
  let answered := original.setField "item1"
    ((withBreakdown selling tierPricing).setField "isPriceChanged" (.bool changed))
  return {
    id
    offerId := offer.id
    clientId := l.client.clientId
    version
    original
    selling := bindReferences fresh references answered
    ruleId := record.id
    ruleVersion := record.version
    audience := l.client.audience
    agentId := l.client.agentId
    currency := l.currency
    tierPricing }

/-! ## The store -/

/-- The rows that were priced. -/
structure Priced where
  offers : List OfferRow
  prices : List PriceRow

/-- The query of `remove`. -/
def Priced.uses (p : Priced) (id : Uuid) : Bool :=
  (p.offers.any fun o => o.ruleId = id) || p.prices.any fun r => r.ruleId = id

structure Db where
  book : Rulebook
  searches : List SearchRow
  priced : Priced

/-- A search before it is saved; `id` is the search id it has drawn. -/
structure Searching where
  id : Uuid
  loaded : Loaded

/-- A RePrice before it is saved; `id` is the revision it has drawn. -/
structure Repricing where
  id : Uuid
  offer : OfferRow
  loaded : Loaded

structure System where
  db : Db
  searching : List Searching
  repricing : List Repricing

/-- The foreign key from priced rows to the versions of rules. -/
def Db.references (db : Db) (ruleId : Uuid) (ruleVersion : Nat) : Except ApiError Unit :=
  ensure (db.book.recorded ruleId ruleVersion) (.ofDb (.violated "rule_id_rule_version_fkey"))

/-- The transaction of a search: the search and all its offers. -/
def saveSearch (d : Decimals) (db : Db) (s : Searching) (fresh : Uuid → String → Uuid)
    (originals : List (Uuid × Value)) : Except ApiError Db := do
  ensure (∀ r ∈ db.searches, r.id ≠ s.id) (.ofDb (.unique "flight_searches_pkey"))
  let offers ← originals.mapM fun o => s.loaded.offer d s.id o.1 (fresh o.1) o.2
  ensure ((db.priced.offers ++ offers).map OfferRow.id).Nodup (.ofDb (.unique "flight_offers_pkey"))
  offers.forM fun o => db.references o.ruleId o.ruleVersion
  return { db with
    searches := db.searches ++
      [⟨s.id, s.loaded.client.clientId, s.loaded.request, s.loaded.currency⟩]
    priced := { db.priced with offers := db.priced.offers ++ offers } }

/-- The next version of an offer's prices. -/
def Priced.nextVersion (p : Priced) (offer : Uuid) : Nat :=
  ((p.prices.filter fun r => r.offerId = offer).map PriceRow.version).foldl max 0 + 1

/-- The last statements of `reprice`. -/
def saveReprice (desk : Desk) (db : Db) (r : Repricing) (fresh : String → Uuid) (answer : Value) :
    Except ApiError Db := do
  let price ← r.loaded.price desk r.offer r.id (db.priced.nextVersion r.offer.id) fresh answer
  ensure (db.priced.offers.any fun o => o.id = r.offer.id) (.ofDb .noRow)
  ensure (∀ p ∈ db.priced.prices, p.id ≠ price.id) (.ofDb (.unique "flight_reprices_pkey"))
  db.references price.ruleId price.ruleVersion
  return { db with priced := { db.priced with prices := db.priced.prices ++ [price] } }

/-- `cleanup_batch`, for the offers and searches it finds expired and otherwise unused. -/
def cleanup (db : Db) (offers searches : List Uuid) : Db :=
  let kept := db.priced.offers.filter fun o =>
    o.id ∉ offers ∨ db.priced.prices.any fun p => p.offerId = o.id
  { db with
    searches := db.searches.filter fun s => s.id ∉ searches ∨ kept.any fun o => o.searchId = s.id
    priced := { db.priced with offers := kept } }

/-! ## Steps -/

inductive Event where
  | create (who : Author) (agents : Uuid → Nat) (id : Uuid) (input : RuleInput)
  | update (who : Author) (agents : Uuid → Nat) (id : Uuid) (expectedVersion : Int) (rule : RuleInput)
  | status (who : Author) (agents : Uuid → Nat) (id : Uuid) (expectedVersion : Int) (active : Bool)
  /-- Rows may be saved and cleaned up between the query and the commit; `seen` is what it saw. -/
  | remove (who : Author) (id : Uuid) (expectedVersion : Int) (seen : Priced)
  | loadSearch (id : Uuid) (client : Client) (request : SearchRequest)
      (suppliers : List (Option (Option String)))
  | saveSearch (id : Uuid) (fresh : Uuid → String → Uuid) (originals : List (Uuid × Value))
  | loadReprice (id : Uuid) (client : Client) (offer : Uuid)
  | saveReprice (id : Uuid) (fresh : String → Uuid) (answer : Value)
  | cleanup (offers searches : List Uuid)

/-- The rule an event edits, and the version it expects. -/
def Event.edit : Event → Option (Uuid × Int)
  | .update _ _ id expectedVersion _ => some (id, expectedVersion)
  | .status _ _ id expectedVersion _ => some (id, expectedVersion)
  | .remove _ id expectedVersion _ => some (id, expectedVersion)
  | _ => none

def System.withBook (s : System) (book : Rulebook) : System := { s with db := { s.db with book } }

/-- A step; a process that fails, or a draw that was made before, leaves no trace. -/
def System.step (desk : Desk) (s : System) : Event → Except ApiError System
  | .create who agents id input => do
    let (_, book) ← Markup.create desk.numeric s.db.book who agents id input
    return s.withBook book
  | .update who agents id expectedVersion rule => do
    let (_, book) ← Markup.update desk.numeric s.db.book who agents id expectedVersion rule
    return s.withBook book
  | .status who agents id expectedVersion active => do
    let (_, book) ← Markup.status s.db.book who agents id expectedVersion active
    return s.withBook book
  | .remove who id expectedVersion seen => do
    let (_, book) ← Markup.remove s.db.book who id expectedVersion (seen.uses id)
    return s.withBook book
  | .loadSearch id client request suppliers => do
    ensure (∀ x ∈ s.searching, x.id ≠ id) (.ofDb .noRow)
    let loaded ← s.db.book.loadSearch client request suppliers
    return { s with searching := s.searching ++ [⟨id, loaded⟩] }
  | .saveSearch id fresh originals => do
    let x ← fetch (lookup Searching.id id s.searching) (.ofDb .noRow)
    let db ← Markup.saveSearch desk.decimals s.db x fresh originals
    return { s with db }
  | .loadReprice id client offer => do
    ensure (∀ x ∈ s.repricing, x.id ≠ id) (.ofDb .noRow)
    let row ← fetch (s.db.priced.offers.find? fun o => o.id = offer ∧ o.clientId = client.clientId)
      ⟨.notFound, "NOT_FOUND"⟩
    let search ← fetch (lookup SearchRow.id row.searchId s.db.searches) ⟨.notFound, "NOT_FOUND"⟩
    let loaded ← s.db.book.load client search.request search.currency
    return { s with repricing := s.repricing ++ [⟨id, row, loaded⟩] }
  | .saveReprice id fresh answer => do
    let x ← fetch (lookup Repricing.id id s.repricing) (.ofDb .noRow)
    let db ← Markup.saveReprice desk s.db x fresh answer
    return { s with db }
  | .cleanup offers searches => return { s with db := Markup.cleanup s.db offers searches }

def System.empty : System := ⟨⟨⟨[], [], []⟩, [], ⟨[], []⟩⟩, [], []⟩

def machine (desk : Desk) : Machine System Event where
  init s := s = .empty
  step s e s' := s.step desk e = .ok s'

end ShaponTravels.Markup
