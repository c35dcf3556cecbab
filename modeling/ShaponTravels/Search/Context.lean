import Mathlib.Data.Option.Basic
import ShaponTravels.Pricing.Rules

/-!
# Context — the journey a markup rule is matched against

`journey_context` and `matching_context` of `search.rs`.  The context is read from the supplier's
response, which may hold anything; only a context that is checked whole reaches the resolver.
-/

namespace ShaponTravels.Search

open Library ShaponTravels.Pricing

structure Route where
  origin : String
  destination : String
  departureDate : String
  deriving DecidableEq, Repr

structure SearchRequest where
  routes : List Route
  adults : Nat
  childs : Nat
  infants : Nat
  cabinClass : Nat
  preferredCarriers : List String
  prohibitedCarriers : List String
  childrenAges : List Nat
  fareType : Option Int
  deriving DecidableEq, Repr

def error (code : String) : ApiError := ⟨.unprocessableEntity, code⟩

/-! ## Reading the journey -/

/-- The airline code of the first segment of a flight option. -/
def firstCarrier (option : Value) : Value :=
  (((option.field "segments").item 0).field "airlineCode")

/-- Two ASCII upper-case letters or digits. -/
def isCarrierCode (s : String) : Bool :=
  s.utf8ByteSize = 2 && s.toList.all fun c => ('A' ≤ c && c ≤ 'Z') || isAsciiDigit c

/-- The airline every option of the first route starts with, if there is one. -/
def carrierOf (firstOptions : List Value) : Option String :=
  ((firstOptions.head?.bind fun option => (firstCarrier option).asStr?).filter isCarrierCode).filter
    fun code => firstOptions.all fun option => (firstCarrier option).asStr? = some code

def nonEmptyText (v : Value) : Bool := v.asStr?.any fun s => s ≠ ""

/-- The checks on one flight option of a route. -/
def optionMatches (route : Route) (option : Value) : Bool :=
  match (option.field "segments").asArray? with
  | none => false
  | some segments =>
    (option.field "from").asStr? = some route.origin &&
      (option.field "to").asStr? = some route.destination &&
      (segments.head?.bind fun s => (s.field "from").asStr?) = some route.origin &&
      (segments.getLast?.bind fun s => (s.field "to").asStr?) = some route.destination &&
      (segments.all fun s => nonEmptyText (s.field "from") && nonEmptyText (s.field "to")) &&
      (segments.zip segments.tail).all fun pair => pair.1.field "to" = pair.2.field "from"

/-- The checks on the flight options of one route. -/
def groupMatches (group : Value) (route : Route) : Bool :=
  match group.asArray? with
  | none => false
  | some options => !options.isEmpty && options.all (optionMatches route)

/-- `journey_context`. -/
def journeyContext (offer : Value) (request : SearchRequest) (rules : List Rule) :
    Option (String × String × String) := do
  let outbound ← request.routes.head?
  let groups ← (offer.field "directions").asArray?
  guard (groups.length = request.routes.length)
  let firstOptions ← groups.head?.bind Value.asArray?
  let _ ← firstOptions.head?
  let carrier := carrierOf firstOptions
  guard ((groups.zip request.routes).all fun p => groupMatches p.1 p.2)
  guard ¬ (carrier.isNone ∧ rules.any fun rule => rule.airline.isSome)
  return (carrier.getD "", outbound.origin, outbound.destination)

/-- `matching_context`. -/
def matchingContext (offer : Value) (request : SearchRequest) (rules : List Rule) :
    Except ApiError (String × String × String) :=
  match journeyContext offer request rules with
  | some context => .ok context
  | none =>
    if rules.any fun rule => rule.airline.isSome || rule.route.isSome then
      .error (error "COMPLEX_SCOPE_MATCHING_UNRESOLVED")
    else .ok ("", "", "")

/-- The rule a search or RePrice applies to an offer. -/
def applicableRule (offer : Value) (request : SearchRequest) (rules : List Rule)
    (audience : Audience) : Except ApiError Rule := do
  let (carrier, origin, destination) ← matchingContext offer request rules
  (resolve rules audience carrier (origin, destination)).mapError fun _ =>
    error "PRICING_CONFIGURATION_ERROR"

/-! ## What a journey is -/

/-- The segments lead from airport `a` to airport `b`, each from where the one before it ended. -/
inductive Connects : String → List Value → String → Prop where
  | last {s : Value} {a b : String} :
      s.field "from" = .str a → s.field "to" = .str b → Connects a [s] b
  | cons {s : Value} {segments : List Value} {a b c : String} :
      s.field "from" = .str a → s.field "to" = .str b → Connects b segments c →
        Connects a (s :: segments) c

/-- The first segment of every flight option of the first route is operated under `code`. -/
def OperatedBy (offer : Value) (code : String) : Prop :=
  ∃ options groups, offer.field "directions" = .arr (.arr options :: groups) ∧ options ≠ [] ∧
    ∀ option ∈ options, firstCarrier option = .str code

/-- Every option of a flight group connects the ends of its route. -/
def FollowsRoute (group : Value) (route : Route) : Prop :=
  ∃ options, group = .arr options ∧ options ≠ [] ∧ ∀ option ∈ options,
    ∃ segments, option.field "segments" = .arr segments ∧
      Connects route.origin segments route.destination

/-- Every flight group follows its requested route. -/
def FollowsRoutes (offer : Value) (request : SearchRequest) : Prop :=
  ∃ groups, offer.field "directions" = .arr groups ∧
    List.Forall₂ FollowsRoute groups request.routes

theorem connects_of_checks {segments : List Value} {a b : String}
    (hfirst : (segments.head?.bind fun s => (s.field "from").asStr?) = some a)
    (hlast : (segments.getLast?.bind fun s => (s.field "to").asStr?) = some b)
    (htext : ∀ s ∈ segments, nonEmptyText (s.field "to"))
    (hchain : ∀ pair ∈ segments.zip segments.tail, pair.1.field "to" = pair.2.field "from") :
    Connects a segments b := by
  induction segments generalizing a with
  | nil => cases hfirst
  | cons s segments ih =>
    simp only [List.head?_cons, Option.bind_some, Value.asStr?_eq_some] at hfirst
    cases segments with
    | nil =>
      simp only [List.getLast?_singleton, Option.bind_some, Value.asStr?_eq_some] at hlast
      exact .last hfirst hlast
    | cons s' segments =>
      have hto := htext s List.mem_cons_self
      rw [nonEmptyText, Option.any_eq_true_iff_get] at hto
      obtain ⟨hsome, -⟩ := hto
      obtain ⟨m, hm⟩ := Option.isSome_iff_exists.mp hsome
      rw [Value.asStr?_eq_some] at hm
      have hnext : s'.field "from" = .str m := by
        rw [← hm]
        exact (hchain (s, s') (by simp)).symm
      refine .cons hfirst hm (ih ?_ ?_ ?_ ?_)
      · simpa using hnext
      · simpa using hlast
      · intro t ht
        exact htext t (List.mem_cons_of_mem _ ht)
      · intro pair hpair
        exact hchain pair (List.mem_cons_of_mem _ hpair)

theorem followsRoute_of_groupMatches {group : Value} {route : Route}
    (h : groupMatches group route = true) : FollowsRoute group route := by
  unfold groupMatches at h
  split at h
  · cases h
  · rename_i options hoptions
    rw [Bool.and_eq_true, List.all_eq_true] at h
    obtain ⟨hne, hall⟩ := h
    refine ⟨options, Value.asArray?_eq_some.mp hoptions, by simpa using hne, ?_⟩
    intro option hoption
    have hmatches := hall option hoption
    unfold optionMatches at hmatches
    split at hmatches
    · cases hmatches
    · rename_i segments hsegments
      simp only [Bool.and_eq_true, decide_eq_true_eq, List.all_eq_true] at hmatches
      obtain ⟨⟨⟨⟨-, hfirst⟩, hlast⟩, htext⟩, hchain⟩ := hmatches
      exact ⟨segments, Value.asArray?_eq_some.mp hsegments,
        connects_of_checks hfirst hlast (fun s hs => (htext s hs).2) hchain⟩

theorem forall₂_of_all_zip {groups : List Value} {routes : List Route}
    (hlength : groups.length = routes.length)
    (h : (groups.zip routes).all (fun p => groupMatches p.1 p.2) = true) :
    List.Forall₂ FollowsRoute groups routes := by
  rw [List.forall₂_iff_zip]
  refine ⟨hlength, ?_⟩
  intro group route hmem
  rw [List.all_eq_true] at h
  exact followsRoute_of_groupMatches (h (group, route) hmem)

theorem operatedBy_of_carrierOf {offer : Value} {options groups : List Value} {code : String}
    (hoffer : offer.field "directions" = .arr (.arr options :: groups)) (hne : options ≠ [])
    (h : carrierOf options = some code) : OperatedBy offer code := by
  simp only [carrierOf, Option.filter_eq_some_iff, List.all_eq_true, decide_eq_true_eq,
    Value.asStr?_eq_some] at h
  exact ⟨options, groups, hoffer, hne, h.2⟩

/-- A context is that of the first route of a journey that follows every route; its airline is the
one the first route is operated under, unless no rule names an airline. -/
theorem journeyContext_some {offer : Value} {request : SearchRequest} {rules : List Rule}
    {airline origin destination : String}
    (h : journeyContext offer request rules = some (airline, origin, destination)) :
    FollowsRoutes offer request ∧
      (∃ route ∈ request.routes.head?, route.origin = origin ∧ route.destination = destination) ∧
      (OperatedBy offer airline ∨ ∀ rule ∈ rules, rule.airline = none) := by
  simp only [journeyContext, Option.bind_eq_bind, Option.bind_eq_some_iff, Option.guard_eq_some',
    Value.asArray?_eq_some, Option.pure_def, Option.some.injEq, Prod.mk.injEq] at h
  obtain ⟨outbound, houtbound, groups, hgroups, -, hlength, options, ⟨group, hgroup, rfl⟩, _, hne,
    -, hall, -, hcarrier, rfl, rfl, rfl⟩ := h
  refine ⟨⟨groups, hgroups, forall₂_of_all_zip hlength hall⟩, ⟨outbound, houtbound, rfl, rfl⟩, ?_⟩
  cases hcode : carrierOf options with
  | some code =>
    -- the first group is the list of options the carrier was read from
    cases groups with
    | nil => cases hgroup
    | cons first groups =>
      rw [List.head?_cons, Option.some.injEq] at hgroup
      subst hgroup
      refine .inl (operatedBy_of_carrierOf hgroups ?_ hcode)
      rintro rfl
      cases hne
  | none =>
    refine .inr (fun rule hrule => ?_)
    have hany : ¬ (rules.any fun rule => rule.airline.isSome) = true :=
      fun hany => hcarrier ⟨by rw [hcode]; rfl, hany⟩
    simpa using fun hsome => hany (List.any_eq_true.mpr ⟨rule, hrule, hsome⟩)

/-- Without a context only a list without airlines and routes is let through. -/
theorem matchingContext_ok {offer : Value} {request : SearchRequest} {rules : List Rule}
    {context : String × String × String}
    (h : matchingContext offer request rules = .ok context) :
    journeyContext offer request rules = some context ∨
      ∀ rule ∈ rules, rule.airline = none ∧ rule.route = none := by
  unfold matchingContext at h
  split at h
  · rename_i context' hcontext
    cases h
    exact .inl hcontext
  · split at h
    · cases h
    · rename_i hany
      refine .inr (fun rule hrule => ?_)
      have hnone : ¬ (rule.airline.isSome || rule.route.isSome) = true :=
        fun hsome => hany (List.any_eq_true.mpr ⟨rule, hrule, hsome⟩)
      simpa using hnone

/-- The default rule of an audience, or of the audience it falls back to. -/
def IsDefaultFor (rules : List Rule) (audience : Audience) (rule : Rule) : Prop :=
  rule ∈ rules ∧ rule.audience ∈ audiences audience ∧ rule.airline = none ∧ rule.route = none

/-- A rule that names an airline or a route is applied only to a journey it matches; any other
result is an error or the default rule of the audience. -/
theorem applicableRule_matches {offer : Value} {request : SearchRequest} {rules : List Rule}
    {audience : Audience} {rule : Rule}
    (h : applicableRule offer request rules audience = .ok rule) :
    (∀ airline, rule.airline = some airline → OperatedBy offer airline) ∧
      (∀ origin destination, rule.route = some (origin, destination) →
        (∃ route ∈ request.routes.head?, route.origin = origin ∧
          route.destination = destination) ∧ FollowsRoutes offer request) ∧
      (rule.airline.isSome ∨ rule.route.isSome ∨ IsDefaultFor rules audience rule) := by
  simp only [applicableRule, bind_eq_ok, mapError_eq_ok] at h
  obtain ⟨⟨carrier, start, finish⟩, hcontext, hresolve⟩ := h
  have hresolved := resolve_ok hresolve
  refine ⟨?_, ?_, ?_⟩
  · intro airline hairline
    obtain rfl : airline = carrier := hresolved.airline airline hairline
    rcases matchingContext_ok hcontext with hjourney | hnone
    · rcases (journeyContext_some hjourney).2.2 with hoperated | hnone
      · exact hoperated
      · rw [hnone rule hresolved.mem] at hairline
        cases hairline
    · rw [(hnone rule hresolved.mem).1] at hairline
      cases hairline
  · intro origin destination hroute
    have hmatch := hresolved.route _ hroute
    rw [Prod.mk.injEq] at hmatch
    obtain ⟨rfl, rfl⟩ := hmatch
    rcases matchingContext_ok hcontext with hjourney | hnone
    · obtain ⟨hfollows, hfirst, -⟩ := journeyContext_some hjourney
      exact ⟨hfirst, hfollows⟩
    · rw [(hnone rule hresolved.mem).2] at hroute
      cases hroute
  · cases hairline : rule.airline with
    | some airline => exact .inl rfl
    | none =>
      cases hroute : rule.route with
      | some route => exact .inr (.inl rfl)
      | none =>
        exact .inr (.inr ⟨hresolved.mem, hresolved.audience, hairline, hroute⟩)

/-- A two-segment flight under a rule for its airline and route. -/
theorem applicableRule_matches_connection :
    ∃ offer, OperatedBy offer "BG" ∧
      ∃ groups, offer.field "directions" = .arr groups ∧ groups.length = 1 := by
  let segment (origin destination airline : String) : Value :=
    .obj [("airlineCode", .str airline), ("from", .str origin), ("to", .str destination)]
  let option : Value := .obj [("from", .str "DAC"),
    ("segments", .arr [segment "DAC" "DOH" "BG", segment "DOH" "LHR" "QR"]), ("to", .str "LHR")]
  let offer : Value := .obj [("directions", .arr [.arr [option]])]
  let request : SearchRequest := ⟨[⟨"DAC", "LHR", "2030-01-01"⟩], 1, 0, 0, 1, [], [], [], none⟩
  let rule : Rule := ⟨"r", .b2b, some "BG", some ("DAC", "LHR"), .fixed ⟨100, 0⟩⟩
  have hrule : applicableRule offer request [rule] (.agent "a") = .ok rule := by decide
  exact ⟨offer, (applicableRule_matches hrule).1 "BG" rfl, _, rfl, rfl⟩

end ShaponTravels.Search
