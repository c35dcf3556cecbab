import Mathlib.Data.List.Chain
import ShaponTravels.Errors
import ShaponTravels.Json
import ShaponTravels.Library.Outcome
import ShaponTravels.Pricing.BigDecimal

/-!
# Rules — markup rules and the one that applies

`pricing::resolve` of `pricing.rs`.
-/

namespace ShaponTravels.Pricing

inductive Audience where
  | b2c
  | b2b
  | agent (id : String)
  deriving DecidableEq, Repr

inductive Markup where
  | fixed (amount : BigDecimal)
  | percentage (percent : BigDecimal)
  deriving DecidableEq, Repr

structure Rule where
  id : String
  audience : Audience
  airline : Option String
  route : Option (String × String)
  markup : Markup
  deriving DecidableEq, Repr

inductive RuleResolutionError where
  | pricingConfigurationError
  | duplicateMatchingRules
  deriving DecidableEq, Repr

/-- The audiences `resolve` tries, in order. -/
def audiences : Audience → List Audience
  | .agent id => [.agent id, .b2b]
  | audience => [audience]

/-- The specificity classes `resolve` tries for an audience, in order: whether the rule names an
airline, and whether it names a route. -/
def specificities : List (Bool × Bool) := [(true, true), (false, true), (true, false), (false, false)]

/-- The rules of one audience and specificity that match the airline and the route. -/
def matching (rules : List Rule) (audience : Audience) (specific : Bool × Bool) (airline : String)
    (route : String × String) : List Rule :=
  rules.filter fun rule =>
    rule.audience = audience && rule.airline.isSome = specific.1 && rule.route.isSome = specific.2 &&
      (rule.airline.all fun a => a = airline) && rule.route.all fun r => r = route

/-- The loop of `resolve`: the first class with a matching rule decides. -/
def resolveIn (rules : List Rule) (airline : String) (route : String × String) :
    List (Audience × Bool × Bool) → Except RuleResolutionError Rule
  | [] => .error .pricingConfigurationError
  | (audience, specific) :: classes =>
    match matching rules audience specific airline route with
    | [] => resolveIn rules airline route classes
    | [rule] => .ok rule
    | _ :: _ :: _ => .error .duplicateMatchingRules

/-- `pricing::resolve`. -/
def resolve (rules : List Rule) (audience : Audience) (airline : String)
    (route : String × String) : Except RuleResolutionError Rule :=
  resolveIn rules airline route
    ((audiences audience).flatMap fun a => specificities.map fun s => (a, s))

/-! ## What a resolved rule satisfies -/

variable {rules : List Rule} {audience : Audience} {airline : String} {route : String × String}
  {rule : Rule}

theorem resolveIn_ok {classes : List (Audience × Bool × Bool)}
    (h : resolveIn rules airline route classes = .ok rule) :
    ∃ c ∈ classes, rule ∈ matching rules c.1 c.2 airline route := by
  induction classes with
  | nil => cases h
  | cons c classes ih =>
    simp only [resolveIn] at h
    split at h
    · -- an empty class is passed over
      obtain ⟨c', hc', hrule⟩ := ih h
      exact ⟨c', List.mem_cons_of_mem _ hc', hrule⟩
    · rename_i found hfound
      cases h
      exact ⟨c, List.mem_cons_self, by rw [hfound]; exact List.mem_singleton_self _⟩
    · cases h

/-- A resolved rule is one of the list, for the audience or the one it falls back to, and names
no airline and no route but the given ones. -/
structure Resolved (rules : List Rule) (audience : Audience) (airline : String)
    (route : String × String) (rule : Rule) : Prop where
  mem : rule ∈ rules
  audience : rule.audience ∈ audiences audience
  airline : ∀ a ∈ rule.airline, a = airline
  route : ∀ r ∈ rule.route, r = route

theorem resolve_ok (h : resolve rules audience airline route = .ok rule) :
    Resolved rules audience airline route rule := by
  obtain ⟨⟨a, s⟩, hclass, hrule⟩ := resolveIn_ok h
  simp only [List.mem_flatMap, List.mem_map, Prod.mk.injEq] at hclass
  obtain ⟨a', ha', s', -, rfl, -⟩ := hclass
  simp only [matching, List.mem_filter, Bool.and_eq_true, decide_eq_true_eq] at hrule
  obtain ⟨hmem, ⟨⟨⟨haudience, -⟩, -⟩, hairline⟩, hroute⟩ := hrule
  refine ⟨hmem, by rw [haudience]; exact ha', ?_, ?_⟩
  · intro a ha
    rw [Option.mem_def] at ha
    simpa [ha] using hairline
  · intro r hr
    rw [Option.mem_def] at hr
    simpa [hr] using hroute

/-! ## When no two rules compete -/

def Rule.scope (r : Rule) : Audience × Option String × Option (String × String) :=
  (r.audience, r.airline, r.route)

/-- The rules of one class that match one airline and one route have one scope. -/
theorem scope_of_matching {specific : Bool × Bool}
    (h : rule ∈ matching rules audience specific airline route) :
    rule.scope = (audience, if specific.1 then some airline else none,
      if specific.2 then some route else none) := by
  simp only [matching, List.mem_filter, Bool.and_eq_true, decide_eq_true_eq] at h
  obtain ⟨-, ⟨⟨⟨haudience, hspecific⟩, hroutes⟩, hairline⟩, hroute⟩ := h
  rw [Rule.scope, haudience, ← hspecific, ← hroutes]
  congr 1
  congr 1
  · cases ha : rule.airline with
    | none => rfl
    | some a =>
      rw [ha] at hairline
      simpa using hairline
  · cases hr : rule.route with
    | none => rfl
    | some r =>
      rw [hr] at hroute
      simpa using hroute

theorem resolveIn_unambiguous (h : (rules.map Rule.scope).Nodup)
    (classes : List (Audience × Bool × Bool)) :
    resolveIn rules airline route classes ≠ .error .duplicateMatchingRules := by
  induction classes with
  | nil => simp [resolveIn]
  | cons c classes ih =>
    simp only [resolveIn]
    split
    · exact ih
    · simp
    · rename_i r₁ r₂ rest hfound
      have hscope : ∀ r ∈ r₁ :: r₂ :: rest, r.scope = r₁.scope := by
        rw [← hfound]
        intro r hr
        rw [scope_of_matching hr, @scope_of_matching _ _ _ _ r₁ _ (by rw [hfound]; simp)]
      have hnodup : ((r₁ :: r₂ :: rest).map Rule.scope).Nodup := by
        rw [← hfound]
        exact h.sublist (List.filter_sublist.map _)
      have hsame := hscope r₂ (by simp)
      simp [hsame] at hnodup

/-- Rules of pairwise different scopes never compete. -/
theorem resolve_unambiguous (h : (rules.map Rule.scope).Nodup) :
    resolve rules audience airline route ≠ .error .duplicateMatchingRules :=
  resolveIn_unambiguous h _

end ShaponTravels.Pricing
