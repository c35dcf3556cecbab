import ShaponTravels.Pricing.Rules

/-!
# Resolution — the rule of the best class

The classes of rules for an audience stand in an order of preference.  `resolve` takes the rule of the
first class that has one; the order of the rules in the list does not matter.
-/

namespace ShaponTravels.Pricing

open Library

variable {rules : List Rule} {audience : Audience} {airline : String} {route : String × String}
  {rule : Rule}

/-! ## The order of preference -/

/-- The classes of rules for an audience, the most specific first: whom a rule is for, and whether it
names an airline and a route. -/
def preference : Audience → List (Audience × Bool × Bool)
  | .agent id =>
    [(.agent id, true, true), (.agent id, false, true), (.agent id, true, false), (.agent id, false, false),
      (.b2b, true, true), (.b2b, false, true), (.b2b, true, false), (.b2b, false, false)]
  | audience =>
    [(audience, true, true), (audience, false, true), (audience, true, false), (audience, false, false)]

def Rule.kind (r : Rule) : Audience × Bool × Bool := (r.audience, r.airline.isSome, r.route.isSome)

/-- The rule names no other airline and no other route. -/
def Rule.matches (r : Rule) (airline : String) (route : String × String) : Bool :=
  (r.airline.all fun a => a = airline) && r.route.all fun x => x = route

/-- The place of a rule in the order of preference, if it applies at all. -/
def Rule.rank (r : Rule) (audience : Audience) (airline : String) (route : String × String) : Option Nat :=
  if r.matches airline route ∧ r.kind ∈ preference audience then
    some ((preference audience).idxOf r.kind)
  else none

/-- The rules that apply at one place of the order. -/
def ranked (rules : List Rule) (audience : Audience) (airline : String) (route : String × String)
    (k : Nat) : List Rule :=
  rules.filter fun r => r.rank audience airline route = some k

theorem resolve_eq : resolve rules audience airline route =
    resolveIn rules airline route (preference audience) := by
  cases audience <;> rfl

theorem preference_nodup (audience : Audience) : (preference audience).Nodup := by
  cases audience <;> simp [preference]

theorem mem_matching {c : Audience × Bool × Bool} : rule ∈ matching rules c.1 c.2 airline route ↔
    rule ∈ rules ∧ rule.matches airline route ∧ rule.kind = c := by
  obtain ⟨a, named, routed⟩ := c
  simp only [matching, List.mem_filter, Bool.and_eq_true, decide_eq_true_eq, Rule.matches, Rule.kind,
    Prod.mk.injEq]
  tauto

/-- The class at one place of the order holds the rules that rank there. -/
theorem matching_eq_ranked {before after : List (Audience × Bool × Bool)} {c : Audience × Bool × Bool}
    (h : preference audience = before ++ c :: after) :
    matching rules c.1 c.2 airline route = ranked rules audience airline route before.length := by
  have hnodup := preference_nodup audience
  rw [h, List.nodup_middle, List.nodup_cons] at hnodup
  have hplace : (preference audience).idxOf c = before.length := by
    rw [h, List.idxOf_append_of_notMem (fun hc => hnodup.1 (List.mem_append_left _ hc)), List.idxOf_cons_self]
    rfl
  have hmem : c ∈ preference audience := by rw [h]; simp
  rw [matching, ranked]
  refine List.filter_congr fun r hr => ?_
  have hclass := @mem_matching rules airline route r c
  rw [matching, List.mem_filter] at hclass
  rw [Bool.eq_iff_iff, decide_eq_true_eq, Rule.rank]
  constructor
  · intro hr'
    obtain ⟨-, hmatches, rfl⟩ := hclass.mp ⟨hr, hr'⟩
    rw [if_pos ⟨hmatches, hmem⟩, hplace]
  · intro hrank
    split at hrank
    · rename_i happlies
      refine (hclass.mpr ⟨hr, happlies.1, ?_⟩).2
      have hidx : (preference audience).idxOf r.kind = (preference audience).idxOf c :=
        (Option.some.inj hrank).trans hplace.symm
      exact (List.idxOf_inj happlies.2).mp hidx
    · cases hrank

/-! ## The best class -/

/-- The loop stops at the first class that is not empty. -/
theorem resolveIn_cases (classes : List (Audience × Bool × Bool)) :
    ((∀ c ∈ classes, matching rules c.1 c.2 airline route = []) ∧
      resolveIn rules airline route classes = .error .pricingConfigurationError) ∨
    ∃ before c after, classes = before ++ c :: after ∧
      (∀ c' ∈ before, matching rules c'.1 c'.2 airline route = []) ∧
      ((∃ rule, matching rules c.1 c.2 airline route = [rule] ∧
          resolveIn rules airline route classes = .ok rule) ∨
        2 ≤ (matching rules c.1 c.2 airline route).length ∧
          resolveIn rules airline route classes = .error .duplicateMatchingRules) := by
  induction classes with
  | nil => exact .inl ⟨fun _ h => absurd h List.not_mem_nil, rfl⟩
  | cons c classes ih =>
    rw [resolveIn]
    split
    · rename_i hempty
      rcases ih with ⟨hall, hresolve⟩ | ⟨before, c', after, rfl, hbefore, hfound⟩
      · exact .inl ⟨List.forall_mem_cons.mpr ⟨hempty, hall⟩, hresolve⟩
      · exact .inr ⟨c :: before, c', after, rfl, List.forall_mem_cons.mpr ⟨hempty, hbefore⟩, hfound⟩
    · rename_i rule hone
      exact .inr ⟨[], c, classes, rfl, fun _ h => absurd h List.not_mem_nil, .inl ⟨rule, hone, rfl⟩⟩
    · rename_i r₁ r₂ rest hmany
      refine .inr ⟨[], c, classes, rfl, fun _ h => absurd h List.not_mem_nil, .inr ⟨?_, rfl⟩⟩
      show 2 ≤ (matching rules c.1 c.2 airline route).length
      rw [hmany]
      simp

/-- No rule of the list ranks before a place of the order. -/
def Foremost (rules : List Rule) (audience : Audience) (airline : String) (route : String × String)
    (k : Nat) : Prop :=
  ∀ r ∈ rules, ∀ k', r.rank audience airline route = some k' → k ≤ k'

theorem mem_ranked {k : Nat} : rule ∈ ranked rules audience airline route k ↔
    rule ∈ rules ∧ rule.rank audience airline route = some k := by
  rw [ranked, List.mem_filter, decide_eq_true_eq]

/-- A rule that applies is in the class at its place. -/
theorem exists_class {k : Nat} (h : rule.rank audience airline route = some k) :
    ∃ before after, preference audience = before ++ rule.kind :: after ∧ before.length = k := by
  rw [Rule.rank] at h
  split at h
  · rename_i happlies
    cases h
    have hlt := List.idxOf_lt_length_of_mem happlies.2
    refine ⟨(preference audience).take ((preference audience).idxOf rule.kind),
      (preference audience).drop ((preference audience).idxOf rule.kind + 1), ?_,
      List.length_take_of_le (Nat.le_of_lt hlt)⟩
    have hdrop := List.drop_eq_getElem_cons hlt
    rw [List.getElem_idxOf] at hdrop
    rw [← hdrop, List.take_append_drop]
  · cases h

theorem resolve_cases :
    ((∀ k, ranked rules audience airline route k = []) ∧
      resolve rules audience airline route = .error .pricingConfigurationError) ∨
    ∃ k, Foremost rules audience airline route k ∧
      ((∃ rule, ranked rules audience airline route k = [rule] ∧
          resolve rules audience airline route = .ok rule) ∨
        2 ≤ (ranked rules audience airline route k).length ∧
          resolve rules audience airline route = .error .duplicateMatchingRules) := by
  have hcases := @resolveIn_cases rules airline route (preference audience)
  rw [← resolve_eq] at hcases
  rcases hcases with ⟨hall, hresolve⟩ | ⟨before, c, after, hsplit, hbefore, hfound⟩
  · refine .inl ⟨fun k => List.eq_nil_iff_forall_not_mem.mpr fun r hr => ?_, hresolve⟩
    obtain ⟨before, after, hsplit, rfl⟩ := exists_class (mem_ranked.mp hr).2
    have hempty := hall r.kind (by rw [hsplit]; simp)
    rw [matching_eq_ranked hsplit] at hempty
    rw [hempty] at hr
    cases hr
  · rw [matching_eq_ranked hsplit] at hfound
    refine .inr ⟨before.length, fun r hr k hk => ?_, hfound⟩
    -- A rule that ranked earlier would be in one of the classes before.
    by_contra hlt
    obtain ⟨before', after', hsplit', rfl⟩ := exists_class hk
    have hkind : r.kind ∈ before := by
      have hget : (preference audience)[before'.length]? = some r.kind := by
        rw [hsplit']
        simp
      rw [hsplit, List.getElem?_append_left (Nat.not_le.mp hlt)] at hget
      exact List.mem_of_getElem? hget
    have hempty := hbefore r.kind hkind
    rw [matching_eq_ranked hsplit'] at hempty
    have hmem := mem_ranked.mpr ⟨hr, hk⟩
    rw [hempty] at hmem
    cases hmem

/-- Only one place of the order has rules and none before it. -/
theorem Foremost.unique {k k' : Nat} (h : Foremost rules audience airline route k)
    (h' : Foremost rules audience airline route k') (hne : ranked rules audience airline route k ≠ [])
    (hne' : ranked rules audience airline route k' ≠ []) : k = k' := by
  obtain ⟨r, hr⟩ := List.exists_mem_of_ne_nil _ hne
  obtain ⟨r', hr'⟩ := List.exists_mem_of_ne_nil _ hne'
  obtain ⟨hr, hk⟩ := mem_ranked.mp hr
  obtain ⟨hr', hk'⟩ := mem_ranked.mp hr'
  exact Nat.le_antisymm (h r' hr' k' hk') (h' r hr k hk)

theorem resolve_eq_ok : resolve rules audience airline route = .ok rule ↔
    ∃ k, Foremost rules audience airline route k ∧ ranked rules audience airline route k = [rule] := by
  rcases @resolve_cases rules audience airline route with
    ⟨hall, hresolve⟩ | ⟨k, hk, ⟨found, hone, hresolve⟩ | ⟨hmany, hresolve⟩⟩
  · rw [hresolve]
    refine iff_of_false (by simp) fun ⟨k, _, hone⟩ => ?_
    rw [hall k] at hone
    cases hone
  · rw [hresolve]
    constructor
    · intro h
      cases h
      exact ⟨k, hk, hone⟩
    · rintro ⟨k', hk', hone'⟩
      obtain rfl := hk.unique hk' (by simp [hone]) (by simp [hone'])
      rw [hone] at hone'
      cases hone'
      rfl
  · rw [hresolve]
    refine iff_of_false (by simp) fun ⟨k', hk', hone'⟩ => ?_
    obtain rfl := hk.unique hk' (List.ne_nil_of_length_pos (by omega)) (by simp [hone'])
    rw [hone'] at hmany
    simp at hmany

theorem resolve_eq_duplicate : resolve rules audience airline route = .error .duplicateMatchingRules ↔
    ∃ k, Foremost rules audience airline route k ∧ 2 ≤ (ranked rules audience airline route k).length := by
  rcases @resolve_cases rules audience airline route with
    ⟨hall, hresolve⟩ | ⟨k, hk, ⟨found, hone, hresolve⟩ | ⟨hmany, hresolve⟩⟩
  · rw [hresolve]
    refine iff_of_false (by simp) fun ⟨k, _, hmany⟩ => ?_
    rw [hall k] at hmany
    simp at hmany
  · rw [hresolve]
    refine iff_of_false (by simp) fun ⟨k', hk', hmany⟩ => ?_
    obtain rfl := hk.unique hk' (by simp [hone]) (List.ne_nil_of_length_pos (by omega))
    rw [hone] at hmany
    simp at hmany
  · exact iff_of_true hresolve ⟨k, hk, hmany⟩

theorem resolve_eq_unconfigured :
    resolve rules audience airline route = .error .pricingConfigurationError ↔
      ∀ k, ranked rules audience airline route k = [] := by
  rcases @resolve_cases rules audience airline route with
    ⟨hall, hresolve⟩ | ⟨k, -, ⟨found, hone, hresolve⟩ | ⟨hmany, hresolve⟩⟩
  · exact iff_of_true hresolve hall
  · rw [hresolve]
    refine iff_of_false (by simp) fun hall => ?_
    rw [hall k] at hone
    cases hone
  · rw [hresolve]
    refine iff_of_false (by simp) fun hall => ?_
    rw [hall k] at hmany
    simp at hmany

theorem resolve_perm {rules' : List Rule} (h : rules'.Perm rules) :
    resolve rules' audience airline route = resolve rules audience airline route := by
  have hranked : ∀ k, (ranked rules' audience airline route k).Perm (ranked rules audience airline route k) :=
    fun k => h.filter _
  have hforemost : ∀ k, Foremost rules' audience airline route k ↔ Foremost rules audience airline route k := by
    intro k
    simp only [Foremost, h.mem_iff]
  cases hresolve : resolve rules audience airline route with
  | ok rule =>
    obtain ⟨k, hk, hone⟩ := resolve_eq_ok.mp hresolve
    have hsame := hranked k
    rw [hone, List.perm_singleton] at hsame
    exact resolve_eq_ok.mpr ⟨k, (hforemost k).mpr hk, hsame⟩
  | error e =>
    cases e with
    | pricingConfigurationError =>
      refine resolve_eq_unconfigured.mpr fun k => ?_
      have hsame := hranked k
      rw [resolve_eq_unconfigured.mp hresolve k, List.perm_nil] at hsame
      exact hsame
    | duplicateMatchingRules =>
      obtain ⟨k, hk, hmany⟩ := resolve_eq_duplicate.mp hresolve
      exact resolve_eq_duplicate.mpr ⟨k, (hforemost k).mpr hk, by rwa [(hranked k).length_eq]⟩

/-- The rule of the best class that has any; a duplicate if that class has more than one, a configuration
error if there is none, and never a matter of the order of the list. -/
theorem resolve_best (rules : List Rule) (audience : Audience) (airline : String)
    (route : String × String) :
    (∀ rule, resolve rules audience airline route = .ok rule ↔
      ∃ k, Foremost rules audience airline route k ∧ ranked rules audience airline route k = [rule]) ∧
    (resolve rules audience airline route = .error .duplicateMatchingRules ↔
      ∃ k, Foremost rules audience airline route k ∧
        2 ≤ (ranked rules audience airline route k).length) ∧
    (resolve rules audience airline route = .error .pricingConfigurationError ↔
      ∀ k, ranked rules audience airline route k = []) ∧
    (∀ rules' : List Rule, rules'.Perm rules →
      resolve rules' audience airline route = resolve rules audience airline route) ∧
    ((rules.map Rule.scope).Nodup →
      resolve rules audience airline route ≠ .error .duplicateMatchingRules) :=
  ⟨fun _ => resolve_eq_ok, resolve_eq_duplicate, resolve_eq_unconfigured, fun _ => resolve_perm,
    resolve_unambiguous⟩

end ShaponTravels.Pricing
