import ShaponTravels.Markup.Changes

/-!
# History — the rules, their versions and what was priced with them

What holds of the rules whatever the commands do, what a search or a RePrice holds of them while they
move on, and what every offer and price that is saved refers to.
-/

namespace ShaponTravels.Markup

open Library ShaponTravels.Pricing
open Search (SearchRequest applicableRule)
open Booking (bindReferences)
open BigDecimal (Decimals)

variable {db db' : Rulebook} {label : Option (Uuid × Nat)}

/-! ## The rules -/

structure Rulebook.Sound (db : Rulebook) : Prop where
  history : Versions.Sound RuleRow.record db.history
  active : (activeScopes db.rules).Nodup
  scope : ∀ r ∈ db.rules, r.record.input.scope.Valid
  archived : ∀ r ∈ db.rules, r.archived → r.record.active = false

theorem Rulebook.Sound.ids (hs : db.Sound) : KeyUnique RuleRow.id db.rules := by
  have hkeys := hs.history.unique
  rw [KeyUnique, Rulebook.history, List.map_map] at hkeys
  exact hkeys

theorem Change.active (hs : db.Sound) (h : Change db db' label) : (activeScopes db'.rules).Nodup := by
  cases h with
  | created row _ _ _ _ hrecorded =>
    rw [hrecorded.live]
    exact hrecorded.unique
  | revised old row _ _ _ _ _ _ hrecorded =>
    rw [hrecorded.live]
    exact hrecorded.unique
  | deleted old _ _ hrules =>
    rw [hrules]
    exact hs.active.sublist ((List.filter_sublist.filter _).map _)

/-- A row after a change is one from before, or the row that was written. -/
theorem Change.rows (hs : db.Sound) (h : Change db db' label) {r : RuleRow} (hr : r ∈ db'.rules) :
    r ∈ db.rules ∨ (r.record.input.scope.Valid ∧ (r.archived → r.record.active = false)) := by
  cases h with
  | created row _ _ _ hscope hrecorded =>
    rw [hrecorded.live] at hr
    rcases List.mem_append.mp hr with hr | hr
    · exact .inl hr
    · rw [List.mem_singleton.mp hr]
      exact .inr ⟨hscope, nofun⟩
  | revised old row hold _ _ _ hscope harchived hrecorded =>
    rw [hrecorded.live] at hr
    rcases modify_cases hr with ⟨hr, -⟩ | ⟨_, -, -, rfl⟩
    · exact .inl hr
    · refine .inr ⟨?_, harchived⟩
      rcases hscope with hscope | hsame
      · exact hscope
      · rw [hsame]
        exact hs.scope old hold
  | deleted old _ _ hrules =>
    rw [hrules] at hr
    exact .inl (List.mem_of_mem_filter hr)

theorem Change.versions (h : Change db db' label) : db.versions <+: db'.versions := by
  cases h with
  | created _ _ _ _ _ hrecorded | revised _ _ _ _ _ _ _ _ hrecorded =>
    obtain ⟨v, -, -, -, hversions⟩ := hrecorded.versions
    rw [hversions]
    exact List.prefix_append _ _
  | deleted _ _ _ _ hversions =>
    rw [hversions]

theorem Change.sound (hs : db.Sound) (h : Change db db' label) : db'.Sound where
  history := hs.history.step h.edit
  active := h.active hs
  scope r hr := by
    rcases h.rows hs hr with hr | ⟨hscope, -⟩
    · exact hs.scope r hr
    · exact hscope
  archived r hr := by
    rcases h.rows hs hr with hr | ⟨-, harchived⟩
    · exact hs.archived r hr
    · exact harchived

/-! ## What a process loads -/

def StoredRule.scope (r : StoredRule) : Scope :=
  ⟨r.audience, r.agentId, r.airline, r.origin, r.destination⟩

/-- The rule made of a row has the columns of its scope. -/
structure Parsed (r : StoredRule) (rule : Rule) : Prop where
  id : rule.id = r.id.text
  audience : r.ruleAudience = .ok rule.audience
  airline : rule.airline = r.airline
  route : rule.route = Option.map₂ Prod.mk r.origin r.destination

theorem rule_ok {r : StoredRule} {rule : Rule} (h : r.rule = .ok rule) : Parsed r rule := by
  simp only [StoredRule.rule, bind_eq_ok, pure_eq_ok] at h
  obtain ⟨audience, haudience, markup, -, rfl⟩ := h
  exact ⟨rfl, haudience, rfl, rfl⟩

/-- The columns an audience is made of. -/
def audienceColumns : Audience → String × Option String
  | .b2c => ("b2c", none)
  | .b2b => ("b2b", none)
  | .agent id => ("specific_agent", some id)

theorem ruleAudience_ok {r : StoredRule} {audience : Audience} (hv : r.scope.Valid)
    (h : r.ruleAudience = .ok audience) :
    (r.audience, r.agentId.map Uuid.text) = audienceColumns audience := by
  have haudience : r.audience ∈ ["b2b", "b2c", "specific_agent"] := hv.audience
  have hagent : r.audience = "specific_agent" ↔ r.agentId.isSome := hv.agent
  simp only [List.mem_cons, List.not_mem_nil, or_false] at haudience
  rw [StoredRule.ruleAudience] at h
  rcases haudience with heq | heq | heq
  · rw [if_neg (by simp [heq]), if_pos heq] at h
    have hnone : r.agentId = none := by simpa [heq] using hagent
    cases h
    rw [heq, hnone]
    rfl
  · rw [if_pos heq] at h
    have hnone : r.agentId = none := by simpa [heq] using hagent
    cases h
    rw [heq, hnone]
    rfl
  · rw [if_neg (by simp [heq]), if_neg (by simp [heq]), map_eq_ok] at h
    obtain ⟨id, hid, rfl⟩ := h
    rw [fetch_eq_ok] at hid
    rw [heq, hid]
    rfl

/-- The two ends of a route are read back from their pair. -/
theorem ends_inj {o d o' d' : Option String} (h : o.isSome = d.isSome) (h' : o'.isSome = d'.isSome)
    (heq : Option.map₂ Prod.mk o d = Option.map₂ Prod.mk o' d') : o = o' ∧ d = d' := by
  cases o <;> cases d <;> cases o' <;> cases d' <;> simp_all

/-- Rules of one scope come from rows of one scope. -/
theorem scope_inj {a b : StoredRule} {ra rb : Rule} (ha : a.scope.Valid) (hb : b.scope.Valid)
    (hra : Parsed a ra) (hrb : Parsed b rb) (h : ra.scope = rb.scope) : a.scope = b.scope := by
  simp only [Rule.scope, Prod.mk.injEq, hra.airline, hrb.airline, hra.route, hrb.route] at h
  obtain ⟨haudience, hairline, hroute⟩ := h
  have hcolumns : (a.audience, a.agentId.map Uuid.text) = (b.audience, b.agentId.map Uuid.text) := by
    rw [ruleAudience_ok ha hra.audience, ruleAudience_ok hb hrb.audience, haudience]
  rw [Prod.mk.injEq] at hcolumns
  have hagent : a.agentId = b.agentId :=
    Option.map_injective (fun _ _ => Uuid.text_inj) hcolumns.2
  have hends : a.origin = b.origin ∧ a.destination = b.destination :=
    ends_inj ha.ends hb.ends hroute
  rw [StoredRule.scope, hcolumns.1, hagent, hairline, hends.1, hends.2, StoredRule.scope]

/-- What a process holds: recorded rules of its currency, one for each scope. -/
structure Loaded.Sound (versions : List RuleVersion) (l : Loaded) : Prop where
  recorded : ∀ r ∈ l.stored, ∃ v ∈ versions, v.ruleId = r.id ∧ v.version = r.version ∧
    v.definition.stored = r
  currency : ∀ r ∈ l.stored, r.currency = l.currency
  ids : (l.stored.map StoredRule.id).Nodup
  parsed : l.stored.mapM StoredRule.rule = .ok l.rules
  scopes : (l.rules.map Rule.scope).Nodup

theorem Loaded.Sound.mono {versions versions' : List RuleVersion} {l : Loaded}
    (hl : l.Sound versions) (h : versions ⊆ versions') : l.Sound versions' where
  recorded r hr := by
    obtain ⟨v, hv, hrecorded⟩ := hl.recorded r hr
    exact ⟨v, h hv, hrecorded⟩
  currency := hl.currency
  ids := hl.ids
  parsed := hl.parsed
  scopes := hl.scopes

theorem visible_perm (db : Rulebook) (c : Client) : ∃ rows : List RuleRow,
    rows.Sublist (db.rules.filter fun r => r.record.active) ∧
      (db.visible c).Perm (rows.map fun r => r.record.stored) := by
  refine ⟨_, ?_, List.perm_insertionSort _ _⟩
  apply List.monotone_filter_right
  intro r hr
  simp only [decide_eq_true_eq] at hr
  exact hr.1

theorem load_sound {client : Client} {request : SearchRequest} {currency : String} {l : Loaded}
    (hs : db.Sound) (h : db.load client request currency = .ok l) : l.Sound db.versions := by
  simp only [Rulebook.load, bind_eq_ok, pure_eq_ok] at h
  obtain ⟨rules, hrules, rfl⟩ := h
  obtain ⟨rows, hrows, hperm⟩ := visible_perm db client
  have hstored : ∀ r ∈ (db.visible client).filter (fun r => r.currency = currency),
      ∃ row ∈ db.rules, row.record.stored = r := by
    intro r hr
    obtain ⟨row, hrow, rfl⟩ := List.mem_map.mp (hperm.subset (List.mem_of_mem_filter hr))
    exact ⟨row, List.mem_of_mem_filter (hrows.subset hrow), rfl⟩
  have hvalid : ∀ r ∈ (db.visible client).filter (fun r => r.currency = currency),
      r.scope.Valid := by
    intro r hr
    obtain ⟨row, hrow, rfl⟩ := hstored r hr
    exact hs.scope row hrow
  constructor
  case recorded =>
    intro r hr
    obtain ⟨row, hrow, rfl⟩ := hstored r hr
    have hlogged := hs.history.recorded row.entry (List.mem_map_of_mem hrow)
    obtain ⟨v, hv, hentry⟩ := List.mem_map.mp hlogged
    simp only [RuleVersion.entry, Versions.logged, RuleRow.entry, Entry.mk.injEq] at hentry
    exact ⟨v, hv, hentry.1, hentry.2.1, congrArg RuleRecord.stored hentry.2.2⟩
  case currency =>
    intro r hr
    simpa using (List.mem_filter.mp hr).2
  case parsed => exact hrules
  case ids =>
    have hnodup : (rows.map fun r => r.record.stored.id).Nodup :=
      hs.ids.sublist ((hrows.trans List.filter_sublist).map _)
    have hvisible : ((db.visible client).map StoredRule.id).Nodup := by
      rw [(hperm.map StoredRule.id).nodup_iff, List.map_map]
      exact hnodup
    exact hvisible.sublist (List.filter_sublist.map _)
  case scopes =>
    have hnodup : (rows.map fun r => r.record.stored.scope).Nodup :=
      hs.active.sublist (hrows.map _)
    have hvisible : ((db.visible client).map StoredRule.scope).Nodup := by
      rw [(hperm.map StoredRule.scope).nodup_iff, List.map_map]
      exact hnodup
    have hloaded := hvisible.sublist (List.filter_sublist (p := fun r => r.currency = currency).map _)
    rw [List.Nodup, List.pairwise_map] at hloaded ⊢
    refine pairwise_right (R := fun a b => a.scope.Valid ∧ a.rule = .ok b) ?_
      ((List.forall₂_and_left _ _).mpr ⟨hvalid, mapM_eq_ok.mp hrules⟩) hloaded
    intro a ra b rb ha hb hne heq
    exact hne (scope_inj ha.1 hb.1 (rule_ok ha.2) (rule_ok hb.2) heq)

/-! ## What is priced with it -/

variable {d : Decimals} {desk : Desk}

/-- The selling fare and the quote are those of the rule a definition stands for, which is the one
that applies to the response. -/
structure PricedBy (d : Decimals) (l : Loaded) (definition : RuleRecord)
    (fare quoted selling tierPricing : Value) : Prop where
  currency : definition.input.currency = l.currency
  rule : ∃ rule, definition.stored.rule = .ok rule ∧
    applicableRule fare l.request l.rules l.client.pricingAudience = .ok rule ∧
    l.selling d fare rule = .ok selling ∧ l.quote d quoted selling rule = .ok tierPricing

/-- The recorded version an offer refers to is what it was priced with. -/
def OfferEvidence (d : Decimals) (versions : List RuleVersion) (l : Loaded) (o : OfferRow) : Prop :=
  ∃ v ∈ versions, v.ruleId = o.ruleId ∧ v.version = o.ruleVersion ∧
    ∃ selling fresh references,
      PricedBy d l v.definition o.original (tierOriginal o.original) selling o.tierPricing ∧
      o.selling = bindReferences fresh references (withBreakdown selling o.tierPricing)

/-- The recorded version a price refers to is what it was priced with. -/
def PriceEvidence (d : Decimals) (versions : List RuleVersion) (l : Loaded) (p : PriceRow) : Prop :=
  ∃ v ∈ versions, v.ruleId = p.ruleId ∧ v.version = p.ruleVersion ∧ p.currency = l.currency ∧
    ∃ selling fresh references changed,
      PricedBy d l v.definition (p.original.field "item1") (p.original.field "item1") selling
        p.tierPricing ∧
      p.selling = bindReferences fresh references (p.original.setField "item1"
        ((withBreakdown selling p.tierPricing).setField "isPriceChanged" (.bool changed)))

variable {versions versions' : List RuleVersion} {l : Loaded}

theorem OfferEvidence.mono {o : OfferRow} (ho : OfferEvidence d versions l o)
    (h : versions ⊆ versions') : OfferEvidence d versions' l o := by
  obtain ⟨v, hv, hevidence⟩ := ho
  exact ⟨v, h hv, hevidence⟩

theorem PriceEvidence.mono {p : PriceRow} (hp : PriceEvidence d versions l p)
    (h : versions ⊆ versions') : PriceEvidence d versions' l p := by
  obtain ⟨v, hv, hevidence⟩ := hp
  exact ⟨v, h hv, hevidence⟩

/-- The stored row found for the rule that applies is the one the rule was made of. -/
theorem applicable_ok (hl : l.Sound versions) {response : Value} {rule : Rule} {record : StoredRule}
    (h : l.applicable response = .ok (rule, record)) :
    applicableRule response l.request l.rules l.client.pricingAudience = .ok rule ∧
      ∃ v ∈ versions, v.ruleId = record.id ∧ v.version = record.version ∧
        v.definition.stored.rule = .ok rule ∧ v.definition.input.currency = l.currency := by
  simp only [Loaded.applicable, bind_eq_ok, fetch_eq_ok, pure_eq_ok, Prod.mk.injEq] at h
  obtain ⟨winner, hrule, found, hfound, rfl, rfl⟩ := h
  have hrecord := List.mem_of_find?_eq_some hfound
  have hid : found.id.text = winner.id := by simpa using List.find?_some hfound
  refine ⟨hrule, ?_⟩
  have hmem : winner ∈ l.rules := by
    simp only [applicableRule, bind_eq_ok, mapError_eq_ok] at hrule
    obtain ⟨_, -, hresolve⟩ := hrule
    exact (resolve_ok hresolve).mem
  obtain ⟨r, hr, hparsed⟩ := exists_input hl.parsed hmem
  have hsame : found = r := by
    apply List.inj_on_of_nodup_map hl.ids hrecord hr
    apply Uuid.text_inj
    rw [hid, (rule_ok hparsed).id]
  subst hsame
  obtain ⟨v, hv, hvid, hversion, hstored⟩ := hl.recorded found hrecord
  refine ⟨v, hv, hvid, hversion, by rw [hstored]; exact hparsed, ?_⟩
  have hcurrency := hl.currency found hrecord
  rw [← hstored] at hcurrency
  exact hcurrency

theorem offer_ok (hl : l.Sound versions) {searchId id : Uuid} {fresh : String → Uuid}
    {original : Value} {o : OfferRow} (h : l.offer d searchId id fresh original = .ok o) :
    o.searchId = searchId ∧ OfferEvidence d versions l o := by
  simp only [Loaded.offer, bind_eq_ok, ensure_eq_ok, exists_const, pure_eq_ok] at h
  obtain ⟨⟨rule, record⟩, happlicable, transaction, -, item, -, -, selling, hselling, quote, hquote,
    rfl⟩ := h
  obtain ⟨hrule, v, hv, hid, hversion, hparsed, hcurrency⟩ := applicable_ok hl happlicable
  exact ⟨rfl, v, hv, hid, hversion, selling, fresh, _,
    ⟨hcurrency, rule, hparsed, hrule, hselling, hquote⟩, rfl⟩

theorem price_ok (hl : l.Sound versions) {offer : OfferRow} {id : Uuid} {version : Nat}
    {fresh : String → Uuid} {original : Value} {p : PriceRow}
    (h : l.price desk offer id version fresh original = .ok p) :
    p.id = id ∧ p.offerId = offer.id ∧ PriceEvidence desk.decimals versions l p := by
  simp only [Loaded.price, bind_eq_ok, ensure_eq_ok, exists_const, pure_eq_ok] at h
  obtain ⟨-, -, _, transaction, -, item, -, price, -, ⟨rule, record⟩, happlicable, selling, hselling,
    taxes, -, componentTaxes, -, -, quote, hquote, -, changed, -, rfl⟩ := h
  obtain ⟨hrule, v, hv, hid, hversion, hparsed, hcurrency⟩ := applicable_ok hl happlicable
  exact ⟨rfl, rfl, v, hv, hid, hversion, rfl, selling, fresh, _, changed,
    ⟨hcurrency, rule, hparsed, hrule, hselling, hquote⟩, rfl⟩

end ShaponTravels.Markup
