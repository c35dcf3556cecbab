import ShaponTravels.Library.Versions
import ShaponTravels.Markup.Quotes

/-!
# Changes — what the commands do to the rules

Every command adds a row, rewrites one or deletes one; that is all the invariants below know of it.
-/

namespace ShaponTravels.Markup

open Library ShaponTravels.Pricing

variable {n : Numeric} {db db' : Rulebook} {who : Author} {agents : Uuid → Nat} {id : Uuid}
  {expectedVersion : Int}

/-! ## The rules as versioned rows -/

def RuleRow.entry (r : RuleRow) : Entry Uuid RuleRow := ⟨r.id, r.record.version, r⟩

def RuleVersion.entry (v : RuleVersion) : Entry Uuid RuleRecord := ⟨v.ruleId, v.version, v.definition⟩

/-- The live rows and the recorded versions. -/
def Rulebook.history (db : Rulebook) : Versions Uuid RuleRow RuleRecord :=
  ⟨db.rules.map RuleRow.entry, db.versions.map RuleVersion.entry⟩

/-- What a scope needs to be read back from the rule it is made into. -/
structure Scope.Valid (s : Scope) : Prop where
  audience : s.audience ∈ ["b2b", "b2c", "specific_agent"]
  agent : s.audience = "specific_agent" ↔ s.agentId.isSome
  ends : s.origin.isSome = s.destination.isSome

theorem RuleInput.Valid.scope {r : RuleInput} (h : r.Valid) (n : Numeric) :
    (n.stored r).scope.Valid :=
  ⟨h.audience, h.agent, h.ends⟩

/-- The rules become `rules`, and `row` is recorded. -/
structure Recorded (db : Rulebook) (rules : List RuleRow) (row : RuleRecord) (db' : Rulebook) :
    Prop where
  live : db'.rules = rules
  unique : (activeScopes rules).Nodup
  fresh : ¬ db.recorded row.id row.version
  versions : ∃ v : RuleVersion, v.ruleId = row.id ∧ v.version = row.version ∧ v.definition = row ∧
    db'.versions = db.versions ++ [v]

/-- What a command does; its label is the rule it edits and the version of it. -/
inductive Change (db db' : Rulebook) : Option (Uuid × Nat) → Prop
  | created (row : RuleRecord) :
      (∀ r ∈ db.rules, r.id ≠ row.id) → row.version = 1 → row.active = false → row.input.scope.Valid →
      Recorded db (db.rules ++ [⟨row, false⟩]) row db' → Change db db' none
  | revised (old row : RuleRow) :
      old ∈ db.rules → old.archived = false → row.id = old.id →
      row.record.version = old.record.version + 1 → (row.record.input.scope.Valid ∨
        row.record.input = old.record.input) → (row.archived → row.record.active = false) →
      Recorded db (modify RuleRow.id old.id (fun _ => row) db.rules) row.record db' →
      Change db db' (some (old.id, old.record.version))
  | deleted (old : RuleRow) :
      old ∈ db.rules → old.archived = false →
      db'.rules = (db.rules.filter fun r => r.id ≠ old.id) → db'.versions = db.versions →
      Change db db' (some (old.id, old.record.version))

/-! ## The commands -/

theorem write_ok {rules : List RuleRow} (h : db.write rules = .ok db') :
    (activeScopes rules).Nodup ∧ db' = { db with rules := rules } := by
  simp only [Rulebook.write, bind_eq_ok, ensure_eq_ok, exists_const, pure_eq_ok] at h
  exact ⟨h.1, h.2.symm⟩

theorem record_ok {rules : List RuleRow} {row : RuleRecord} {action : String}
    (hunique : (activeScopes rules).Nodup)
    (h : record { db with rules := rules } who row action = .ok db') :
    Recorded db rules row db' := by
  simp only [record, bind_eq_ok, ensure_eq_ok, exists_const, pure_eq_ok] at h
  obtain ⟨hfresh, rfl⟩ := h
  exact ⟨rfl, hunique, hfresh, _, rfl, rfl, rfl, rfl⟩

theorem revise_ok {row : RuleRow} {action : String} (h : db.revise who row action = .ok db') :
    Recorded db (modify RuleRow.id row.id (fun _ => row) db.rules) row.record db' := by
  simp only [Rulebook.revise, bind_eq_ok, ensure_eq_ok, exists_const] at h
  obtain ⟨-, db₁, hwrite, hrecord⟩ := h
  obtain ⟨hunique, rfl⟩ := write_ok hwrite
  exact record_ok hunique hrecord

theorem current_ok {row : RuleRow} (h : db.current id expectedVersion = .ok row) :
    row ∈ db.rules ∧ row.id = id ∧ row.archived = false ∧
      (row.record.version : Int) = expectedVersion := by
  simp only [Rulebook.current, bind_eq_ok, fetch_eq_ok, ensure_eq_ok, exists_const, pure_eq_ok] at h
  obtain ⟨found, hfound, hversion, rfl⟩ := h
  have hrow := List.find?_some hfound
  simp only [Bool.not_eq_true, decide_eq_true_eq] at hrow
  exact ⟨List.mem_of_find?_eq_some hfound, hrow.1, hrow.2, hversion⟩

theorem create_ok {input : RuleInput} {row : RuleRecord}
    (h : create n db who agents id input = .ok (row, db')) : Change db db' none := by
  simp only [create, bind_eq_ok, RuleInput.validate, validateAgent, ensure_eq_ok, exists_const,
    pure_eq_ok, Prod.mk.injEq] at h
  obtain ⟨hvalid, -, hid, db₁, hwrite, db₂, hrecord, -, rfl⟩ := h
  obtain ⟨hunique, rfl⟩ := write_ok hwrite
  exact .created _ hid rfl rfl (hvalid.scope n) (record_ok hunique hrecord)

theorem update_ok {rule : RuleInput} {row : RuleRecord}
    (h : update n db who agents id expectedVersion rule = .ok (row, db')) :
    Change db db' (some (id, expectedVersion.toNat)) := by
  simp only [update, bind_eq_ok, RuleInput.validate, validateAgent, ensure_eq_ok, exists_const,
    pure_eq_ok, Prod.mk.injEq] at h
  obtain ⟨hvalid, old, hold, -, db₁, hrevise, -, rfl⟩ := h
  obtain ⟨hmem, rfl, hopen, rfl⟩ := current_ok hold
  have hrecorded := revise_ok hrevise
  exact .revised old ⟨⟨old.id, n.stored rule, old.record.active, old.record.version + 1⟩, false⟩ hmem
    hopen rfl rfl (.inl (hvalid.scope n)) (by simp) hrecorded

theorem status_ok {active : Bool} {row : RuleRecord}
    (h : status db who agents id expectedVersion active = .ok (row, db')) :
    Change db db' (some (id, expectedVersion.toNat)) := by
  simp only [status, bind_eq_ok, validateAgent, ensure_eq_ok, exists_const, pure_eq_ok,
    Prod.mk.injEq] at h
  obtain ⟨old, hold, -, db₁, hrevise, -, rfl⟩ := h
  obtain ⟨hmem, rfl, hopen, rfl⟩ := current_ok hold
  have hrecorded := revise_ok hrevise
  exact .revised old ⟨⟨old.id, old.record.input, active, old.record.version + 1⟩, false⟩ hmem hopen
    rfl rfl (.inr rfl) (by simp) hrecorded

theorem remove_ok {used : Bool} {disposition : String}
    (h : remove db who id expectedVersion used = .ok (disposition, db')) :
    Change db db' (some (id, expectedVersion.toNat)) := by
  simp only [remove, bind_eq_ok] at h
  obtain ⟨_, -, old, hold, h⟩ := h
  obtain ⟨hmem, rfl, hopen, rfl⟩ := current_ok hold
  cases used with
  | true =>
    simp only [if_true, bind_eq_ok, pure_eq_ok, Prod.mk.injEq] at h
    obtain ⟨db₁, hrevise, -, rfl⟩ := h
    have hrecorded := revise_ok hrevise
    exact .revised old ⟨⟨old.id, old.record.input, false, old.record.version + 1⟩, true⟩ hmem hopen
      rfl rfl (.inr rfl) (fun _ => rfl) hrecorded
  | false =>
    simp only [Bool.false_eq_true, if_false, pure_eq_ok, Prod.mk.injEq] at h
    obtain ⟨-, rfl⟩ := h
    exact .deleted old hmem hopen rfl rfl

/-! ## They are edits of the history -/

abbrev Edit : Versions Uuid RuleRow RuleRecord → Option (Uuid × Nat) →
    Versions Uuid RuleRow RuleRecord → Prop :=
  Versions.Edit (fun r => r.archived = true) RuleRow.record

theorem map_entry_modify {old row : RuleRow} {rules : List RuleRow} (hid : row.id = old.id)
    (hversion : row.record.version = old.record.version + 1) :
    (modify RuleRow.id old.id (fun _ => row) rules).map RuleRow.entry =
      modify Entry.key old.id (fun _ => ⟨old.id, old.record.version + 1, row⟩)
        (rules.map RuleRow.entry) := by
  simp only [Library.modify, List.map_map]
  apply List.map_congr_left
  intro r _
  simp only [Function.comp, RuleRow.entry]
  by_cases h : r.id = old.id
  · simp [h, hid, hversion]
  · simp [h]

theorem Change.edit {label : Option (Uuid × Nat)} (h : Change db db' label) :
    Edit db.history label db'.history := by
  cases h with
  | created row hid hone _ _ hrecorded =>
    obtain ⟨v, hvid, hversion, hdefinition, hversions⟩ := hrecorded.versions
    have hlive : ∀ e ∈ db.history.live, e.key ≠ row.id := by
      simp only [Rulebook.history, List.mem_map]
      rintro _ ⟨r, hr, rfl⟩
      exact hid r hr
    have hlog : ∀ l ∈ db.history.log, ¬ (l.key = row.id ∧ l.version = 1) := by
      simp only [Rulebook.history, List.mem_map]
      rintro _ ⟨w, hw, rfl⟩ hkey
      exact hrecorded.fresh ⟨w, hw, hkey.1, hkey.2.trans hone.symm⟩
    have hstep : Versions.Edit (fun r : RuleRow => r.archived = true) RuleRow.record db.history none _ :=
      .create row.id ⟨row, false⟩ hlive hlog
    have hhistory : db'.history = ⟨db.history.live ++ [⟨row.id, 1, ⟨row, false⟩⟩],
        db.history.log ++ [⟨row.id, 1, row⟩]⟩ := by
      rw [Rulebook.history, hrecorded.live, hversions, List.map_append, List.map_append]
      simp [Rulebook.history, RuleRow.entry, RuleVersion.entry, RuleRow.id, hvid, hversion,
        hdefinition, hone]
    rw [hhistory]
    exact hstep
  | revised old row hold hopen hid hversion _ _ hrecorded =>
    obtain ⟨v, hvid, hvversion, hdefinition, hversions⟩ := hrecorded.versions
    have hstep : Versions.Edit (fun r : RuleRow => r.archived = true) RuleRow.record db.history _ _ :=
      .revise old.entry row (List.mem_map_of_mem hold) (by simp [RuleRow.entry, hopen])
    have hhistory : db'.history =
        ⟨modify Entry.key old.id (fun _ => ⟨old.id, old.record.version + 1, row⟩) db.history.live,
          db.history.log ++ [⟨old.id, old.record.version + 1, row.record⟩]⟩ := by
      rw [Rulebook.history, hrecorded.live, hversions, map_entry_modify hid hversion,
        List.map_append]
      have hkey : row.record.id = old.id := hid
      simp [Rulebook.history, RuleVersion.entry, hvid, hvversion, hdefinition, hversion, hkey]
    rw [hhistory]
    exact hstep
  | deleted old hold hopen hrules hversions =>
    have hstep : Versions.Edit (fun r : RuleRow => r.archived = true) RuleRow.record db.history _ _ :=
      .delete old.entry (List.mem_map_of_mem hold) (by simp [RuleRow.entry, hopen])
    have hhistory : db'.history =
        ⟨db.history.live.filter fun e => e.key ≠ old.entry.key, db.history.log⟩ := by
      rw [Rulebook.history, hrules, hversions, Rulebook.history]
      congr 1
      rw [List.filter_map]
      rfl
    rw [hhistory]
    exact hstep

end ShaponTravels.Markup
