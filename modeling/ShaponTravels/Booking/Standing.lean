import ShaponTravels.Booking.Binding

/-!
# Standing — the texts under reference keys

A text stands under a reference key when it is the value of the key or lies in the lists that are.
`search::bind_references` replaces the value of the key; inside a list it looks for keys again, and a text
of the list is published as it came.
-/

namespace ShaponTravels.Booking

mutual

/-- The texts that stand under a reference key; `held` says that the value itself does. -/
def standingTexts (held : Bool) : Value → List String
  | .str text => if held = true ∧ text ≠ "" then [text] else []
  | .arr values => standingTextsValues held values
  | .obj fields => standingTextsFields fields
  | _ => []

def standingTextsValues (held : Bool) : List Value → List String
  | [] => []
  | v :: values => standingTexts held v ++ standingTextsValues held values

def standingTextsFields : List (String × Value) → List String
  | [] => []
  | (key, v) :: fields => standingTexts (isReference key) v ++ standingTextsFields fields

end

mutual

/-- The texts that stand inside a list under a reference key. -/
def hiddenTexts (held : Bool) : Value → List String
  | .str text => if held = true ∧ text ≠ "" then [text] else []
  | .arr values => hiddenTextsValues held values
  | .obj fields => hiddenTextsFields fields
  | _ => []

def hiddenTextsValues (held : Bool) : List Value → List String
  | [] => []
  | v :: values => hiddenTexts held v ++ hiddenTextsValues held values

def hiddenTextsFields : List (String × Value) → List String
  | [] => []
  | (key, v) :: fields =>
    (match referenceText key v with
      | some _ => []
      | none => hiddenTexts (isReference key) v) ++ hiddenTextsFields fields

end

mutual

/-- A value with the texts that stand under a reference key renamed. -/
def retext (σ : String → String) (held : Bool) : Value → Value
  | .str text => .str (if held = true ∧ text ≠ "" then σ text else text)
  | .arr values => .arr (retextValues σ held values)
  | .obj fields => .obj (retextFields σ fields)
  | v => v

def retextValues (σ : String → String) (held : Bool) : List Value → List Value
  | [] => []
  | v :: values => retext σ held v :: retextValues σ held values

def retextFields (σ : String → String) : List (String × Value) → List (String × Value)
  | [] => []
  | (key, v) :: fields => (key, retext σ (isReference key) v) :: retextFields σ fields

end

section Fields

variable {key text : String} {v : Value} {fields : List (String × Value)}

theorem hiddenTextsFields_of_some (h : referenceText key v = some text) :
    hiddenTextsFields ((key, v) :: fields) = hiddenTextsFields fields := by
  rw [hiddenTextsFields, h]
  rfl

theorem hiddenTextsFields_of_none (h : referenceText key v = none) :
    hiddenTextsFields ((key, v) :: fields) =
      hiddenTexts (isReference key) v ++ hiddenTextsFields fields := by
  rw [hiddenTextsFields, h]

/-- A text that is replaced stands under its key. -/
theorem standingTexts_of_some (h : referenceText key v = some text) :
    standingTexts (isReference key) v = [text] := by
  obtain ⟨hkey, rfl, hne⟩ := referenceText_eq_some.mp h
  rw [standingTexts, if_pos ⟨hkey, hne⟩]

theorem retext_of_some {σ : String → String} (h : referenceText key v = some text) :
    retext σ (isReference key) v = .str (σ text) := by
  obtain ⟨hkey, rfl, hne⟩ := referenceText_eq_some.mp h
  rw [retext, if_pos ⟨hkey, hne⟩]

/-- What is not replaced does not become a text under its key. -/
theorem referenceText_retext_of_none {σ : String → String} (h : referenceText key v = none) :
    referenceText key (retext σ (isReference key) v) = none := by
  cases v with
  | str text =>
    have hnot : ¬ (isReference key = true ∧ text ≠ "") := by
      intro hboth
      rw [referenceText_eq_some.mpr ⟨hboth.1, rfl, hboth.2⟩] at h
      cases h
    rw [retext, if_neg hnot]
    exact h
  | arr | obj =>
    rw [retext, referenceText]
    exact ite_self _
  | _ => exact h

end Fields

/-! ## What is published under reference keys -/

section Published

variable {name : String → Uuid} {text : String}

mutual

/-- The texts of a renamed value are its names and the texts that lie in lists. -/
theorem mem_standingTexts_rename : ∀ (held : Bool) (v : Value),
    text ∈ standingTexts held (renameReferences (fun a => .str (name a).text) v) ↔
      (∃ a ∈ referenceTexts v, (name a).text = text) ∨ text ∈ hiddenTexts held v
  | _, .null | _, .bool _ | _, .num _ => by
    simp [renameReferences, standingTexts, referenceTexts, hiddenTexts]
  | held, .str s => by
    simp [renameReferences, standingTexts, referenceTexts, hiddenTexts]
  | held, .arr values => by
    rw [renameReferences, standingTexts, referenceTexts, hiddenTexts]
    exact mem_standingTextsValues_rename held values
  | _, .obj fields => by
    rw [renameReferences, standingTexts, referenceTexts, hiddenTexts]
    exact mem_standingTextsFields_rename fields

theorem mem_standingTextsValues_rename : ∀ (held : Bool) (values : List Value),
    text ∈ standingTextsValues held (renameValues (fun a => .str (name a).text) values) ↔
      (∃ a ∈ referenceTextsValues values, (name a).text = text) ∨ text ∈ hiddenTextsValues held values
  | _, [] => by simp [renameValues, standingTextsValues, referenceTextsValues, hiddenTextsValues]
  | held, v :: values => by
    rw [renameValues, standingTextsValues, referenceTextsValues, hiddenTextsValues, List.mem_append,
      List.mem_append, mem_standingTexts_rename held v, mem_standingTextsValues_rename held values,
      or_or_or_comm]
    simp only [List.mem_append, or_and_right, exists_or]

theorem mem_standingTextsFields_rename : ∀ fields : List (String × Value),
    text ∈ standingTextsFields (renameFields (fun a => .str (name a).text) fields) ↔
      (∃ a ∈ referenceTextsFields fields, (name a).text = text) ∨ text ∈ hiddenTextsFields fields
  | [] => by simp [renameFields, standingTextsFields, referenceTextsFields, hiddenTextsFields]
  | (key, v) :: fields => by
    have hrest := mem_standingTextsFields_rename fields
    cases htext : referenceText key v with
    | some a =>
      obtain ⟨hkey, -, -⟩ := referenceText_eq_some.mp htext
      have hfirst : standingTexts (isReference key) (.str (name a).text) = [(name a).text] := by
        rw [standingTexts, if_pos ⟨hkey, text_ne_empty (name a)⟩]
      rw [renameFields_of_some htext, standingTextsFields, referenceTextsFields_of_some htext,
        hiddenTextsFields_of_some htext, hfirst, List.mem_append, hrest, List.mem_singleton,
        eq_comm (a := text), ← or_assoc]
      simp only [List.mem_cons, exists_eq_or_imp]
    | none =>
      rw [renameFields_of_none htext, standingTextsFields, referenceTextsFields_of_none htext,
        hiddenTextsFields_of_none htext, List.mem_append, List.mem_append,
        mem_standingTexts_rename (isReference key) v, hrest, or_or_or_comm]
      simp only [List.mem_append, or_and_right, exists_or]

end

mutual

/-- A walk leaves the texts of lists as they were. -/
theorem hiddenTexts_rename : ∀ (held : Bool) (v : Value),
    hiddenTexts held (renameReferences (fun a => .str (name a).text) v) = hiddenTexts held v
  | _, .null | _, .bool _ | _, .num _ | _, .str _ => rfl
  | held, .arr values => hiddenTextsValues_rename held values
  | _, .obj fields => hiddenTextsFields_rename fields

theorem hiddenTextsValues_rename : ∀ (held : Bool) (values : List Value),
    hiddenTextsValues held (renameValues (fun a => .str (name a).text) values) =
      hiddenTextsValues held values
  | _, [] => rfl
  | held, v :: values => by
    rw [renameValues, hiddenTextsValues, hiddenTextsValues, hiddenTexts_rename held v,
      hiddenTextsValues_rename held values]

theorem hiddenTextsFields_rename : ∀ fields : List (String × Value),
    hiddenTextsFields (renameFields (fun a => .str (name a).text) fields) = hiddenTextsFields fields
  | [] => rfl
  | (key, v) :: fields => by
    cases htext : referenceText key v with
    | some a =>
      obtain ⟨hkey, -, -⟩ := referenceText_eq_some.mp htext
      have hnamed := referenceText_eq_some.mpr ⟨hkey, rfl, text_ne_empty (name a)⟩
      rw [renameFields_of_some htext, hiddenTextsFields_of_some hnamed, hiddenTextsFields_of_some htext,
        hiddenTextsFields_rename fields]
    | none =>
      have hnot : referenceText key (renameReferences (fun a => .str (name a).text) v) = none := by
        cases v with
        | arr | obj => rw [renameReferences, referenceText]; exact ite_self _
        | _ => exact htext
      rw [renameFields_of_none htext, hiddenTextsFields_of_none hnot, hiddenTextsFields_of_none htext,
        hiddenTexts_rename (isReference key) v, hiddenTextsFields_rename fields]

end

end Published

/-! ## Renamed texts -/

section Retext

variable {σ : String → String}

mutual

theorem hiddenTexts_retext (hσ : ∀ text, text ≠ "" → σ text ≠ "") : ∀ (held : Bool) (v : Value),
    hiddenTexts held (retext σ held v) = (hiddenTexts held v).map σ
  | _, .null | _, .bool _ | _, .num _ => rfl
  | held, .str text => by
    rw [retext, hiddenTexts, hiddenTexts]
    by_cases hheld : held = true ∧ text ≠ ""
    · rw [if_pos hheld, if_pos ⟨hheld.1, hσ text hheld.2⟩, if_pos hheld]
      rfl
    · rw [if_neg hheld, if_neg hheld]
      rfl
  | held, .arr values => hiddenTextsValues_retext hσ held values
  | _, .obj fields => hiddenTextsFields_retext hσ fields

theorem hiddenTextsValues_retext (hσ : ∀ text, text ≠ "" → σ text ≠ "") :
    ∀ (held : Bool) (values : List Value),
      hiddenTextsValues held (retextValues σ held values) = (hiddenTextsValues held values).map σ
  | _, [] => rfl
  | held, v :: values => by
    rw [retextValues, hiddenTextsValues, hiddenTextsValues, hiddenTexts_retext hσ held v,
      hiddenTextsValues_retext hσ held values, List.map_append]

theorem hiddenTextsFields_retext (hσ : ∀ text, text ≠ "" → σ text ≠ "") :
    ∀ fields : List (String × Value),
      hiddenTextsFields (retextFields σ fields) = (hiddenTextsFields fields).map σ
  | [] => rfl
  | (key, v) :: fields => by
    rw [retextFields]
    cases htext : referenceText key v with
    | some text =>
      obtain ⟨hkey, -, hne⟩ := referenceText_eq_some.mp htext
      rw [retext_of_some htext, hiddenTextsFields_of_some htext,
        hiddenTextsFields_of_some (referenceText_eq_some.mpr ⟨hkey, rfl, hσ text hne⟩),
        hiddenTextsFields_retext hσ fields]
    | none =>
      rw [hiddenTextsFields_of_none htext, hiddenTextsFields_of_none (referenceText_retext_of_none htext),
        hiddenTexts_retext hσ (isReference key) v, hiddenTextsFields_retext hσ fields, List.map_append]

end

/-- `t` has for the renamed texts what `s` has for the texts, and will draw the same identifiers. -/
structure Relabels (σ : String → String) (texts : Set String) (s t : Binding) : Prop where
  drawn : t.drawn = s.drawn
  get? : ∀ text ∈ texts, t.get? (σ text) = s.get? text

variable {draw : Nat → Uuid} {texts : Set String} {s t : Binding}

theorem Relabels.entry {text : String} (h : Relabels σ texts s t) (hσ : Set.InjOn σ texts)
    (htext : text ∈ texts) : (t.entry draw (σ text)).1 = (s.entry draw text).1 ∧
      Relabels σ texts (s.entry draw text).2 (t.entry draw (σ text)).2 := by
  cases hs : s.get? text with
  | some v =>
    rw [Binding.entry_of_some hs, Binding.entry_of_some ((h.get? text htext).trans hs)]
    exact ⟨rfl, h⟩
  | none =>
    rw [Binding.entry_of_none hs, Binding.entry_of_none ((h.get? text htext).trans hs), h.drawn]
    refine ⟨rfl, rfl, ?_⟩
    intro a ha
    rw [Binding.get?_insert, Binding.get?_insert, h.get? a ha]
    by_cases heq : text = a
    · rw [if_pos heq, if_pos (congrArg σ heq)]
    · rw [if_neg heq, if_neg fun hsame => heq (hσ htext ha hsame)]

mutual

/-- Where no text lies in a list, the renamed value is published the same. -/
theorem bindInto_retext (hσ : Set.InjOn σ texts) (hne : ∀ text ∈ texts, σ text ≠ "") :
    ∀ (held : Bool) (v : Value) {s t : Binding}, Relabels σ texts s t → hiddenTexts held v = [] →
      (∀ text ∈ standingTexts held v, text ∈ texts) →
      (bindInto draw (retext σ held v) t).1 = (bindInto draw v s).1 ∧
        Relabels σ texts (bindInto draw v s).2 (bindInto draw (retext σ held v) t).2
  | _, .null, _, _, h, _, _ | _, .bool _, _, _, h, _, _ | _, .num _, _, _, h, _, _ => ⟨rfl, h⟩
  | held, .str text, _, _, h, hnone, _ => by
    have hnot : ¬ (held = true ∧ text ≠ "") := by
      intro hheld
      rw [hiddenTexts, if_pos hheld] at hnone
      cases hnone
    rw [retext, if_neg hnot]
    exact ⟨rfl, h⟩
  | held, .arr values, _, _, h, hnone, hall => by
    obtain ⟨hsame, hnext⟩ := bindValuesInto_retext hσ hne held values h hnone hall
    exact ⟨congrArg Value.arr hsame, hnext⟩
  | _, .obj fields, _, _, h, hnone, hall => by
    obtain ⟨hsame, hnext⟩ := bindFieldsInto_retext hσ hne fields h hnone hall
    exact ⟨congrArg Value.obj hsame, hnext⟩

theorem bindValuesInto_retext (hσ : Set.InjOn σ texts) (hne : ∀ text ∈ texts, σ text ≠ "") :
    ∀ (held : Bool) (values : List Value) {s t : Binding}, Relabels σ texts s t →
      hiddenTextsValues held values = [] → (∀ text ∈ standingTextsValues held values, text ∈ texts) →
      (bindValuesInto draw (retextValues σ held values) t).1 = (bindValuesInto draw values s).1 ∧
        Relabels σ texts (bindValuesInto draw values s).2
          (bindValuesInto draw (retextValues σ held values) t).2
  | _, [], _, _, h, _, _ => ⟨rfl, h⟩
  | held, v :: values, s, t, h, hnone, hall => by
    rw [hiddenTextsValues, List.append_eq_nil_iff] at hnone
    rw [standingTextsValues, List.forall_mem_append] at hall
    obtain ⟨hfirst, hnext⟩ := bindInto_retext hσ hne held v h hnone.1 hall.1
    obtain ⟨hrest, hlast⟩ := bindValuesInto_retext hσ hne held values hnext hnone.2 hall.2
    rw [retextValues, bindValuesInto, bindValuesInto]
    dsimp only
    rw [hfirst, hrest]
    exact ⟨rfl, hlast⟩

theorem bindFieldsInto_retext (hσ : Set.InjOn σ texts) (hne : ∀ text ∈ texts, σ text ≠ "") :
    ∀ (fields : List (String × Value)) {s t : Binding}, Relabels σ texts s t →
      hiddenTextsFields fields = [] → (∀ text ∈ standingTextsFields fields, text ∈ texts) →
      (bindFieldsInto draw (retextFields σ fields) t).1 = (bindFieldsInto draw fields s).1 ∧
        Relabels σ texts (bindFieldsInto draw fields s).2
          (bindFieldsInto draw (retextFields σ fields) t).2
  | [], _, _, h, _, _ => ⟨rfl, h⟩
  | (key, v) :: fields, s, t, h, hnone, hall => by
    rw [standingTextsFields, List.forall_mem_append] at hall
    rw [retextFields]
    cases htext : referenceText key v with
    | some text =>
      rw [standingTexts_of_some htext, List.forall_mem_singleton] at hall
      rw [hiddenTextsFields_of_some htext] at hnone
      obtain ⟨hkey, -, -⟩ := referenceText_eq_some.mp htext
      obtain ⟨hfirst, hnext⟩ := @Relabels.entry _ draw _ _ _ _ h hσ hall.1
      obtain ⟨hrest, hlast⟩ := bindFieldsInto_retext hσ hne fields hnext hnone hall.2
      rw [retext_of_some htext, bindFieldsInto_of_some htext,
        bindFieldsInto_of_some (referenceText_eq_some.mpr ⟨hkey, rfl, hne text hall.1⟩)]
      dsimp only
      rw [hfirst, hrest]
      exact ⟨rfl, hlast⟩
    | none =>
      rw [hiddenTextsFields_of_none htext, List.append_eq_nil_iff] at hnone
      obtain ⟨hfirst, hnext⟩ := bindInto_retext hσ hne (isReference key) v h hnone.1 hall.1
      obtain ⟨hrest, hlast⟩ := bindFieldsInto_retext hσ hne fields hnext hnone.2 hall.2
      rw [bindFieldsInto_of_none htext, bindFieldsInto_of_none (referenceText_retext_of_none htext)]
      dsimp only
      rw [hfirst, hrest]
      exact ⟨rfl, hlast⟩

end

end Retext

/-! ## What publication hides -/

/-- A text the map publishes something as. -/
def Binding.Public (s : Binding) (text : String) : Prop := ∃ original, s.get? original = some (.str text)

/-- Every text that stands under a reference key of the published value is a public reference. -/
def StandsPublic (draw : Nat → Uuid) (v : Value) (s : Binding) : Prop :=
  ∀ text ∈ standingTexts false (bindInto draw v s).1, (bindInto draw v s).2.Public text

/-- Renaming the texts that stand under reference keys one to one, in the value and in the map, changes
nothing in what is published. -/
def HidesTexts (draw : Nat → Uuid) (v : Value) (s : Binding) : Prop :=
  ∀ σ : String → String, Set.InjOn σ {text | text ∈ standingTexts false v} →
    (∀ text ∈ standingTexts false v, σ text ≠ "") →
    ∀ t, Relabels σ {text | text ∈ standingTexts false v} s t →
      (bindInto draw (retext σ false v) t).1 = (bindInto draw v s).1

section Hides

variable {draw : Nat → Uuid} {v : Value} {s : Binding}

/-- What is not public already shows only where it lies in a list. -/
theorem standsPublic_iff (hs : s.Identifiers) : StandsPublic draw v s ↔
    ∀ text ∈ hiddenTexts false v, (bindInto draw v s).2.Public text := by
  obtain ⟨published, hrenamed, hpublished⟩ := @bindInto_published draw v _ hs
  rw [StandsPublic, hrenamed]
  constructor
  · intro h text hmem
    exact h text ((mem_standingTexts_rename false v).mpr (.inr hmem))
  · intro h text hmem
    rcases (mem_standingTexts_rename false v).mp hmem with ⟨a, ha, rfl⟩ | hhidden
    · exact ⟨a, hpublished a ha⟩
    · exact h text hhidden

theorem hiddenTexts_bindInto (hs : s.Identifiers) (held : Bool) :
    hiddenTexts held (bindInto draw v s).1 = hiddenTexts held v := by
  obtain ⟨published, hrenamed, -⟩ := @bindInto_published draw v _ hs
  rw [hrenamed, hiddenTexts_rename]

/-- The map of a supplier that writes a letter before each of its references. -/
def Binding.marked (s : Binding) : Binding := ⟨s.map.map fun f => ("x" ++ f.1, f.2), s.drawn⟩

theorem marked_inj {a b : String} (h : "x" ++ a = "x" ++ b) : a = b := by
  have hlist := congrArg String.toList h
  rw [String.toList_append, String.toList_append, List.append_cancel_left_eq] at hlist
  exact String.toList_inj.mp hlist

theorem Binding.get?_marked (s : Binding) (text : String) : s.marked.get? ("x" ++ text) = s.get? text := by
  rw [Binding.get?, Binding.get?, Value.get?, Value.get?, Binding.marked]
  dsimp only
  have hkeys : ((fun f : String × Value => decide (f.1 = "x" ++ text)) ∘
      fun f : String × Value => ("x" ++ f.1, f.2)) = fun f => decide (f.1 = text) :=
    funext fun _ => decide_eq_decide.mpr ⟨marked_inj, congrArg ("x" ++ ·)⟩
  rw [List.find?_map, Option.map_map, hkeys]
  rfl

theorem Binding.Identifiers.marked (hs : s.Identifiers) : s.marked.Identifiers := by
  intro key v h
  obtain ⟨f, hf, rfl⟩ := Option.map_eq_some_iff.mp h
  have hkey : f.1 = key := by simpa using List.find?_some hf
  obtain ⟨g, hg, rfl⟩ := List.mem_map.mp (List.mem_of_find?_eq_some hf)
  dsimp only at hkey
  subst hkey
  rw [Binding.get?_marked] at h
  exact hs g.1 _ h

/-- A supplier's references are hidden exactly where none lies in a list under a reference key. -/
theorem bindInto_hides_iff (draw : Nat → Uuid) (v : Value) {s : Binding} (hs : s.Identifiers) :
    StandsPublic draw v s ∧ HidesTexts draw v s ↔ hiddenTexts false v = [] := by
  constructor
  · intro h
    have hne : ∀ text : String, text ≠ "" → "x" ++ text ≠ "" := by
      intro text _ hempty
      exact absurd (congrArg String.length hempty) (by simp)
    have hsame := h.2 ("x" ++ ·) (fun a _ b _ hab => marked_inj hab)
      (fun text _ => fun hempty => absurd (congrArg String.length hempty) (by simp))
      s.marked ⟨rfl, fun text _ => s.get?_marked text⟩
    have htexts := congrArg (hiddenTexts false) hsame
    rw [hiddenTexts_bindInto hs.marked, hiddenTexts_bindInto hs, hiddenTexts_retext hne] at htexts
    -- A text never begins with one letter more than itself.
    cases hhidden : hiddenTexts false v with
    | nil => rfl
    | cons text texts =>
      rw [hhidden, List.map_cons, List.cons_eq_cons] at htexts
      have hlength := congrArg String.length htexts.1
      rw [String.length_append] at hlength
      exact absurd hlength (by simp)
  · intro hnone
    constructor
    · rw [standsPublic_iff hs, hnone]
      exact fun _ h => absurd h List.not_mem_nil
    · intro σ hσ hne t ht
      exact (bindInto_retext hσ hne false v ht hnone fun _ h => h).1

/-- A reference in a list under a key of references. -/
def sampleListed : Value := .object [("segmentCodeRefs", .arr [.str "GDS-1"])]

theorem bindInto_hides_single :
    StandsPublic sampleDraw (.object [("segmentCodeRef", .str "GDS-1")]) ⟨[], 0⟩ ∧
      HidesTexts sampleDraw (.object [("segmentCodeRef", .str "GDS-1")]) ⟨[], 0⟩ :=
  (bindInto_hides_iff sampleDraw _ fun _ _ h => by cases h).mpr (by decide +kernel)

/-- It is published as it came, and the map knows nothing of it. -/
theorem bindInto_shows_listed :
    "GDS-1" ∈ standingTexts false (bindInto sampleDraw sampleListed ⟨[], 0⟩).1 ∧
      ¬ StandsPublic sampleDraw sampleListed ⟨[], 0⟩ := by
  have hpublished : (bindInto sampleDraw sampleListed ⟨[], 0⟩).1 = sampleListed := by decide +kernel
  have hmap : (bindInto sampleDraw sampleListed ⟨[], 0⟩).2 = ⟨[], 0⟩ := by
    rfl
  have hstands : "GDS-1" ∈ standingTexts false (bindInto sampleDraw sampleListed ⟨[], 0⟩).1 := by
    rw [hpublished]
    decide +kernel
  refine ⟨hstands, fun h => ?_⟩
  obtain ⟨original, horiginal⟩ := h "GDS-1" hstands
  rw [hmap] at horiginal
  cases horiginal

end Hides

end ShaponTravels.Booking
