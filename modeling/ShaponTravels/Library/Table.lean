import Mathlib.Tactic.Common
import Mathlib.Algebra.BigOperators.Group.List.Basic
import Mathlib.Algebra.Order.BigOperators.Group.List
import Mathlib.Algebra.Order.Group.Int
import Mathlib.Algebra.Ring.Int.Defs
import Mathlib.Data.List.Nodup

/-!
# Table — keyed rows in insertion order

A table is the list of its rows.  `lookup` finds the row with a key, `modify` rewrites it,
`KeyUnique` is the primary-key constraint.  Sums over a table follow one rule each for the
three ways a table changes: a row is added, a row is rewritten, no row carries the key.
-/

namespace Library

section Keys

variable {κ α : Type} (key : α → κ)

/-- The primary-key constraint: no two rows carry the same key. -/
def KeyUnique (rows : List α) : Prop := (rows.map key).Nodup

variable {key}

@[simp] theorem KeyUnique.nil : KeyUnique key [] := List.nodup_nil

theorem keyUnique_cons {r : α} {rows : List α} :
    KeyUnique key (r :: rows) ↔ (∀ r' ∈ rows, key r' ≠ key r) ∧ KeyUnique key rows := by
  simp only [KeyUnique, List.map_cons, List.nodup_cons, List.mem_map, not_exists, not_and]

theorem KeyUnique.eq_of_key {rows : List α} (hu : KeyUnique key rows) {r r' : α}
    (hr : r ∈ rows) (hr' : r' ∈ rows) (hk : key r = key r') : r = r' :=
  List.inj_on_of_nodup_map hu hr hr' hk

/-- Adding a row keeps the key unique exactly when the key is new. -/
theorem keyUnique_concat {r : α} {rows : List α} :
    KeyUnique key (rows ++ [r]) ↔ KeyUnique key rows ∧ ∀ r' ∈ rows, key r' ≠ key r := by
  simp only [KeyUnique, List.map_append, List.map_cons, List.map_nil, List.nodup_append,
    List.nodup_cons, List.not_mem_nil, not_false_eq_true, List.nodup_nil, and_self, true_and,
    List.mem_map, List.mem_singleton, forall_exists_index, and_imp, forall_apply_eq_imp_iff₂,
    forall_eq, ne_eq]

/-- A selection that only one row of a table meets is that row. -/
theorem KeyUnique.filter_eq {rows : List α} (hu : KeyUnique key rows) {p : α → Bool} {r : α}
    (hr : r ∈ rows) (hp : p r) (h : ∀ r' ∈ rows, p r' → key r' = key r) :
    rows.filter p = [r] := by
  induction rows with
  | nil => cases hr
  | cons x rows ih =>
    obtain ⟨hx, hu'⟩ := keyUnique_cons.mp hu
    rcases List.mem_cons.mp hr with rfl | hmem
    · rw [List.filter_cons_of_pos hp, List.filter_eq_nil_iff.mpr]
      intro r' hr' hp'
      exact hx r' hr' (h r' (List.mem_cons_of_mem _ hr') hp')
    · have hpx : ¬ p x := fun hpx => hx r hmem (h x List.mem_cons_self hpx).symm
      rw [List.filter_cons_of_neg hpx]
      exact ih hu' hmem (fun r' hr' => h r' (List.mem_cons_of_mem _ hr'))

end Keys

section Rows

variable {κ α : Type} [DecidableEq κ] (key : α → κ)

/-- The first row whose key is `k`. -/
def lookup (k : κ) (rows : List α) : Option α :=
  rows.find? (fun r => key r = k)

/-- Rewrite every row whose key is `k`. -/
def modify (k : κ) (f : α → α) (rows : List α) : List α :=
  rows.map (fun r => if key r = k then f r else r)

variable {key}

theorem lookup_mem {k : κ} {rows : List α} {r : α} (h : lookup key k rows = some r) : r ∈ rows :=
  List.mem_of_find?_eq_some h

theorem lookup_key {k : κ} {rows : List α} {r : α} (h : lookup key k rows = some r) :
    key r = k := by
  have hk := List.find?_some h
  simpa using hk

theorem lookup_eq_none {k : κ} {rows : List α} :
    lookup key k rows = none ↔ ∀ r ∈ rows, key r ≠ k := by
  simp [lookup, List.find?_eq_none]

theorem KeyUnique.lookup {rows : List α} (hu : KeyUnique key rows) {r : α} (hr : r ∈ rows) :
    lookup key (key r) rows = some r := by
  cases hl : Library.lookup key (key r) rows with
  | none => exact absurd rfl (lookup_eq_none.mp hl r hr)
  | some r' => rw [hu.eq_of_key (lookup_mem hl) hr (lookup_key hl)]

theorem KeyUnique.lookup_iff {rows : List α} (hu : KeyUnique key rows) {k : κ} {r : α} :
    Library.lookup key k rows = some r ↔ r ∈ rows ∧ key r = k := by
  constructor
  · intro h; exact ⟨lookup_mem h, lookup_key h⟩
  · rintro ⟨hr, rfl⟩; exact hu.lookup hr

theorem lookup_concat {k : κ} {rows : List α} {r : α} :
    lookup key k (rows ++ [r]) =
      (lookup key k rows).or (if key r = k then some r else none) := by
  simp only [lookup, List.find?_append, List.find?_cons, List.find?_nil]
  by_cases h : key r = k
  · simp [h]
  · simp [h]

/-! ### Rewriting one row -/

theorem mem_modify {k : κ} {f : α → α} {rows : List α} {r' : α} :
    r' ∈ modify key k f rows ↔ ∃ r ∈ rows, (if key r = k then f r else r) = r' := by
  simp only [modify, List.mem_map]

theorem mem_modify_of_mem {k : κ} {f : α → α} {rows : List α} {r : α} (hr : r ∈ rows)
    (hk : key r = k) : f r ∈ modify key k f rows :=
  mem_modify.mpr ⟨r, hr, if_pos hk⟩

theorem mem_modify_of_ne {k : κ} {f : α → α} {rows : List α} {r : α} (hr : r ∈ rows)
    (hk : key r ≠ k) : r ∈ modify key k f rows :=
  mem_modify.mpr ⟨r, hr, if_neg hk⟩

/-- A row of the rewritten table is an untouched row or the image of the rewritten one. -/
theorem modify_cases {k : κ} {f : α → α} {rows : List α} {r' : α}
    (h : r' ∈ modify key k f rows) :
    (r' ∈ rows ∧ key r' ≠ k) ∨ ∃ r ∈ rows, key r = k ∧ r' = f r := by
  obtain ⟨r, hr, rfl⟩ := mem_modify.mp h
  by_cases hk : key r = k
  · rw [if_pos hk]; exact .inr ⟨r, hr, hk, rfl⟩
  · rw [if_neg hk]; exact .inl ⟨hr, hk⟩

/-- A rewrite that keeps a projection of every row keeps the projections of the table. -/
theorem map_modify {β : Type} {k : κ} {f : α → α} {g : α → β} (hf : ∀ r, g (f r) = g r)
    (rows : List α) : (modify key k f rows).map g = rows.map g := by
  simp only [modify, List.map_map]
  apply List.map_congr_left
  intro r _
  simp only [Function.comp]
  split
  · exact hf r
  · rfl

theorem KeyUnique.modify {k : κ} {f : α → α} {rows : List α} (hu : KeyUnique key rows)
    (hf : ∀ r, key (f r) = key r) : KeyUnique key (modify key k f rows) := by
  rw [KeyUnique, map_modify hf]
  exact hu

/-- The rows with a key are replaced by one with the same key. -/
theorem KeyUnique.replace {k : κ} {row : α} (hrow : key row = k) {rows : List α}
    (hu : KeyUnique key rows) : KeyUnique key (Library.modify key k (fun _ => row) rows) := by
  have hkeys : (Library.modify key k (fun _ => row) rows).map key = rows.map key := by
    rw [Library.modify, List.map_map]
    apply List.map_congr_left
    intro r _
    simp only [Function.comp]
    split
    · rename_i hr
      rw [hrow, hr]
    · rfl
  rw [KeyUnique, hkeys]
  exact hu

theorem modify_of_absent {k : κ} {f : α → α} {rows : List α} (h : ∀ r ∈ rows, key r ≠ k) :
    modify key k f rows = rows := by
  have hid : ∀ r ∈ rows, (if key r = k then f r else r) = id r := fun r hr => if_neg (h r hr)
  rw [modify, List.map_congr_left hid, List.map_id]

theorem modify_congr {k : κ} {f g : α → α} {rows : List α}
    (h : ∀ r ∈ rows, key r = k → f r = g r) : modify key k f rows = modify key k g rows := by
  apply List.map_congr_left
  intro r hr
  split
  · exact h r hr ‹_›
  · rfl

@[simp] theorem length_modify {k : κ} {f : α → α} {rows : List α} :
    (modify key k f rows).length = rows.length := by
  simp [modify]

theorem lookup_modify_self {k : κ} {f : α → α} (hf : ∀ r, key (f r) = key r) (rows : List α) :
    lookup key k (modify key k f rows) = (lookup key k rows).map f := by
  induction rows with
  | nil => rfl
  | cons r rows ih =>
    simp only [lookup, modify, List.map_cons, List.find?_cons] at ih ⊢
    by_cases hk : key r = k
    · simp [hk, hf]
    · simp only [hk, if_false, decide_false]; exact ih

theorem lookup_modify_ne {k k' : κ} {f : α → α} (hf : ∀ r, key (f r) = key r) (hne : k' ≠ k)
    (rows : List α) : lookup key k' (modify key k f rows) = lookup key k' rows := by
  induction rows with
  | nil => rfl
  | cons r rows ih =>
    simp only [lookup, modify, List.map_cons, List.find?_cons] at ih ⊢
    by_cases hk : key r = k
    · have hr : key r ≠ k' := fun h => hne (h.symm.trans hk)
      simp only [hk, if_true, hf]
      simp only [Ne.symm hne, decide_false]
      exact ih
    · simp only [hk, if_false, ih]

/-- The row with a key is replaced by one with the same key. -/
theorem lookup_replace {k : κ} {row : α} (hrow : key row = k) (rows : List α) :
    lookup key k (modify key k (fun _ => row) rows) = (lookup key k rows).map fun _ => row := by
  induction rows with
  | nil => rfl
  | cons r rows ih =>
    simp only [lookup, modify, List.map_cons, List.find?_cons] at ih ⊢
    by_cases hk : key r = k
    · simp [hk, hrow]
    · simp only [hk, if_false, decide_false]; exact ih

theorem lookup_replace_ne {k k' : κ} {row : α} (hrow : key row = k) (hne : k' ≠ k) (rows : List α) :
    lookup key k' (modify key k (fun _ => row) rows) = lookup key k' rows := by
  induction rows with
  | nil => rfl
  | cons r rows ih =>
    simp only [lookup, modify, List.map_cons, List.find?_cons] at ih ⊢
    by_cases hk : key r = k
    · have hr : key r ≠ k' := fun h => hne (h.symm.trans hk)
      simp only [hk, if_true, hrow]
      simp only [Ne.symm hne, decide_false]
      exact ih
    · simp only [hk, if_false, ih]

end Rows

section Sums

variable {κ α : Type} [DecidableEq κ] {key : α → κ}

/-- Rewriting the row with key `k` changes a sum by the row's new weight minus its old one. -/
theorem sum_modify {rows : List α} (hu : KeyUnique key rows) {r : α} (hr : r ∈ rows)
    (f : α → α) (g : α → Int) :
    ((modify key (key r) f rows).map g).sum = (rows.map g).sum - g r + g (f r) := by
  induction rows with
  | nil => cases hr
  | cons x rows ih =>
    obtain ⟨hx, hu⟩ := keyUnique_cons.mp hu
    rcases List.mem_cons.mp hr with rfl | hmem
    · have habs : modify key (key r) f rows = rows := modify_of_absent hx
      have hcons : modify key (key r) f (r :: rows) = f r :: modify key (key r) f rows := by
        simp [modify]
      rw [hcons, habs]
      simp only [List.map_cons, List.sum_cons]
      omega
    · have hne : key x ≠ key r := fun h => hx r hmem h.symm
      have hcons : modify key (key r) f (x :: rows) = x :: modify key (key r) f rows := by
        simp [modify, hne]
      rw [hcons]
      simp only [List.map_cons, List.sum_cons, ih hu hmem]
      omega

/-- A rewrite that keeps every weight keeps the sum. -/
theorem sum_modify_eq {rows : List α} {k : κ} {f : α → α} {g : α → Int}
    (h : ∀ r ∈ rows, key r = k → g (f r) = g r) :
    ((modify key k f rows).map g).sum = (rows.map g).sum := by
  simp only [modify, List.map_map]
  congr 1
  apply List.map_congr_left
  intro r hr
  simp only [Function.comp]
  split
  · exact h r hr ‹_›
  · rfl

theorem sum_concat (rows : List α) (r : α) (g : α → Int) :
    ((rows ++ [r]).map g).sum = (rows.map g).sum + g r := by
  simp

theorem sum_filter_map (p : α → Prop) [DecidablePred p] (g : α → Int) (rows : List α) :
    ((rows.filter (fun r => p r)).map g).sum = (rows.map (fun r => if p r then g r else 0)).sum := by
  induction rows with
  | nil => rfl
  | cons r rows ih =>
    by_cases h : p r
    · simp [h, ih]
    · simp [h, ih]

theorem sum_congr {rows : List α} {g g' : α → Int} (h : ∀ r ∈ rows, g r = g' r) :
    (rows.map g).sum = (rows.map g').sum := by
  rw [List.map_congr_left h]

theorem sum_zero {rows : List α} {g : α → Int} (h : ∀ r ∈ rows, g r = 0) :
    (rows.map g).sum = 0 := by
  rw [List.map_congr_left h]
  simp

theorem sum_nonneg {rows : List α} {g : α → Int} (h : ∀ r ∈ rows, 0 ≤ g r) :
    0 ≤ (rows.map g).sum := by
  apply List.sum_nonneg
  intro x hx
  obtain ⟨r, hr, rfl⟩ := List.mem_map.mp hx
  exact h r hr

theorem sum_le_sum {rows : List α} {g g' : α → Int} (h : ∀ r ∈ rows, g r ≤ g' r) :
    (rows.map g).sum ≤ (rows.map g').sum := by
  induction rows with
  | nil => simp
  | cons r rows ih =>
    simp only [List.map_cons, List.sum_cons]
    have h1 := h r List.mem_cons_self
    have h2 := ih (fun r hr => h r (List.mem_cons_of_mem _ hr))
    omega

/-- Two tables that carry the same keys, with the same amounts, have the same sum. -/
theorem sum_matched {α β κ : Type} {key : α → κ} {key' : β → κ} {g : α → Int} {g' : β → Int} {rows : List α}
    {rows' : List β} (hu : KeyUnique key rows) (hu' : KeyUnique key' rows')
    (hforth : ∀ r ∈ rows, ∃ r' ∈ rows', key' r' = key r ∧ g' r' = g r)
    (hback : ∀ r' ∈ rows', ∃ r ∈ rows, key r = key' r') : (rows.map g).sum = (rows'.map g').sum := by
  have hpairs : (rows.map fun r => (key r, g r)).Perm (rows'.map fun r => (key' r, g' r)) := by
    have hnodup : (rows.map fun r => (key r, g r)).Nodup := by
      refine List.Nodup.of_map Prod.fst ?_
      rw [List.map_map]
      exact hu
    have hnodup' : (rows'.map fun r => (key' r, g' r)).Nodup := by
      refine List.Nodup.of_map Prod.fst ?_
      rw [List.map_map]
      exact hu'
    refine (List.perm_ext_iff_of_nodup hnodup hnodup').mpr fun p => ?_
    simp only [List.mem_map]
    constructor
    · rintro ⟨r, hr, rfl⟩
      obtain ⟨r', hr', hkey, hamount⟩ := hforth r hr
      exact ⟨r', hr', by rw [hkey, hamount]⟩
    · rintro ⟨r', hr', rfl⟩
      obtain ⟨r, hr, hkey⟩ := hback r' hr'
      obtain ⟨r₁, hr₁, hkey₁, hamount⟩ := hforth r hr
      -- the row that `r` is matched with carries the key of `r'`
      obtain rfl := hu'.eq_of_key hr₁ hr' (hkey₁.trans hkey)
      exact ⟨r, hr, by rw [hkey, hamount]⟩
  have hsum := (hpairs.map Prod.snd).sum_eq
  rw [List.map_map, List.map_map] at hsum
  exact hsum

end Sums

/-! ## Rows that go on -/

/-- Every row goes on, and every row comes from one that was there or from a fresh one. -/
structure Follows {ρ : Type} (next : ρ → ρ → Prop) (fresh : ρ → Prop) (rows rows' : List ρ) : Prop where
  kept : ∀ r ∈ rows, ∃ r' ∈ rows', next r r'
  traced : ∀ r' ∈ rows', ∃ r, (r ∈ rows ∨ fresh r) ∧ next r r'

namespace Follows

variable {ρ : Type} {next : ρ → ρ → Prop} {fresh : ρ → Prop} {rows rows' rows'' : List ρ}

theorem refl (hrefl : ∀ r, next r r) (rows : List ρ) : Follows next fresh rows rows where
  kept r hr := ⟨r, hr, hrefl r⟩
  traced r hr := ⟨r, .inl hr, hrefl r⟩

theorem trans (htrans : ∀ r r' r'', next r r' → next r' r'' → next r r'')
    (h : Follows next fresh rows rows') (h' : Follows next fresh rows' rows'') :
    Follows next fresh rows rows'' where
  kept r hr := by
    obtain ⟨r', hr', hnext⟩ := h.kept r hr
    obtain ⟨r'', hr'', hnext'⟩ := h'.kept r' hr'
    exact ⟨r'', hr'', htrans r r' r'' hnext hnext'⟩
  traced r'' hr'' := by
    obtain ⟨r', hr' | hfresh, hnext'⟩ := h'.traced r'' hr''
    · obtain ⟨r, hr, hnext⟩ := h.traced r' hr'
      exact ⟨r, hr, htrans r r' r'' hnext hnext'⟩
    · exact ⟨r', .inr hfresh, hnext'⟩

theorem concat (hrefl : ∀ r, next r r) {r : ρ} (hfresh : fresh r) :
    Follows next fresh rows (rows ++ [r]) where
  kept r' hr' := ⟨r', List.mem_append_left _ hr', hrefl r'⟩
  traced r' hr' := by
    refine ⟨r', ?_, hrefl r'⟩
    rcases List.mem_append.mp hr' with hmem | hnew
    · exact .inl hmem
    · rw [List.mem_singleton.mp hnew]
      exact .inr hfresh

theorem modify {κ : Type} [DecidableEq κ] {key : ρ → κ} {k : κ} {f : ρ → ρ} (hrefl : ∀ r, next r r)
    (hnext : ∀ r ∈ rows, key r = k → next r (f r)) :
    Follows next fresh rows (Library.modify key k f rows) where
  kept r hr := by
    refine ⟨_, mem_modify.mpr ⟨r, hr, rfl⟩, ?_⟩
    split
    · rename_i hid
      exact hnext r hr hid
    · exact hrefl r
  traced r' hr' := by
    rcases modify_cases hr' with ⟨hmem, -⟩ | ⟨r, hr, hid, rfl⟩
    · exact ⟨r', .inl hmem, hrefl r'⟩
    · exact ⟨r, .inl hr, hnext r hr hid⟩

end Follows

end Library
