import ShaponTravels.Library.Grouping

/-!
# KeyedSums — sums by key

`sumOn key g k rows` adds up the amounts of the rows that carry the key `k`.  Added up over keys that cover the
rows it gives the sum of all of them.
-/

namespace Library

variable {κ α : Type} [DecidableEq κ] {key : α → κ} {g : α → Int}

/-- The sum of the rows with a key. -/
def sumOn (key : α → κ) (g : α → Int) (k : κ) (rows : List α) : Int :=
  (rows.map fun r => if key r = k then g r else 0).sum

@[simp] theorem sumOn_nil (k : κ) : sumOn key g k [] = 0 := rfl

@[simp] theorem sumOn_cons (k : κ) (r : α) (rows : List α) :
    sumOn key g k (r :: rows) = (if key r = k then g r else 0) + sumOn key g k rows := by
  simp only [sumOn, List.map_cons, List.sum_cons]

@[simp] theorem sumOn_append (k : κ) (rows rows' : List α) :
    sumOn key g k (rows ++ rows') = sumOn key g k rows + sumOn key g k rows' := by
  simp only [sumOn, List.map_append, List.sum_append]

theorem sumOn_nonneg {rows : List α} (h : ∀ r ∈ rows, 0 ≤ g r) (k : κ) : 0 ≤ sumOn key g k rows := by
  refine sum_nonneg fun r hr => ?_
  split
  · exact h r hr
  · omega

theorem sumOn_eq_zero {rows : List α} {k : κ} (h : ∀ r ∈ rows, key r ≠ k) : sumOn key g k rows = 0 :=
  sum_zero fun r hr => if_neg (h r hr)

/-- A sum that is not zero has a row with its key. -/
theorem exists_of_sumOn {rows : List α} {k : κ} (h : sumOn key g k rows ≠ 0) : ∃ r ∈ rows, key r = k := by
  by_contra hnone
  exact h (sumOn_eq_zero fun r hr hk => hnone ⟨r, hr, hk⟩)

theorem sumOn_flatMap {β : Type} (k : κ) (f : β → List α) (as : List β) :
    sumOn key g k (as.flatMap f) = (as.map fun a => sumOn key g k (f a)).sum := by
  induction as with
  | nil => rfl
  | cons a as ih => rw [List.flatMap_cons, sumOn_append, ih, List.map_cons, List.sum_cons]

/-- The rows of one key, added up after they were picked. -/
theorem sumOn_filter (k : κ) (rows : List α) : ((rows.filter fun r => key r = k).map g).sum = sumOn key g k rows :=
  sum_filter_map (fun r => key r = k) g rows

/-- The sums of keys that cover the rows add up to the sum of the rows. -/
theorem sum_sumOn {ks : List κ} (hks : ks.Nodup) {rows : List α} (h : ∀ r ∈ rows, key r ∈ ks) :
    (ks.map fun k => sumOn key g k rows).sum = (rows.map g).sum := by
  induction rows with
  | nil => exact sum_zero fun _ _ => rfl
  | cons r rows ih =>
    have hrow : (ks.map fun k => if key r = k then g r else 0).sum = g r := by
      have hkeys : KeyUnique (fun k : κ => k) ks := by
        unfold KeyUnique
        rw [List.map_id']
        exact hks
      have hone := hkeys.sum_key (h r List.mem_cons_self) fun _ => g r
      refine Eq.trans (sum_congr fun k _ => ?_) hone
      exact if_congr eq_comm rfl rfl
    have hrest := ih fun r' hr' => h r' (List.mem_cons_of_mem r hr')
    calc (ks.map fun k => sumOn key g k (r :: rows)).sum
        = (ks.map fun k => (if key r = k then g r else 0) + sumOn key g k rows).sum :=
          sum_congr fun k _ => sumOn_cons k r rows
      _ = g r + (rows.map g).sum := by rw [List.sum_map_add, hrow, hrest]

end Library
