import Mathlib.Data.List.Sort
import Mathlib.Tactic.Common

/-!
# Pages — a descending list read piece by piece

A page is what lies below the last key of the page before it, as much of it as the page holds.  One row more
than that is read to tell whether another page follows.
-/

namespace Library

variable {α : Type} {key : α → Int} {xs ys : List α}

/-! ## Descending lists -/

/-- The keys of a list strictly descend. -/
def Descending (key : α → Int) (xs : List α) : Prop := xs.Pairwise fun x y => key y < key x

namespace Descending

theorem filter (h : Descending key xs) (p : α → Bool) : Descending key (xs.filter p) := h.sublist List.filter_sublist

theorem nodup (h : Descending key xs) : xs.Nodup := by
  refine h.imp ?_
  intro x y hlt heq
  rw [heq] at hlt
  exact lt_irrefl _ hlt

/-- A descending list is determined by its members. -/
theorem ext (hx : Descending key xs) (hy : Descending key ys) (h : ∀ x, x ∈ xs ↔ x ∈ ys) : xs = ys := by
  have hperm : xs.Perm ys := (List.perm_ext_iff_of_nodup hx.nodup hy.nodup).mpr h
  have hxs : xs.Pairwise fun x y => key y < key x ∨ x = y := hx.imp .inl
  have hys : ys.Pairwise fun x y => key y < key x ∨ x = y := hy.imp .inl
  refine hperm.eq_of_pairwise ?_ hxs hys
  intro x y _ _ hxy hyx
  rcases hxy with hxy | hxy
  · rcases hyx with hyx | hyx
    · exact absurd hxy (lt_asymm hyx)
    · exact hyx.symm
  · exact hxy

/-- Sorting a list of distinct keys makes it descend. -/
theorem sorted (hxs : (xs.map key).Nodup) : Descending key (xs.insertionSort fun x y => key y ≤ key x) := by
  have htrans : IsTrans α fun x y => key y ≤ key x := ⟨fun _ _ _ hxy hyz => le_trans hyz hxy⟩
  have htotal : Std.Total fun x y : α => key y ≤ key x := ⟨fun x y => le_total (key y) (key x)⟩
  have hle := List.pairwise_insertionSort (fun x y : α => key y ≤ key x) xs
  have hne : ((xs.insertionSort fun x y => key y ≤ key x).map key).Nodup :=
    ((List.perm_insertionSort _ _).map key).nodup_iff.mpr hxs
  refine (hle.and (List.pairwise_map.mp hne)).imp ?_
  intro x y h
  exact lt_of_le_of_ne h.1 (Ne.symm h.2)

end Descending

/-! ## Pages -/

/-- What lies below a bound, or everything. -/
def below (key : α → Int) (bound : Option Int) (xs : List α) : List α :=
  xs.filter fun x => bound.all fun b => key x < b

theorem below_none (key : α → Int) (xs : List α) : below key none xs = xs := by
  simp [below]

theorem mem_below {bound : Option Int} {x : α} :
    x ∈ below key bound xs ↔ x ∈ xs ∧ ∀ b ∈ bound, key x < b := by
  rw [below, List.mem_filter]
  cases bound with
  | none => simp
  | some b => simp

/-- A lower bound is all that is left of two. -/
theorem below_below {b : Int} {bound : Option Int} (h : ∀ b' ∈ bound, b ≤ b') (xs : List α) :
    below key (some b) (below key bound xs) = below key (some b) xs := by
  rw [below, below, below, List.filter_filter]
  apply List.filter_congr
  intro x _
  cases bound with
  | none => simp
  | some b' =>
    have hle := h b' rfl
    simp only [Option.all_some, Bool.and_eq_decide]
    rw [decide_eq_decide]
    simp only [decide_eq_true_eq]
    omega

/-- A descending list is its first elements and what lies below the last of them. -/
theorem Descending.split (h : Descending key xs) {i : Nat} (hi : i < xs.length) :
    xs = xs.take (i + 1) ++ below key (some (key xs[i])) xs := by
  induction xs generalizing i with
  | nil => cases hi
  | cons x xs ih =>
    rw [Descending, List.pairwise_cons] at h
    cases i with
    | zero =>
      rw [List.take_succ_cons, List.take_zero, List.singleton_append, below, List.filter_cons_of_neg (by simp),
        List.filter_eq_self.mpr]
      intro y hy
      exact decide_eq_true (h.1 y hy)
    | succ i =>
      have hi' : i < xs.length := Nat.lt_of_succ_lt_succ hi
      have hlt : key xs[i] < key x := h.1 _ (List.getElem_mem hi')
      have hrest := ih h.2 hi'
      rw [List.take_succ_cons, List.cons_append, below, List.filter_cons_of_neg (by simpa using hlt.le)]
      exact congrArg (x :: ·) hrest

/-- A page of a list of rows, and the bound of the page after it. -/
structure Sheet (key : α → Int) (limit : Nat) (rows page : List α) (next : Option Int) : Prop where
  page : page = rows.take limit
  next : next = if limit < rows.length then (rows[limit - 1]?).map key else none

/-- The page and what lies below it are what lies below the bound of the page. -/
theorem Sheet.split {limit : Nat} {bound next : Option Int} {page : List α} (hxs : Descending key xs)
    (hlimit : 0 < limit) (h : Sheet key limit ((below key bound xs).take (limit + 1)) page next) :
    below key bound xs = page ++ (next.elim [] fun b => below key (some b) xs) ∧
      ∀ b ∈ next, page ≠ [] ∧ (∀ b' ∈ bound, b < b') ∧ ∃ x ∈ xs, key x = b := by
  have hbelow : Descending key (below key bound xs) := hxs.filter _
  obtain ⟨hpage, hnext⟩ := h
  rw [List.take_take, min_eq_left (Nat.le_succ limit)] at hpage
  rw [List.length_take] at hnext
  by_cases hmore : limit < (below key bound xs).length
  · have hlast : limit - 1 < (below key bound xs).length := by omega
    rw [if_pos (by omega), List.getElem?_take_of_lt (by omega), List.getElem?_eq_getElem hlast,
      Option.map_some] at hnext
    have hbound : ∀ b' ∈ bound, key (below key bound xs)[limit - 1] < b' :=
      (mem_below.mp (List.getElem_mem hlast)).2
    have hsplit := hbelow.split hlast
    rw [Nat.sub_add_cancel hlimit, below_below fun b' hb' => (hbound b' hb').le] at hsplit
    rw [hnext, hpage]
    refine ⟨hsplit, ?_⟩
    intro b hb
    cases hb
    refine ⟨?_, hbound, _, (mem_below.mp (List.getElem_mem hlast)).1, rfl⟩
    intro hempty
    rw [List.take_eq_nil_iff] at hempty
    rcases hempty with hzero | hnil
    · omega
    · rw [hnil] at hmore
      exact absurd hmore (Nat.not_lt_zero _)
  · rw [if_neg (by omega)] at hnext
    rw [hnext, hpage, List.take_of_length_le (by omega)]
    exact ⟨by simp, fun b hb => absurd hb (Option.not_mem_none b)⟩

end Library
