import Mathlib.Algebra.BigOperators.Group.List.Basic
import Mathlib.Algebra.Order.BigOperators.Group.List
import Mathlib.Data.List.Sort
import Mathlib.Tactic.Common
import Mathlib.Tactic.Linarith

/-!
# Apportion — shares by the largest remainders

An amount is split in proportion to weights: every share is rounded down, and what is left goes one unit
at a time to the largest remainders, earlier positions first.
-/

namespace Library

/-! ## The ranking -/

/-- Larger remainders come first, and earlier positions among equal ones. -/
def Before (a b : Int × Nat) : Prop := b.1 < a.1 ∨ (a.1 = b.1 ∧ a.2 ≤ b.2)

instance (a b : Int × Nat) : Decidable (Before a b) := by unfold Before; infer_instance

/-- Remainders with their positions, ranked. -/
def ranking (rs : List Int) : List (Int × Nat) := rs.zipIdx.insertionSort Before

theorem before_trans {a b c : Int × Nat} (hab : Before a b) (hbc : Before b c) : Before a c := by
  unfold Before at *
  omega

theorem before_total (a b : Int × Nat) : Before a b ∨ Before b a := by
  unfold Before
  omega

theorem before_antisymm {a b : Int × Nat} (hab : Before a b) (hba : Before b a) : a = b := by
  unfold Before at *
  exact Prod.ext (by omega) (by omega)

theorem ranking_perm (rs : List Int) : (ranking rs).Perm rs.zipIdx := List.perm_insertionSort _ _

instance : IsTrans (Int × Nat) Before := ⟨fun _ _ _ => before_trans⟩

instance : Std.Total Before := ⟨before_total⟩

theorem ranking_sorted (rs : List Int) : (ranking rs).Pairwise Before := List.pairwise_insertionSort _ _

/-- Of a sorted list, who comes before a member of the first ones is one of them. -/
theorem mem_take_of_before {l : List (Int × Nat)} (hl : l.Pairwise Before) {k : Nat} {a b : Int × Nat}
    (ha : a ∈ l) (hb : b ∈ l.take k) (hab : Before a b) : a ∈ l.take k := by
  by_contra hnot
  rw [← List.take_append_drop k l, List.mem_append] at ha
  have hdrop := ha.resolve_left hnot
  rw [← List.take_append_drop k l, List.pairwise_append] at hl
  have hba := hl.2.2 b hb a hdrop
  exact hnot (before_antisymm hab hba ▸ hb)

/-! ## Raising positions -/

/-- One unit more at every position of a list. -/
def raise (xs : List Int) (is : List Nat) : List Int := is.foldl (fun xs i => xs.modify i (· + 1)) xs

theorem length_raise (xs : List Int) (is : List Nat) : (raise xs is).length = xs.length := by
  induction is generalizing xs with
  | nil => rfl
  | cons i is ih => exact (ih _).trans (List.length_modify ..)

theorem getElem?_raise {xs : List Int} {is : List Nat} (hnodup : is.Nodup) (j : Nat) :
    (raise xs is)[j]? = xs[j]?.map fun x => if j ∈ is then x + 1 else x := by
  induction is generalizing xs with
  | nil => simp [raise]
  | cons i is ih =>
    rw [List.nodup_cons] at hnodup
    rw [raise, List.foldl_cons, ← raise, ih hnodup.2, List.getElem?_modify, Option.map_eq_map,
      Option.map_map]
    congr 1
    funext x
    by_cases hij : i = j
    · subst hij
      simp [hnodup.1]
    · simp [hij, Ne.symm hij]

theorem sum_modify_succ {xs : List Int} {i : Nat} (hi : i < xs.length) :
    (xs.modify i (· + 1)).sum = xs.sum + 1 := by
  induction xs generalizing i with
  | nil => cases hi
  | cons x xs ih =>
    cases i with
    | zero =>
      rw [List.modify_zero_cons, List.sum_cons, List.sum_cons]
      omega
    | succ i =>
      rw [List.modify_succ_cons, List.sum_cons, List.sum_cons, ih (Nat.lt_of_succ_lt_succ hi)]
      omega

theorem sum_raise {xs : List Int} {is : List Nat} (his : ∀ i ∈ is, i < xs.length) :
    (raise xs is).sum = xs.sum + is.length := by
  induction is generalizing xs with
  | nil => simp [raise]
  | cons i is ih =>
    rw [List.forall_mem_cons] at his
    rw [raise, List.foldl_cons, ← raise, ih (fun j hj => by rw [List.length_modify]; exact his.2 j hj),
      sum_modify_succ his.1, List.length_cons]
    push_cast
    omega

/-! ## Shares -/

/-- The shares rounded down. -/
def floors (amount total : Int) (ws : List Int) : List Int := ws.map fun w => w * amount / total

/-- What the rounding leaves of each share. -/
def remainders (amount total : Int) (ws : List Int) : List Int := ws.map fun w => w * amount % total

/-- What the rounding leaves in all. -/
def left (amount : Int) (ws : List Int) : Int := amount - (floors amount ws.sum ws).sum

/-- The positions that get one unit more. -/
def raised (amount : Int) (ws : List Int) : List Nat :=
  ((ranking (remainders amount ws.sum ws)).take (left amount ws).toNat).map Prod.snd

/-- The shares of an amount. -/
def apportion (amount : Int) (ws : List Int) : List Int :=
  raise (floors amount ws.sum ws) (raised amount ws)

variable {amount : Int} {ws : List Int}

theorem floors_remainders (amount total : Int) (ws : List Int) :
    total * (floors amount total ws).sum + (remainders amount total ws).sum = ws.sum * amount := by
  induction ws with
  | nil => simp [floors, remainders]
  | cons w ws ih =>
    have hw := Int.mul_ediv_add_emod (w * amount) total
    simp only [floors, remainders, List.map_cons, List.sum_cons] at ih ⊢
    linarith [mul_add total (w * amount / total) (ws.map fun w => w * amount / total).sum,
      add_mul w ws.sum amount]

theorem remainders_bounds {total : Int} (htotal : 0 < total) (amount : Int) (ws : List Int) :
    0 ≤ (remainders amount total ws).sum ∧
      (remainders amount total ws).sum ≤ ws.length * (total - 1) := by
  induction ws with
  | nil => simp [remainders]
  | cons w ws ih =>
    have hlow := Int.emod_nonneg (w * amount) htotal.ne'
    have hhigh := Int.emod_lt_of_pos (w * amount) htotal
    simp only [remainders, List.map_cons, List.sum_cons, List.length_cons] at ih ⊢
    push_cast
    constructor
    · omega
    · linarith [add_mul (ws.length : Int) 1 (total - 1)]

/-- There is less left than there are shares. -/
theorem left_bounds (hsum : 0 < ws.sum) : 0 ≤ left amount ws ∧ left amount ws ≤ ws.length := by
  have hsplit := floors_remainders amount ws.sum ws
  obtain ⟨hlow, hhigh⟩ := remainders_bounds hsum amount ws
  have hleft : ws.sum * left amount ws = (remainders amount ws.sum ws).sum := by
    unfold left
    linarith [mul_sub ws.sum amount (floors amount ws.sum ws).sum]
  constructor
  · by_contra hneg
    have := mul_neg_of_pos_of_neg hsum (not_le.mp hneg)
    omega
  · by_contra hmore
    have hmul := mul_lt_mul_of_pos_left (not_le.mp hmore) hsum
    have hlength : (0 : Int) ≤ ws.length := Int.natCast_nonneg _
    linarith [mul_comm ws.sum (ws.length : Int), mul_sub (ws.length : Int) ws.sum 1]

theorem raised_sublist (amount : Int) (ws : List Int) :
    (raised amount ws).Sublist ((ranking (remainders amount ws.sum ws)).map Prod.snd) :=
  (List.take_sublist _ _).map _

theorem positions_perm (rs : List Int) : ((ranking rs).map Prod.snd).Perm (List.range rs.length) := by
  have h := (ranking_perm rs).map Prod.snd
  rwa [List.zipIdx_map_snd, ← List.range_eq_range'] at h

theorem raised_nodup (amount : Int) (ws : List Int) : (raised amount ws).Nodup :=
  (raised_sublist amount ws).nodup ((positions_perm _).nodup_iff.mpr List.nodup_range)

theorem raised_lt {i : Nat} (h : i ∈ raised amount ws) : i < ws.length := by
  have hmem := (positions_perm _).mem_iff.mp ((raised_sublist amount ws).mem h)
  rwa [List.mem_range, remainders, List.length_map] at hmem

theorem length_raised (hsum : 0 < ws.sum) : ((raised amount ws).length : Int) = left amount ws := by
  obtain ⟨hlow, hhigh⟩ := @left_bounds amount _ hsum
  have hlength : (ranking (remainders amount ws.sum ws)).length = ws.length := by
    rw [(ranking_perm _).length_eq, List.length_zipIdx, remainders, List.length_map]
  rw [raised, List.length_map, List.length_take, hlength]
  omega

/-- The shares add up to the amount. -/
theorem sum_apportion (hsum : 0 < ws.sum) : (apportion amount ws).sum = amount := by
  have hraise := @sum_raise (floors amount ws.sum ws) (raised amount ws) fun i hi => by
    rw [floors, List.length_map]
    exact raised_lt hi
  rw [apportion, hraise, length_raised hsum]
  unfold left
  omega

theorem getElem?_apportion (amount : Int) (ws : List Int) (i : Nat) :
    (apportion amount ws)[i]? = ws[i]?.map fun w =>
      if i ∈ raised amount ws then w * amount / ws.sum + 1 else w * amount / ws.sum := by
  rw [apportion, getElem?_raise (raised_nodup amount ws), floors, List.getElem?_map, Option.map_map]
  rfl

/-- Every share is rounded down, or one unit more. -/
theorem apportion_floor {i : Nat} {w x : Int} (hw : ws[i]? = some w) (hx : (apportion amount ws)[i]? = some x) :
    x = w * amount / ws.sum ∨ x = w * amount / ws.sum + 1 := by
  rw [getElem?_apportion, hw, Option.map_some] at hx
  cases hx
  split
  · exact .inr rfl
  · exact .inl rfl

/-- Of two equal weights the earlier one gets as much as the later one, or one unit more. -/
theorem apportion_fair {i j : Nat} {w x y : Int} (hij : i < j) (hi : ws[i]? = some w) (hj : ws[j]? = some w)
    (hx : (apportion amount ws)[i]? = some x) (hy : (apportion amount ws)[j]? = some y) :
    y ≤ x ∧ x ≤ y + 1 := by
  rw [getElem?_apportion, hi, Option.map_some] at hx
  rw [getElem?_apportion, hj, Option.map_some] at hy
  cases hx
  cases hy
  -- The earlier position has the same remainder, so it is ranked before the later one.
  have hranked : ∀ k, ws[k]? = some w →
      (w * amount % ws.sum, k) ∈ ranking (remainders amount ws.sum ws) := by
    intro k hk
    rw [(ranking_perm _).mem_iff, List.mk_mem_zipIdx_iff_getElem?, remainders, List.getElem?_map, hk]
    rfl
  have hearlier : j ∈ raised amount ws → i ∈ raised amount ws := by
    intro hraised
    obtain ⟨b, hb, hbj⟩ := List.mem_map.mp hraised
    have hmem := (ranking_perm _).mem_iff.mp (List.mem_of_mem_take hb)
    have hrest := (ranking_perm _).mem_iff.mp (hranked j hj)
    rw [List.mem_zipIdx_iff_getElem?] at hmem hrest
    dsimp only at hrest
    rw [hbj, hrest] at hmem
    have hfirst : w * amount % ws.sum = b.1 := Option.some.inj hmem
    have hbefore : Before (w * amount % ws.sum, i) b := .inr ⟨hfirst, by rw [hbj]; exact hij.le⟩
    exact List.mem_map.mpr ⟨_, mem_take_of_before (ranking_sorted _) (hranked i hi) hb hbefore, rfl⟩
  by_cases hj' : j ∈ raised amount ws
  · rw [if_pos hj', if_pos (hearlier hj')]
    omega
  · rw [if_neg hj']
    split <;> omega

end Library
