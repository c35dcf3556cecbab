import Mathlib.Data.List.Nodup
import Mathlib.Data.List.Perm.Basic

/-!
# Scatter — writing a list at positions

Values are written at the positions they belong to, in any order.  Distinct positions keep each other's
values, so the order of the writes does not count.
-/

namespace Library

variable {α : Type} {acc : List α} {writes : List (Nat × α)} {w : Nat × α}

/-- The list after every write. -/
def scatter (acc : List α) (writes : List (Nat × α)) : List α :=
  writes.foldl (fun acc w => acc.set w.1 w.2) acc

theorem scatter_cons : scatter acc (w :: writes) = scatter (acc.set w.1 w.2) writes := rfl

theorem length_scatter (acc : List α) (writes : List (Nat × α)) :
    (scatter acc writes).length = acc.length := by
  induction writes generalizing acc with
  | nil => rfl
  | cons w writes ih => rw [scatter_cons, ih, List.length_set]

/-- A position nothing is written at keeps its value. -/
theorem getElem?_scatter_of_notMem {i : Nat} (h : i ∉ writes.map Prod.fst) :
    (scatter acc writes)[i]? = acc[i]? := by
  induction writes generalizing acc with
  | nil => rfl
  | cons w writes ih =>
    rw [List.map_cons, List.mem_cons, not_or] at h
    rw [scatter_cons, ih h.2, List.getElem?_set_ne (Ne.symm h.1)]

/-- A position written at once holds what was written. -/
theorem getElem?_scatter (hnodup : (writes.map Prod.fst).Nodup) (hw : w ∈ writes)
    (hbound : w.1 < acc.length) : (scatter acc writes)[w.1]? = some w.2 := by
  induction writes generalizing acc with
  | nil => cases hw
  | cons v writes ih =>
    rw [List.map_cons, List.nodup_cons] at hnodup
    rw [scatter_cons]
    rcases List.mem_cons.mp hw with rfl | hw
    · rw [getElem?_scatter_of_notMem hnodup.1, List.getElem?_set_self hbound]
    · exact ih hnodup.2 hw (by rwa [List.length_set])

/-- The order of the writes does not count. -/
theorem scatter_perm {writes' : List (Nat × α)} (hperm : writes.Perm writes')
    (hnodup : (writes.map Prod.fst).Nodup) : scatter acc writes = scatter acc writes' := by
  apply hperm.foldl_eq'
  intro v hv w hw acc
  by_cases heq : v = w
  · rw [heq]
  · have hne : v.1 ≠ w.1 := fun h => heq (List.inj_on_of_nodup_map hnodup hv hw h)
    exact List.set_comm _ _ hne

end Library
