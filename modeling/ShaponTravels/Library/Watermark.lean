import Mathlib.Tactic.Common
import Mathlib.Data.List.Perm.Basic
import Mathlib.Data.List.Nodup
import Mathlib.Algebra.Order.Group.Int

/-!
# Watermark — a register written in the order of another clock

Writes carry a time and arrive in any order.  The register keeps the latest time it has seen and
refuses every write of an earlier one.  A write may come without a value: it moves the watermark
and leaves the register.  Such writes are what the order of arrival matters for.
-/

namespace Library

structure TimedWrite (α : Type) where
  time : Int
  value : Option α

structure Watermark (α : Type) where
  mark : Option Int
  value : α
  deriving DecidableEq

namespace Watermark

variable {α : Type} {s : Watermark α} {e v : TimedWrite α} {es : List (TimedWrite α)} {a : α}

def record (s : Watermark α) (e : TimedWrite α) : Watermark α :=
  if s.mark.all (· ≤ e.time) then ⟨some e.time, e.value.getD s.value⟩ else s

def replay (s : Watermark α) (es : List (TimedWrite α)) : Watermark α := es.foldl record s

/-- Nothing of the time `t` or before is refused yet. -/
def Below (s : Watermark α) (t : Int) : Prop := ∀ m ∈ s.mark, m ≤ t

theorem record_of_below (h : s.Below e.time) :
    s.record e = ⟨some e.time, e.value.getD s.value⟩ := by
  have hall : s.mark.all (· ≤ e.time) = true := by
    cases hmark : s.mark with
    | none => rfl
    | some m => simpa using h m hmark
  rw [record, if_pos hall]

theorem record_of_late {m : Int} (hm : s.mark = some m) (h : e.time < m) : s.record e = s := by
  have hall : ¬ (s.mark.all (· ≤ e.time) = true) := by
    rw [hm]
    simpa using h
  rw [record, if_neg hall]

/-! ## Late writes are refused -/

/-- When every value is older than the watermark the register stays as it is. -/
theorem replay_late {m : Int} (hm : s.mark = some m)
    (h : ∀ e ∈ es, e.value ≠ none → e.time < m) : (s.replay es).value = s.value := by
  induction es generalizing s m with
  | nil => rfl
  | cons e es ih =>
    show ((s.record e).replay es).value = s.value
    have hrest := fun e' he' => h e' (List.mem_cons_of_mem _ he')
    rcases lt_or_ge e.time m with hlate | hnew
    · rw [record_of_late hm hlate]
      exact ih hm hrest
    · -- the write has no value, and the watermark only rises
      have hnone : e.value = none := by
        by_contra hvalue
        have hlt := h e List.mem_cons_self hvalue
        omega
      have hbelow : s.Below e.time := by
        intro m' hm'
        rw [hm] at hm'
        cases hm'
        exact hnew
      rw [record_of_below hbelow, hnone]
      refine ih (s := ⟨some e.time, s.value⟩) rfl (fun e' he' hvalue => ?_)
      have hlt := hrest e' he' hvalue
      omega

/-- The latest write of all stays in the register, whenever it arrives. -/
theorem replay_latest (hdistinct : (es.map TimedWrite.time).Nodup) (hv : v ∈ es)
    (hvalue : v.value = some a) (hbelow : s.Below v.time) (hlast : ∀ e ∈ es, e.time ≤ v.time) :
    (s.replay es).value = a := by
  induction es generalizing s with
  | nil => cases hv
  | cons e es ih =>
    show ((s.record e).replay es).value = a
    simp only [List.map_cons, List.nodup_cons, List.mem_map, not_exists, not_and] at hdistinct
    rcases List.mem_cons.mp hv with rfl | hmem
    · rw [record_of_below hbelow, hvalue]
      refine replay_late (s := ⟨some v.time, a⟩) rfl (fun e' he' _ => ?_)
      have hle := hlast e' (List.mem_cons_of_mem _ he')
      have hne := hdistinct.1 e' he'
      omega
    · refine ih hdistinct.2 hmem ?_ (fun e' he' => hlast e' (List.mem_cons_of_mem _ he'))
      intro m hm
      unfold record at hm
      split at hm
      · cases hm
        exact hlast e List.mem_cons_self
      · exact hbelow m hm

/-- When every write has the value of the register the order is no matter. -/
theorem replay_same (hs : s.value = a) (h : ∀ e ∈ es, ∀ x ∈ e.value, x = a) :
    (s.replay es).value = a := by
  induction es generalizing s with
  | nil => exact hs
  | cons e es ih =>
    refine ih (s := s.record e) ?_ (fun e' he' => h e' (List.mem_cons_of_mem _ he'))
    unfold record
    split
    · cases hvalue : e.value with
      | none => exact hs
      | some x => exact h e List.mem_cons_self x hvalue
    · exact hs

/-! ## Which registers do not depend on the order of arrival -/

/-- Every order of arrival leaves the latest value exactly when no write without a value is later,
or when there is only one value to leave.  The writes are those of `ls` under `f`. -/
theorem replay_perm_iff {ι : Type} {f : ι → TimedWrite α} {ls : List ι} {v : ι}
    (hdistinct : (ls.map fun l => (f l).time).Nodup) (hbelow : ∀ l ∈ ls, s.Below (f l).time)
    (hv : v ∈ ls) (hvalue : (f v).value = some a)
    (hlatest : ∀ l ∈ ls, (f l).value ≠ none → (f l).time ≤ (f v).time) :
    (∀ order : List ι, order.Perm ls → (s.replay (order.map f)).value = a) ↔
      (∀ l ∈ ls, (f l).value = none → (f l).time < (f v).time) ∨
        (s.value = a ∧ ∀ l ∈ ls, ∀ x ∈ (f l).value, x = a) := by
  constructor
  · intro h
    by_contra hnot
    rw [not_or] at hnot
    obtain ⟨hlater, hdiffers⟩ := hnot
    simp only [not_forall, not_lt] at hlater
    obtain ⟨u, hu, hnone, hle⟩ := hlater
    obtain ⟨before, after, rfl⟩ := List.append_of_mem hu
    have hperm : (u :: (before ++ after)).Perm (before ++ u :: after) := List.perm_middle.symm
    have hdist : ((u :: (before ++ after)).map fun l => (f l).time).Nodup :=
      (hperm.map _).nodup_iff.mpr hdistinct
    simp only [List.map_cons, List.nodup_cons, List.mem_map, not_exists, not_and] at hdist
    have hrest : ∀ l ∈ before ++ after, (f l).value ≠ none → (f l).time < (f u).time := by
      intro l hl hlvalue
      have hne := hdist.1 l hl
      have hle' := hlatest l (hperm.subset (List.mem_cons_of_mem _ hl)) hlvalue
      omega
    have hskip : ∀ s' : Watermark α, s'.Below (f u).time →
        s'.record (f u) = ⟨some (f u).time, s'.value⟩ := by
      intro s' hs'
      rw [record_of_below hs', hnone]
      rfl
    -- `u` first: nothing else is recorded
    have hfirst : s.value = a := by
      have hreplay := h _ hperm
      change ((s.record (f u)).replay ((before ++ after).map f)).value = a at hreplay
      rw [hskip s (hbelow u hu), replay_late rfl (List.forall_mem_map.mpr hrest)] at hreplay
      exact hreplay
    -- any other write first and `u` next: that write alone is recorded
    refine hdiffers ⟨hfirst, fun l hl x hx => ?_⟩
    replace hx : (f l).value = some x := hx
    have hl' : l ∈ before ++ after := by
      rcases List.mem_cons.mp (hperm.symm.subset hl) with rfl | hmem
      · rw [hnone] at hx
        cases hx
      · exact hmem
    obtain ⟨front, back, hsplit⟩ := List.append_of_mem hl'
    have hperm' : (l :: u :: (front ++ back)).Perm (before ++ u :: after) := by
      refine List.Perm.trans ?_ hperm
      rw [hsplit]
      exact (List.Perm.swap u l _).trans (List.perm_middle.symm.cons u)
    have hbelow' : (⟨some (f l).time, x⟩ : Watermark α).Below (f u).time := by
      intro m hm
      cases hm
      exact (hrest l hl' (by rw [hx]; simp)).le
    have hsub : ∀ l' ∈ front ++ back, (f l').value ≠ none → (f l').time < (f u).time := by
      intro l' hmem
      refine hrest l' ?_
      rw [hsplit]
      exact List.perm_middle.symm.subset (List.mem_cons_of_mem _ hmem)
    have hreplay := h _ hperm'
    change (((s.record (f l)).record (f u)).replay ((front ++ back).map f)).value = a at hreplay
    rw [record_of_below (hbelow l hl), hx] at hreplay
    change ((record ⟨some (f l).time, x⟩ (f u)).replay ((front ++ back).map f)).value = a at hreplay
    rw [hskip _ hbelow', replay_late rfl (List.forall_mem_map.mpr hsub)] at hreplay
    exact hreplay
  · rintro (hearlier | ⟨hs, hsame⟩) order hperm
    · refine replay_latest (v := f v) ?_ (List.mem_map_of_mem (hperm.mem_iff.mpr hv)) hvalue
        (hbelow v hv) (List.forall_mem_map.mpr fun l hl => ?_)
      · rw [List.map_map]
        exact (hperm.map _).nodup_iff.mpr hdistinct
      · have hl' := hperm.mem_iff.mp hl
        cases hlvalue : (f l).value with
        | none => exact (hearlier l hl' hlvalue).le
        | some x => exact hlatest l hl' (by rw [hlvalue]; simp)
    · exact replay_same hs (List.forall_mem_map.mpr fun l hl => hsame l (hperm.mem_iff.mp hl))

end Watermark

end Library
