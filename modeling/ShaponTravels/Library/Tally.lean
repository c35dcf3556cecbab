import ShaponTravels.Library.Table

/-!
# Tally — counters kept as rows

A counter is a row that is inserted with the first count and raised by each further one.  A key
without a row counts zero.
-/

namespace Library

structure Tally (κ : Type) where
  key : κ
  count : Int
  deriving DecidableEq

namespace Tally

variable {κ : Type} [DecidableEq κ]

def read (k : κ) (rows : List (Tally κ)) : Int := ((lookup key k rows).map count).getD 0

def raise (r : Tally κ) : Tally κ := { r with count := r.count + 1 }

/-- `INSERT … ON CONFLICT DO UPDATE SET count = count + 1`. -/
def bump (k : κ) (rows : List (Tally κ)) : List (Tally κ) :=
  if (lookup key k rows).isSome then Library.modify key k raise rows else rows ++ [⟨k, 1⟩]

omit [DecidableEq κ] in
theorem key_raise (r : Tally κ) : key (raise r) = key r := rfl

theorem read_bump_self (k : κ) (rows : List (Tally κ)) :
    read k (bump k rows) = read k rows + 1 := by
  unfold read bump
  cases h : lookup key k rows with
  | some r =>
    simp only [Option.isSome_some, if_true, lookup_modify_self key_raise, h]
    rfl
  | none => simp [lookup_concat, h]

theorem read_bump_ne {k k' : κ} (hne : k' ≠ k) (rows : List (Tally κ)) :
    read k' (bump k rows) = read k' rows := by
  unfold read bump
  split
  · rw [lookup_modify_ne key_raise hne]
  · have hkey : ¬ (key (⟨k, 1⟩ : Tally κ) = k') := Ne.symm hne
    rw [lookup_concat, if_neg hkey, Option.or_none]

theorem read_bump (k k' : κ) (rows : List (Tally κ)) :
    read k' (bump k rows) = read k' rows + if k' = k then 1 else 0 := by
  split
  · rename_i h
    rw [h, read_bump_self]
  · rename_i h
    rw [read_bump_ne h, add_zero]

@[simp] theorem read_nil (k : κ) : read k [] = 0 := rfl

end Tally

end Library
