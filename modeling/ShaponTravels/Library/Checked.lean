import Mathlib.Tactic.Common
import Mathlib.Algebra.Group.Int.Defs
import ShaponTravels.Library.Outcome

/-!
# Checked — computations on integers of a width

An operation whose result lies outside its type has none, and the computation stops at once.  `Meets` says
that this never happens and what the results are; its rules follow the steps of a `do` block.
-/

namespace Library

/-- Why a computation gives nothing: its input is refused, or an operation has no result in its type. -/
inductive Fault (ε : Type)
  | refused (error : ε)
  | overflow
  deriving DecidableEq

variable {ε α β : Type}

/-- A computation that can only be refused. -/
def refuse (x : Except ε α) : Except (Fault ε) α := x.mapError .refused

/-- The result of an operation on signed integers of a width. -/
def signed (bits : Nat) (n : Int) : Except (Fault ε) Int :=
  if -2 ^ (bits - 1) ≤ n ∧ n < 2 ^ (bits - 1) then .ok n else .error .overflow

/-- A quotient is rounded towards zero, and there is none by zero. -/
def quotient (bits : Nat) (a b : Int) : Except (Fault ε) Int :=
  if b = 0 then .error .overflow else signed bits (a.tdiv b)

/-- The rest of that division. -/
def rest (a b : Int) : Except (Fault ε) Int :=
  if b = 0 then .error .overflow else .ok (a.tmod b)

/-- A computation does not overflow, and what it gives has the property. -/
def Meets (x : Except (Fault ε) α) (P : α → Prop) : Prop :=
  x ≠ .error .overflow ∧ ∀ a, x = .ok a → P a

namespace Meets

variable {x : Except (Fault ε) α} {P Q : α → Prop}

theorem pure {a : α} (h : P a) : Meets (pure a : Except (Fault ε) α) P := by
  refine ⟨by rintro ⟨⟩, fun b hb => ?_⟩
  cases hb
  exact h

theorem mono (h : Meets x P) (hPQ : ∀ a, P a → Q a) : Meets x Q :=
  ⟨h.1, fun a ha => hPQ a (h.2 a ha)⟩

theorem bind {f : α → Except (Fault ε) β} {R : β → Prop} (hx : Meets x P)
    (hf : ∀ a, P a → Meets (f a) R) : Meets (x >>= f) R := by
  cases x with
  | error e =>
    refine ⟨fun h => hx.1 ?_, fun b hb => by cases hb⟩
    cases h
    rfl
  | ok a => exact hf a (hx.2 a rfl)

/-- A refusal is no overflow. -/
theorem refuse {y : Except ε α} (h : ∀ a, y = .ok a → P a) : Meets (refuse y) P := by
  cases y with
  | error e => exact ⟨by rintro ⟨⟩, fun a ha => by cases ha⟩
  | ok a => exact .pure (h a rfl)

theorem signed {bits : Nat} {n : Int} {P : Int → Prop} (hlow : -2 ^ (bits - 1) ≤ n)
    (hhigh : n < 2 ^ (bits - 1)) (h : P n) : Meets (signed bits n : Except (Fault ε) Int) P := by
  rw [Library.signed, if_pos ⟨hlow, hhigh⟩]
  exact .pure h

theorem quotient {bits : Nat} {a b : Int} {P : Int → Prop} (ha : 0 ≤ a) (hb : 0 < b)
    (hhigh : a < 2 ^ (bits - 1)) (h : P (a / b)) :
    Meets (quotient bits a b : Except (Fault ε) Int) P := by
  have hdiv : a.tdiv b = a / b := Int.tdiv_eq_ediv_of_nonneg ha
  have hle : a / b ≤ a := Int.ediv_le_self b ha
  have hpos : 0 ≤ a / b := Int.ediv_nonneg ha (Int.le_of_lt hb)
  have hpow : (0 : Int) ≤ 2 ^ (bits - 1) := Int.pow_nonneg (by decide)
  rw [Library.quotient, if_neg (Int.ne_of_gt hb), hdiv]
  exact .signed (by omega) (by omega) h

theorem rest {a b : Int} {P : Int → Prop} (ha : 0 ≤ a) (hb : 0 < b) (h : P (a % b)) :
    Meets (rest a b : Except (Fault ε) Int) P := by
  rw [Library.rest, if_neg (Int.ne_of_gt hb), Int.tmod_eq_emod_of_nonneg ha]
  exact .pure h

/-- A loop keeps what each round of it keeps. -/
theorem foldlM {f : β → α → Except (Fault ε) β} {I : β → Prop} {as : List α} {acc : β} (hacc : I acc)
    (hstep : ∀ acc, I acc → ∀ a ∈ as, Meets (f acc a) I) : Meets (as.foldlM f acc) I := by
  induction as generalizing acc with
  | nil => exact .pure hacc
  | cons a as ih =>
    rw [List.foldlM_cons]
    exact (hstep acc hacc a List.mem_cons_self).bind fun next hnext =>
      ih hnext fun acc hacc b hb => hstep acc hacc b (List.mem_cons_of_mem _ hb)

/-- A loop over the elements gives what each of them gives. -/
theorem mapM {f : α → Except (Fault ε) β} {R : α → β → Prop} {as : List α}
    (hstep : ∀ a ∈ as, Meets (f a) (R a)) : Meets (as.mapM f) (List.Forall₂ R as) := by
  induction as with
  | nil => exact .pure .nil
  | cons a as ih =>
    rw [List.mapM_cons]
    refine (hstep a List.mem_cons_self).bind fun b hb => ?_
    refine (ih fun a' ha' => hstep a' (List.mem_cons_of_mem _ ha')).bind fun bs hbs => ?_
    exact .pure (.cons hb hbs)

end Meets

end Library
