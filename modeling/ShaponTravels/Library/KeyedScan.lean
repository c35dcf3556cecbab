import Mathlib.Tactic.Common

/-!
# KeyedScan — folding a list into a map

A scan keeps one state for each key and updates the state of the key of every item it meets.
What it keeps under a key is the fold over the items of that key alone, so facts about a scan are
facts about folds.
-/

namespace Library

variable {κ σ α : Type} [DecidableEq κ]

/-- The state kept under a key. -/
def findKey (k : κ) (m : List (κ × σ)) : Option σ := (m.find? (fun entry => entry.1 = k)).map Prod.snd

/-- Replace the state kept under a key, or start one. -/
def upsert (k : κ) (s : σ) : List (κ × σ) → List (κ × σ)
  | [] => [(k, s)]
  | entry :: m => if entry.1 = k then (k, s) :: m else entry :: upsert k s m

/-- One pass over the items; `step` sees the state of the item's key, if there is one. -/
def keyedScan (key : α → κ) (step : Option σ → α → σ) (items : List α) : List (κ × σ) :=
  items.foldl (fun m a => upsert (key a) (step (findKey (key a) m) a) m) []

theorem findKey_upsert (k k' : κ) (s : σ) (m : List (κ × σ)) :
    findKey k' (upsert k s m) = if k = k' then some s else findKey k' m := by
  induction m with
  | nil =>
    by_cases hk : k = k'
    · simp [upsert, findKey, hk]
    · simp [upsert, findKey, hk]
  | cons entry m ih =>
    simp only [upsert]
    by_cases hentry : entry.1 = k
    · rw [if_pos hentry]
      by_cases hk : k = k'
      · simp [findKey, hk]
      · have hne : entry.1 ≠ k' := fun h => hk (hentry.symm.trans h)
        simp [findKey, hk, hne]
    · rw [if_neg hentry]
      simp only [findKey] at ih ⊢
      by_cases hne : entry.1 = k'
      · have hk : k ≠ k' := fun h => hentry (hne.trans h.symm)
        simp [hne, hk]
      · simp only [List.find?_cons, hne, decide_false, ih]

theorem upsert_of_findKey {k : κ} {s : σ} {m : List (κ × σ)} (h : findKey k m = some s) :
    upsert k s m = m := by
  induction m with
  | nil => cases h
  | cons entry m ih =>
    simp only [upsert]
    simp only [findKey, List.find?_cons] at h
    by_cases hentry : entry.1 = k
    · simp only [hentry, decide_true, Option.map_some, Option.some.injEq] at h
      rw [if_pos hentry, ← hentry, ← h]
    · simp only [hentry, decide_false] at h
      rw [if_neg hentry, ih h]

/-- What a scan keeps under a key is the fold over the items of that key. -/
theorem findKey_keyedScan (key : α → κ) (step : Option σ → α → σ) (items : List α) (k : κ) :
    findKey k (keyedScan key step items) =
      (items.filter (fun a => key a = k)).foldl (fun s a => some (step s a)) none := by
  -- the statement for any map the scan may start from
  have hgen : ∀ m : List (κ × σ),
      findKey k (items.foldl (fun m a => upsert (key a) (step (findKey (key a) m) a) m) m) =
        (items.filter (fun a => key a = k)).foldl (fun s a => some (step s a)) (findKey k m) := by
    induction items with
    | nil => intro m; rfl
    | cons a items ih =>
      intro m
      rw [List.foldl_cons, ih, findKey_upsert]
      by_cases hk : key a = k
      · simp [hk]
      · simp [hk]
  exact hgen []

end Library
