import ShaponTravels.Search.Selection

/-!
# Conflicts — which keys the first pass marks

The first pass of `winners` is a scan over a map, so it is one fold for each key.  A key is marked
exactly when two of its offers have clashing cabin labels, whatever their order.
-/

namespace ShaponTravels.Search.Selection

open Library

/-- The labels of two offers conflict: the offers have different numbers of segments, or one
segment is labelled differently. -/
def Clash (a b : List (Option String)) : Prop :=
  a.length ≠ b.length ∨
    ∃ (p : Nat) (x y : String), a[p]? = some (some x) ∧ b[p]? = some (some y) ∧ x ≠ y

/-- What the first pass knows of the labels `L` of one key. -/
def Notes (L : List (List (Option String))) (s : Cabins) : Prop :=
  (s.conflict = true ∧ ∃ c ∈ L, ∃ c' ∈ L, Clash c c') ∨
    (s.conflict = false ∧ L ≠ [] ∧ (∀ c ∈ L, c.length = s.known.length) ∧
      ∀ (p : Nat) (x : String), s.known[p]? = some (some x) ↔ ∃ l ∈ L, l[p]? = some (some x))

theorem notes_singleton (c : List (Option String)) : Notes [c] (noteCabins none c) := by
  refine .inr ⟨rfl, by simp, ?_, ?_⟩
  · intro c' hc'
    rw [List.mem_singleton] at hc'
    rw [hc']
    rfl
  · intro p x
    simp [noteCabins]

theorem any_labelsDiffer {a b : List (Option String)} :
    (a.zip b).any labelsDiffer = true ↔
      ∃ (p : Nat) (x y : String), a[p]? = some (some x) ∧ b[p]? = some (some y) ∧ x ≠ y := by
  rw [List.any_eq_true]
  constructor
  · rintro ⟨⟨u, v⟩, hmem, hdiffer⟩
    obtain ⟨p, hp⟩ := List.mem_iff_getElem?.mp hmem
    rw [List.getElem?_zip_eq_some] at hp
    cases u with
    | none => cases hdiffer
    | some x =>
      cases v with
      | none => cases hdiffer
      | some y => exact ⟨p, x, y, hp.1, hp.2, by simpa [labelsDiffer] using hdiffer⟩
  · rintro ⟨p, x, y, hx, hy, hne⟩
    refine ⟨(some x, some y), List.mem_iff_getElem?.mpr ⟨p, ?_⟩, by simpa [labelsDiffer] using hne⟩
    rw [List.getElem?_zip_eq_some]
    exact ⟨hx, hy⟩

/-- The first pass on one more offer of a key. -/
theorem notes_concat {L : List (List (Option String))} {s : Cabins} (h : Notes L s)
    (l : List (Option String)) : Notes (L ++ [l]) (noteCabins (some s) l) := by
  have hmemL : ∀ {l'}, l' ∈ L → l' ∈ L ++ [l] := fun h => List.mem_append_left _ h
  have hmem : l ∈ L ++ [l] := List.mem_append_right _ (List.mem_singleton_self l)
  simp only [noteCabins]
  by_cases hlength : s.known.length ≠ l.length
  · rw [if_pos hlength]
    rcases h with ⟨-, c₁, hc₁, c₂, hc₂, hclash⟩ | ⟨-, hne, hlengths, -⟩
    · exact .inl ⟨rfl, c₁, hmemL hc₁, c₂, hmemL hc₂, hclash⟩
    · obtain ⟨c₀, hc₀⟩ := List.exists_mem_of_ne_nil L hne
      refine .inl ⟨rfl, c₀, hmemL hc₀, l, hmem, .inl ?_⟩
      rw [hlengths c₀ hc₀]
      exact hlength
  · rw [if_neg hlength]
    rw [not_not] at hlength
    rcases h with ⟨hconflict, c₁, hc₁, c₂, hc₂, hclash⟩ | ⟨hconflict, hne, hlengths, hknown⟩
    · exact .inl ⟨by simp [hconflict], c₁, hmemL hc₁, c₂, hmemL hc₂, hclash⟩
    · cases hany : (s.known.zip l).any labelsDiffer with
      | true =>
        obtain ⟨p, x, y, hx, hy, hxy⟩ := any_labelsDiffer.mp hany
        obtain ⟨l', hc', hcx⟩ := (hknown p x).mp hx
        exact .inl ⟨by simp, l', hmemL hc', l, hmem, .inr ⟨p, x, y, hcx, hy, hxy⟩⟩
      | false =>
        have hsame : ∀ {p : Nat} {x y : String}, s.known[p]? = some (some x) → l[p]? = some (some y) → x = y := by
          intro p x y hx hy
          by_contra hxy
          rw [any_labelsDiffer.mpr ⟨p, x, y, hx, hy, hxy⟩] at hany
          cases hany
        refine .inr ⟨by simp [hconflict], by simp, ?_, ?_⟩
        · intro l' hc'
          rw [List.length_zipWith, hlength, Nat.min_self]
          rw [List.mem_append, List.mem_singleton] at hc'
          rcases hc' with hc' | rfl
          · rw [hlengths l' hc', hlength]
          · rfl
        · intro p x
          -- a label is known now when it was known before or is the new offer's
          have hzip : (List.zipWith (fun prior current => prior.or current) s.known l)[p]? =
              some (some x) ↔ s.known[p]? = some (some x) ∨ l[p]? = some (some x) := by
            rw [List.getElem?_zipWith]
            by_cases hp : p < l.length
            · have hk : p < s.known.length := by omega
              rw [List.getElem?_eq_getElem hp, List.getElem?_eq_getElem hk]
              simp only [Option.some.injEq]
              cases hprior : s.known[p] with
              | none => simp
              | some y =>
                have hy : s.known[p]? = some (some y) := by
                  rw [List.getElem?_eq_getElem hk, hprior]
                simp only [Option.some_or, Option.some.injEq]
                constructor
                · intro hxy; exact .inl hxy
                · rintro (hxy | hcx)
                  · exact hxy
                  · exact hsame hy (by rw [List.getElem?_eq_getElem hp, hcx])
            · have hk : ¬ p < s.known.length := by omega
              rw [List.getElem?_eq_none (by omega), List.getElem?_eq_none (by omega)]
              simp
          rw [hzip, hknown]
          simp only [List.mem_append, List.mem_singleton, or_and_right, exists_or, exists_eq_left]

theorem notes_foldl (c : List (Option String)) (L : List (List (Option String))) :
    ∃ s, (c :: L).foldl (fun s c => some (noteCabins s c)) none = some s ∧ Notes (c :: L) s := by
  induction L using List.reverseRecOn with
  | nil => exact ⟨_, rfl, notes_singleton c⟩
  | append_singleton L c' ih =>
    obtain ⟨s, hs, hnotes⟩ := ih
    refine ⟨noteCabins (some s) c', ?_, notes_concat hnotes c'⟩
    rw [← List.cons_append, List.foldl_append, hs]
    rfl

/-- A key is in conflict when the labels of two of its offers clash. -/
def Conflict (offers : List Offer) (key : String) : Prop :=
  ∃ o ∈ offers, ∃ o' ∈ offers, ∃ c c', equivalenceKey o.2 = some (key, c) ∧
    equivalenceKey o'.2 = some (key, c') ∧ Clash c c'

theorem Notes.conflict_iff {L : List (List (Option String))} {s : Cabins} (h : Notes L s) :
    s.conflict = true ↔ ∃ c ∈ L, ∃ c' ∈ L, Clash c c' := by
  rcases h with ⟨hconflict, hclash⟩ | ⟨hconflict, -, hlengths, hknown⟩
  · exact iff_of_true hconflict hclash
  · refine iff_of_false (by rw [hconflict]; decide) ?_
    rintro ⟨c, hc, c', hc', hlength | ⟨p, x, y, hx, hy, hne⟩⟩
    · exact hlength ((hlengths c hc).trans (hlengths c' hc').symm)
    · have hkx := (hknown p x).mpr ⟨c, hc, hx⟩
      have hky := (hknown p y).mpr ⟨c', hc', hy⟩
      rw [hkx] at hky
      cases hky
      exact hne rfl

theorem conflicted_iff (offers : List Offer) (key : String) :
    conflicted offers key = true ↔ Conflict offers key := by
  -- the labels of the offers with this key, in order
  let keyed := (offers.filterMap fun offer => equivalenceKey offer.2).filter fun k => k.1 = key
  have hmem : ∀ c, c ∈ keyed.map Prod.snd ↔ ∃ o ∈ offers, equivalenceKey o.2 = some (key, c) := by
    intro c
    simp only [keyed, List.mem_map, List.mem_filter, List.mem_filterMap, decide_eq_true_eq,
      Prod.exists, exists_eq_right]
  have hfind : findKey key (knownCabins offers) =
      (keyed.map Prod.snd).foldl (fun s c => some (noteCabins s c)) none := by
    rw [knownCabins, findKey_keyedScan, List.foldl_map]
  have hconflict : Conflict offers key ↔
      ∃ c ∈ keyed.map Prod.snd, ∃ c' ∈ keyed.map Prod.snd, Clash c c' := by
    simp only [hmem, Conflict]
    constructor
    · rintro ⟨o, ho, o', ho', c, c', hc, hc', hclash⟩
      exact ⟨c, ⟨o, ho, hc⟩, c', ⟨o', ho', hc'⟩, hclash⟩
    · rintro ⟨c, ⟨o, ho, hc⟩, c', ⟨o', ho', hc'⟩, hclash⟩
      exact ⟨o, ho, o', ho', c, c', hc, hc', hclash⟩
  rw [conflicted, hfind, hconflict]
  cases keyed.map Prod.snd with
  | nil => simp
  | cons c L =>
    obtain ⟨s, hs, hnotes⟩ := notes_foldl c L
    rw [hs, Option.any_some]
    exact hnotes.conflict_iff

end ShaponTravels.Search.Selection
