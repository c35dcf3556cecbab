import ShaponTravels.Booking.Binding
import ShaponTravels.Library.Choices

/-!
# RepriceSelection — the flights a client selects

`reprice_selection::select` resolves the public references of a Search offer to one option of each
group.  It goes on only where a single option fits, so what it finds is the only choice there is.
-/

namespace ShaponTravels.Booking

open Library

/-! ## Selecting -/

/-- `refs`: the references of an option that has one in every segment. -/
def refs (direction : Value) : Option (List String) := do
  let segments ← (direction.field "segments").asArray?
  guard (segments ≠ [])
  segments.mapM fun s => nonEmptyText (s.field "segmentCodeRef")

/-- The variables of the loop over the groups. -/
structure Selecting where
  offset : Nat
  indices : List Nat
  directions : List Value
  supplierRefs : List String

/-- The position and the references of an option that the requested references begin with. -/
def fits (requested : List String) (o : Value × Nat) : Option (Nat × List String) := do
  let r ← refs o.1
  guard (r.isPrefixOf requested)
  return (o.2, r)

/-- The options of a group that fit. -/
def fitting (requested : List String) (options : List Value) : List (Nat × List String) :=
  options.zipIdx.filterMap (fits requested)

/-- The body of the loop. -/
def selectGroup (requested : List String) (s : Selecting) (group : Value × Value) :
    Option Selecting := do
  let options ← group.1.asArray?
  let originals ← group.2.asArray?
  guard (options.length = originals.length)
  match fitting (requested.drop s.offset) options with
  | [(index, chosen)] => do
    let original ← originals[index]?
    let originalRefs ← refs original
    guard (originalRefs.length = chosen.length)
    return ⟨s.offset + chosen.length, s.indices ++ [index], s.directions ++ [.arr [original]],
      s.supplierRefs ++ originalRefs⟩
  | _ => none

/-- `select`. -/
def select (original selling : Value) (requested : List String) : Option Value := do
  let shown ← (selling.field "directions").asArray?
  let source ← (original.field "directions").asArray?
  guard (shown ≠ [] ∧ shown.length = source.length ∧ requested ≠ [])
  let s ← (shown.zip source).foldlM (selectGroup requested) ⟨0, [], [], []⟩
  guard (s.offset = requested.length)
  return .object [("directionIndices", .arr (s.indices.map fun i => .ofInt i)),
    ("publicSegmentCodeRefs", .arr (requested.map .str)),
    ("supplierSegmentCodeRefs", .arr (s.supplierRefs.map .str)), ("directions", .arr s.directions)]

/-! ## One group -/

variable {requested chosen : List String} {options originals : List Value} {s s' : Selecting}
  {group : Value × Value} {i : Nat}

theorem fits_eq_some {o : Value × Nat} : fits requested o = some (i, chosen) ↔
    refs o.1 = some chosen ∧ chosen <+: requested ∧ o.2 = i := by
  simp only [fits, bind_eq_some, guard_eq_some, exists_const, List.isPrefixOf_iff_prefix]
  constructor
  · rintro ⟨r, hr, hleading, heq⟩
    cases heq
    exact ⟨hr, hleading, rfl⟩
  · rintro ⟨hr, hleading, rfl⟩
    exact ⟨chosen, hr, hleading, rfl⟩

theorem mem_fitting : (i, chosen) ∈ fitting requested options ↔
    (options.map refs)[i]? = some (some chosen) ∧ chosen <+: requested := by
  simp only [fitting, List.mem_filterMap, fits_eq_some, Prod.exists, List.mem_zipIdx_iff_getElem?,
    List.getElem?_map, Option.map_eq_some_iff]
  constructor
  · rintro ⟨d, j, hd, hr, hleading, rfl⟩
    exact ⟨⟨d, hd, hr⟩, hleading⟩
  · rintro ⟨⟨d, hd, hr⟩, hleading⟩
    exact ⟨d, i, hd, hr, hleading, rfl⟩

theorem fitting_nodup (requested : List String) (options : List Value) :
    (fitting requested options).Nodup := by
  have hsublist : ∀ l : List (Value × Nat),
      ((l.filterMap (fits requested)).map Prod.fst).Sublist (l.map Prod.snd) := by
    intro l
    induction l with
    | nil => exact .slnil
    | cons o l ih =>
      rw [List.map_cons, List.filterMap_cons]
      cases hfits : fits requested o with
      | none => exact ih.cons _
      | some y =>
        rw [List.map_cons, ← (fits_eq_some.mp hfits).2.2]
        exact ih.cons_cons _
  refine List.Nodup.of_map Prod.fst ((hsublist options.zipIdx).nodup ?_)
  rw [List.zipIdx_map_snd]
  exact List.nodup_range'

/-- A single option fits. -/
theorem fitting_single : fitting requested options = [(i, chosen)] ↔
    (options.map refs)[i]? = some (some chosen) ∧ chosen <+: requested ∧
      ∀ (j : Nat) (other : List String), (options.map refs)[j]? = some (some other) →
        other <+: requested → j = i := by
  constructor
  · intro h
    have hmem : (i, chosen) ∈ fitting requested options := by
      rw [h]
      exact List.mem_singleton_self _
    obtain ⟨hi, hleading⟩ := mem_fitting.mp hmem
    refine ⟨hi, hleading, ?_⟩
    intro j other hj hother
    have hmem' := mem_fitting.mpr ⟨hj, hother⟩
    rw [h, List.mem_singleton] at hmem'
    exact congrArg Prod.fst hmem'
  · rintro ⟨hi, hleading, honly⟩
    rw [← List.perm_singleton, List.perm_ext_iff_of_nodup (fitting_nodup requested options)
      (List.nodup_singleton _)]
    rintro ⟨j, other⟩
    rw [List.mem_singleton, mem_fitting]
    constructor
    · rintro ⟨hj, hother⟩
      obtain rfl := honly j other hj hother
      rw [hi, Option.some.injEq, Option.some.injEq] at hj
      rw [hj]
    · intro heq
      cases heq
      exact ⟨hi, hleading⟩

/-- One turn of the loop. -/
structure Selects (requested : List String) (s s' : Selecting) (group : Value × Value)
    (options originals : List Value) (i : Nat) (chosen : List String) (original : Value)
    (originalRefs : List String) : Prop where
  shown : group.1 = .arr options
  source : group.2 = .arr originals
  lengths : options.length = originals.length
  fits : fitting (requested.drop s.offset) options = [(i, chosen)]
  taken : originals[i]? = some original
  named : refs original = some originalRefs
  same : originalRefs.length = chosen.length
  state : s' = ⟨s.offset + chosen.length, s.indices ++ [i], s.directions ++ [.arr [original]],
    s.supplierRefs ++ originalRefs⟩

theorem selectGroup_eq_some : selectGroup requested s group = some s' ↔
    ∃ options originals i chosen original originalRefs,
      Selects requested s s' group options originals i chosen original originalRefs := by
  simp only [selectGroup, bind_eq_some, guard_eq_some, exists_const, Value.asArray?_eq_some]
  constructor
  · rintro ⟨options, hoptions, originals, horiginals, hlengths, h⟩
    split at h
    · rename_i i chosen hfits
      simp only [bind_eq_some, guard_eq_some, exists_const] at h
      obtain ⟨original, horiginal, originalRefs, hrefs, hsame, heq⟩ := h
      exact ⟨options, originals, i, chosen, original, originalRefs, hoptions, horiginals, hlengths,
        hfits, horiginal, hrefs, hsame, (Option.some.inj heq).symm⟩
    · cases h
  · rintro ⟨options, originals, i, chosen, original, originalRefs, h⟩
    refine ⟨options, h.shown, originals, h.source, h.lengths, ?_⟩
    rw [h.fits]
    simp only [bind_eq_some, guard_eq_some, exists_const]
    exact ⟨original, h.taken, originalRefs, h.named, h.same, congrArg some h.state.symm⟩

/-! ## All groups -/

/-- The words of the groups: the references of their options. -/
def groupRefs (groups : List (List Value)) : List (List (Option (List String))) :=
  groups.map fun options => options.map refs

/-- What the loop selects is forced. -/
theorem selectGroups_forced {shown source : List Value} (hlengths : shown.length = source.length)
    (h : (shown.zip source).foldlM (selectGroup requested) s = some s') :
    ∃ groups choice, shown = groups.map .arr ∧ s'.indices = s.indices ++ choice ∧
      Forced (groupRefs groups) (requested.drop s.offset) choice (requested.drop s'.offset) := by
  induction shown generalizing source s with
  | nil =>
    rw [List.zip_nil_left, List.foldlM_nil] at h
    cases h
    exact ⟨[], [], rfl, (List.append_nil _).symm, .nil⟩
  | cons group shown ih =>
    cases source with
    | nil => cases hlengths
    | cons original source =>
      rw [List.length_cons, List.length_cons, Nat.add_right_cancel_iff] at hlengths
      simp only [List.zip_cons_cons, List.foldlM_cons, bind_eq_some] at h
      obtain ⟨middle, hfirst, hrest⟩ := h
      obtain ⟨options, originals, i, chosen, _, _, hselects⟩ := selectGroup_eq_some.mp hfirst
      obtain ⟨groups, choice, rfl, hindices, hforced⟩ := ih hlengths hrest
      obtain ⟨hi, ⟨left, hleft⟩, honly⟩ := fitting_single.mp hselects.fits
      have hdrop : requested.drop middle.offset = left := by
        rw [hselects.state, ← List.drop_drop, ← hleft, List.drop_left]
      refine ⟨options :: groups, i :: choice, ?_, ?_, ?_⟩
      · rw [List.map_cons, ← hselects.shown]
      · rw [hindices, hselects.state, List.append_assoc]
        rfl
      · rw [← hleft] at honly ⊢
        exact .cons hi honly (hdrop ▸ hforced)

/-! ## Published offers -/

section Published

variable {published : String → Uuid} {direction original : Value}

/-- A value with its texts published. -/
def publishAs (published : String → Uuid) (v : Value) : Value :=
  renameReferences (fun text => .str (published text).text) v

/-- The reference of a published segment. -/
theorem segmentRef_publishAs (published : String → Uuid) (segment : Value) :
    nonEmptyText ((publishAs published segment).field "segmentCodeRef") =
      (nonEmptyText (segment.field "segmentCodeRef")).map fun text => (published text).text := by
  have hkey : isReference "segmentCodeRef" = true := by decide
  rw [Value.field, Value.field, publishAs, get?_renameReferences]
  cases segment.get? "segmentCodeRef" with
  | none => rfl
  | some x =>
    show nonEmptyText (renamedField _ "segmentCodeRef" x) = (nonEmptyText x).map _
    cases htext : referenceText "segmentCodeRef" x with
    | some text =>
      obtain ⟨-, rfl, hne⟩ := referenceText_eq_some.mp htext
      rw [renamedField, htext]
      have hname := text_ne_empty (published text)
      simp [nonEmptyText, Value.asStr?, Option.filter, hne, hname]
    | none =>
      rw [renamedField, htext]
      rw [referenceText, if_pos hkey] at htext
      rw [htext]
      cases x with
      | str text => exact htext
      | _ => rfl

/-- The references of a published option. -/
theorem refs_publishAs (published : String → Uuid) (direction : Value) :
    refs (publishAs published direction) =
      (refs direction).map (List.map fun text => (published text).text) := by
  rw [refs, refs, publishAs, field_renameReferences (by decide)]
  cases direction.field "segments" with
  | arr segments =>
    have hsegments : (renameValues (fun text => Value.str (published text).text) segments).mapM
        (fun s => nonEmptyText (s.field "segmentCodeRef")) =
        (segments.mapM fun s => nonEmptyText (s.field "segmentCodeRef")).map
          (List.map fun text => (published text).text) := by
      rw [renameValues_eq_map]
      induction segments with
      | nil => rfl
      | cons segment segments ih =>
        rw [List.map_cons, List.mapM_cons, List.mapM_cons, ih]
        have hfirst := segmentRef_publishAs published segment
        rw [publishAs] at hfirst
        rw [hfirst]
        cases nonEmptyText (segment.field "segmentCodeRef") with
        | none => rfl
        | some text =>
          cases segments.mapM fun s => nonEmptyText (s.field "segmentCodeRef") <;> rfl
    by_cases hempty : segments = []
    · subst hempty
      rfl
    · have hempty' : renameValues (fun text => Value.str (published text).text) segments ≠ [] := by
        rw [renameValues_eq_map]
        simpa using hempty
      simp only [renameReferences, Value.asArray?, Option.bind_eq_bind, Option.bind_some,
        guard, hempty, hempty', not_false_eq_true, if_true, ne_eq]
      exact hsegments
  | _ => rfl

theorem mem_refs {direction : Value} {words : List String} (h : refs direction = some words) :
    ∀ text ∈ words, text ∈ referenceTexts direction := by
  simp only [refs, bind_eq_some, guard_eq_some, exists_const, Value.asArray?_eq_some] at h
  obtain ⟨segments, hsegments, -, hwords⟩ := h
  intro text htext
  obtain ⟨segment, hsegment, hnonEmpty⟩ := exists_left (mapM_eq_some hwords) htext
  apply mem_referenceTexts_of_field (by decide) hsegments
  apply mem_referenceTextsValues hsegment
  have htaken : referenceText "segmentCodeRef" (segment.field "segmentCodeRef") = some text := by
    rw [referenceText, if_pos (by decide)]
    exact hnonEmpty
  obtain ⟨-, hstr, -⟩ := referenceText_eq_some.mp htaken
  cases hget : segment.get? "segmentCodeRef" with
  | none =>
    rw [Value.field, hget] at hstr
    cases hstr
  | some x =>
    rw [Value.field_of_get? hget] at htaken
    apply mem_referenceTexts_of_get? hget
    rw [referenceTextsFields_of_some htaken]
    exact List.mem_singleton_self _

/-- The letters of the groups of an offer are among its texts. -/
theorem mem_letters {groups : List (List Value)}
    (hgroups : original.field "directions" = .arr (groups.map .arr)) {text : String}
    (h : Letters (groupRefs groups) text) : text ∈ referenceTexts original := by
  obtain ⟨_, hmem, words, hwords, htext⟩ := h
  obtain ⟨options, hoptions, rfl⟩ := List.mem_map.mp hmem
  obtain ⟨direction, hdirection, hrefs⟩ := List.mem_map.mp hwords
  apply mem_referenceTexts_of_field (by decide) hgroups
  apply mem_referenceTextsValues (List.mem_map_of_mem hoptions)
  rw [referenceTexts]
  exact mem_referenceTextsValues hdirection (mem_refs hrefs text htext)

/-- The option of each group at the chosen positions. -/
def chosenOptions (groups : List (List Value)) (choice : List Nat) : List Value :=
  (groups.zip choice).map fun p => .arr p.1[p.2]?.toList

/-- A forced choice is selected from what is published. -/
theorem selectGroups_publishAs {groups : List (List Value)} {input rest : List String}
    {choice : List Nat} (h : Forced (groupRefs groups) input choice rest)
    (hforced : Forced (groupRefs (groups.map fun options => options.map (publishAs published)))
      (input.map fun text => (published text).text) choice
      (rest.map fun text => (published text).text))
    (hs : requested.drop s.offset = input.map fun text => (published text).text)
    (hoffset : s.offset + input.length = requested.length) :
    ∃ s', ((groups.map fun options => Value.arr (options.map (publishAs published))).zip
        (groups.map Value.arr)).foldlM (selectGroup requested) s = some s' ∧
      s'.indices = s.indices ++ choice ∧ s'.supplierRefs ++ rest = s.supplierRefs ++ input ∧
      s'.directions = s.directions ++ chosenOptions groups choice ∧
      s'.offset + rest.length = requested.length := by
  induction groups generalizing input choice s with
  | nil =>
    cases h
    exact ⟨s, rfl, (List.append_nil _).symm, rfl, (List.append_nil _).symm, hoffset⟩
  | cons options groups ih =>
    rw [groupRefs, List.map_cons] at h
    rw [groupRefs, List.map_cons, List.map_cons] at hforced
    generalize hwhole : (input.map fun text => (published text).text) = whole at hforced
    cases h with
    | @cons _ _ input _ word i choice hword _ htail =>
      cases hforced with
      | @cons _ _ input' _ word' _ _ hword' honly htail' =>
        -- The published word is the word published, and so is what follows it.
        have hpublic : word' = word.map fun text => (published text).text := by
          rw [List.getElem?_map, Option.map_eq_some_iff] at hword
          obtain ⟨direction, hdirection, hrefs⟩ := hword
          rw [List.getElem?_map, List.getElem?_map, hdirection, Option.map_some, Option.map_some,
            refs_publishAs, hrefs] at hword'
          exact (Option.some.inj (Option.some.inj hword')).symm
        subst hpublic
        rw [List.map_append] at hwhole
        obtain rfl := List.append_cancel_left hwhole
        obtain ⟨direction, hdirection, hrefs⟩ : ∃ direction, options[i]? = some direction ∧
            refs direction = some word := by
          rw [List.getElem?_map, Option.map_eq_some_iff] at hword
          exact hword
        let middle : Selecting := ⟨s.offset + (word.map fun text => (published text).text).length,
          s.indices ++ [i], s.directions ++ [.arr [direction]], s.supplierRefs ++ word⟩
        have hfirst : selectGroup requested s
            (.arr (options.map (publishAs published)), .arr options) = some middle := by
          refine selectGroup_eq_some.mpr ⟨_, _, i, _, direction, word, rfl, rfl,
            List.length_map _, ?_, hdirection, hrefs, (List.length_map _).symm, rfl⟩
          rw [fitting_single, hs, List.map_append]
          exact ⟨hword', List.prefix_append _ _, honly⟩
        have hmiddle : requested.drop middle.offset =
            input.map fun text => (published text).text := by
          show requested.drop (s.offset + _) = _
          rw [← List.drop_drop, hs, List.map_append, List.drop_left]
        have hmiddleOffset : middle.offset + input.length = requested.length := by
          rw [← hoffset, List.length_append]
          show s.offset + (word.map _).length + _ = _
          rw [List.length_map, Nat.add_assoc]
        obtain ⟨s', hrun, hindices, hrefs', hdirections, hlast⟩ := ih htail htail' hmiddle hmiddleOffset
        refine ⟨s', ?_, ?_, ?_, ?_, hlast⟩
        · rw [List.map_cons, List.map_cons, List.zip_cons_cons, List.foldlM_cons, hfirst]
          exact hrun
        · rw [hindices]
          show s.indices ++ [i] ++ choice = _
          rw [List.append_assoc]
          rfl
        · rw [hrefs']
          show s.supplierRefs ++ word ++ input = _
          rw [List.append_assoc]
        · rw [hdirections]
          show s.directions ++ [.arr [direction]] ++ chosenOptions groups choice = _
          rw [List.append_assoc, chosenOptions, chosenOptions, List.zip_cons_cons, List.map_cons,
            hdirection]
          rfl

end Published

/-! ## Selections -/

/-- What `select` answers with. -/
def selection (requested : List String) (s : Selecting) : Value :=
  .object [("directionIndices", .arr (s.indices.map fun i => .ofInt i)),
    ("publicSegmentCodeRefs", .arr (requested.map .str)),
    ("supplierSegmentCodeRefs", .arr (s.supplierRefs.map .str)), ("directions", .arr s.directions)]

theorem select_eq_some {original selling result : Value} :
    select original selling requested = some result ↔ ∃ shown source s,
      selling.field "directions" = .arr shown ∧ original.field "directions" = .arr source ∧
      (shown ≠ [] ∧ shown.length = source.length ∧ requested ≠ []) ∧
      (shown.zip source).foldlM (selectGroup requested) ⟨0, [], [], []⟩ = some s ∧
      s.offset = requested.length ∧ result = selection requested s := by
  simp only [select, bind_eq_some, guard_eq_some, exists_const, Value.asArray?_eq_some]
  constructor
  · rintro ⟨shown, hshown, source, hsource, hguard, s, hs, hoffset, heq⟩
    exact ⟨shown, source, s, hshown, hsource, hguard, hs, hoffset, (Option.some.inj heq).symm⟩
  · rintro ⟨shown, source, s, hshown, hsource, hguard, hs, hoffset, rfl⟩
    exact ⟨shown, hshown, source, hsource, hguard, s, hs, hoffset, rfl⟩

theorem selection_fields (requested : List String) (s : Selecting) :
    (selection requested s).field "directionIndices" = .arr (s.indices.map fun i => .ofInt i) ∧
      (selection requested s).field "supplierSegmentCodeRefs" = .arr (s.supplierRefs.map .str) ∧
      (selection requested s).field "directions" = .arr s.directions := by
  refine ⟨?_, ?_, ?_⟩ <;> simp [selection, Value.field, Value.get?_object]

/-- A result is the only way to make up the requested references. -/
theorem select_unique {original selling result : Value}
    (h : select original selling requested = some result) :
    ∃ groups choice, selling.field "directions" = .arr (groups.map .arr) ∧
      result.field "directionIndices" = .arr (choice.map fun i => .ofInt i) ∧
      Chosen (groupRefs groups) requested choice [] ∧
      ∀ choice', Chosen (groupRefs groups) requested choice' [] → choice' = choice := by
  obtain ⟨shown, source, s, hshown, -, ⟨-, hlengths, -⟩, hs, hoffset, rfl⟩ := select_eq_some.mp h
  obtain ⟨groups, choice, rfl, hindices, hforced⟩ := selectGroups_forced hlengths hs
  rw [List.drop_zero, hoffset, List.drop_length] at hforced
  refine ⟨groups, choice, hshown, ?_, hforced.chosen, fun _ h' => (hforced.unique h').1⟩
  rw [(selection_fields requested s).1, hindices, List.nil_append]

theorem refs_ne_nil {direction : Value} {words : List String} (h : refs direction = some words) :
    words ≠ [] := by
  simp only [refs, bind_eq_some, guard_eq_some, exists_const] at h
  obtain ⟨segments, -, hne, hwords⟩ := h
  rintro rfl
  have hlength := (mapM_eq_some hwords).length_eq
  exact hne (List.length_eq_zero_iff.mp hlength)

theorem input_ne_nil {groups : List (List Value)} {input rest : List String} {choice : List Nat}
    (hne : groups ≠ []) (h : Chosen (groupRefs groups) input choice rest) : input ≠ [] := by
  cases groups with
  | nil => exact absurd rfl hne
  | cons options groups =>
    rw [groupRefs, List.map_cons] at h
    cases h with
    | cons hword _ =>
      rw [List.getElem?_map, Option.map_eq_some_iff] at hword
      obtain ⟨direction, -, hrefs⟩ := hword
      exact List.append_ne_nil_of_left_ne_nil (refs_ne_nil hrefs) _

/-- What is requested of a published offer, when its references force it, is found with the supplier's
references. -/
theorem select_published {published : String → Uuid} {original bound : Value}
    {groups shown : List (List Value)} {input requested : List String} {choice : List Nat}
    (hinj : Set.InjOn published {text | text ∈ referenceTexts original})
    (hbound : bound = publishAs published original) (hne : groups ≠ [])
    (hgroups : original.field "directions" = .arr (groups.map .arr))
    (hforced : Forced (groupRefs groups) input choice [])
    (hshown : bound.field "directions" = .arr (shown.map .arr))
    (hrequested : Chosen (groupRefs shown) requested choice []) :
    ∃ result, select original bound requested = some result ∧
      result.field "directionIndices" = .arr (choice.map fun i => .ofInt i) ∧
      result.field "supplierSegmentCodeRefs" = .arr (input.map .str) ∧
      result.field "directions" = .arr (chosenOptions groups choice) := by
  have hdirections : bound.field "directions" =
      .arr (groups.map fun options => .arr (options.map (publishAs published))) := by
    rw [hbound, publishAs, field_renameReferences (by decide), hgroups, renameReferences,
      renameValues_eq_map, List.map_map]
    refine congrArg Value.arr (List.map_congr_left fun options _ => ?_)
    show renameReferences _ (.arr options) = _
    rw [renameReferences, renameValues_eq_map]
    rfl
  obtain rfl : shown = groups.map fun options => options.map (publishAs published) := by
    rw [hshown, Value.arr.injEq] at hdirections
    apply List.map_injective_iff.mpr (fun _ _ => Value.arr.inj)
    rw [hdirections, List.map_map]
    rfl
  -- The published words are the words published, and they are as different.
  have hpublic : Forced (groupRefs (groups.map fun options => options.map (publishAs published)))
      (input.map fun text => (published text).text) choice [] := by
    have hletters : ∀ text, Letters (groupRefs groups) text →
        text ∈ {text | text ∈ referenceTexts original} := fun text h => mem_letters hgroups h
    have htexts : Set.InjOn (fun text => (published text).text)
        {text | text ∈ referenceTexts original} :=
      fun a ha b hb hab => hinj ha hb (Uuid.text_inj hab)
    have hmap := (hforced.map htexts hletters (fun _ h => absurd h List.not_mem_nil)).2
    have hsame : (groupRefs groups).map (fun options => options.map
        (Option.map (List.map fun text => (published text).text))) =
        groupRefs (groups.map fun options => options.map (publishAs published)) := by
      simp only [groupRefs, List.map_map, Function.comp_def, refs_publishAs]
    rw [hsame] at hmap
    exact hmap
  obtain rfl := hpublic.chosen.input_unique hrequested
  obtain ⟨s, hrun, hindices, hrefs, hdirs, hoffset⟩ := @selectGroups_publishAs
    (input.map fun text => (published text).text) ⟨0, [], [], []⟩ _ _ _ _ _
    hforced hpublic rfl (by rw [List.length_map, Nat.zero_add])
  rw [List.append_nil, List.nil_append] at hrefs
  have hinput : (input.map fun text => (published text).text) ≠ [] := by
    simpa using input_ne_nil hne hforced.chosen
  refine ⟨selection _ s, select_eq_some.mpr ⟨_, _, s, hshown, hgroups, ⟨?_, ?_, hinput⟩, ?_, ?_, rfl⟩,
    ?_, ?_, ?_⟩
  · simpa using hne
  · simp
  · rw [List.map_map]
    exact hrun
  · simpa using hoffset
  · rw [(selection_fields _ s).1, hindices, List.nil_append]
  · rw [(selection_fields _ s).2.1, hrefs]
  · rw [(selection_fields _ s).2.2, hdirs, List.nil_append]

/-- References are renamed one to one, what is requested of a published offer is found with the
supplier's references, and a result is the only way to make up the request. -/
theorem select_roundTrip (draw : Nat → Uuid) (original : Value) (s : Binding)
    (hfresh : FreshDraws draw original s) :
    (∃ published : String → Uuid, Set.InjOn published {text | text ∈ referenceTexts original} ∧
      (bindInto draw original s).1 =
        renameReferences (fun text => .str (published text).text) original) ∧
    (∀ (groups shown : List (List Value)) (choice : List Nat) (input requested : List String),
      groups ≠ [] → original.field "directions" = .arr (groups.map .arr) →
      Forced (groupRefs groups) input choice [] →
      (bindInto draw original s).1.field "directions" = .arr (shown.map .arr) →
      Chosen (groupRefs shown) requested choice [] →
      ∃ result, select original (bindInto draw original s).1 requested = some result ∧
        result.field "directionIndices" = .arr (choice.map fun i => .ofInt i) ∧
        result.field "supplierSegmentCodeRefs" = .arr (input.map .str) ∧
        result.field "directions" = .arr (chosenOptions groups choice)) ∧
    (∀ (source selling result : Value) (requested : List String),
      select source selling requested = some result →
      ∃ groups choice, selling.field "directions" = .arr (groups.map .arr) ∧
        result.field "directionIndices" = .arr (choice.map fun i => .ofInt i) ∧
        Chosen (groupRefs groups) requested choice [] ∧
        ∀ choice', Chosen (groupRefs groups) requested choice' [] → choice' = choice) := by
  obtain ⟨published, hinj, hbound, -⟩ := bindInto_renames hfresh
  refine ⟨⟨published, hinj, hbound⟩, ?_, fun _ _ _ _ h => select_unique h⟩
  intro groups shown choice input requested hne hgroups hforced hshown hrequested
  exact select_published hinj hbound hne hgroups hforced hshown hrequested

/-! ## Two alternatives -/

def sampleDirection (text : String) : Value :=
  .object [("segments", .arr [.object [("segmentCodeRef", .str text)]])]

/-- One group of two flights. -/
def sampleAlternatives : List (List Value) := [[sampleDirection "a", sampleDirection "b"]]

def sampleSearched : Value := .object [("directions", .arr (sampleAlternatives.map .arr))]

theorem sampleSearched_fresh : FreshDraws sampleDraw sampleSearched ⟨[], 0⟩ := by
  have hdrawn : (bindInto sampleDraw sampleSearched ⟨[], 0⟩).2.drawn = 2 := by decide +kernel
  constructor
  · intro m hm n hn h
    rw [hdrawn, Set.mem_Iio] at hm hn
    have hnat := congrArg BitVec.toNat h
    simp only [sampleDraw, BitVec.toNat_ofNat] at hnat
    omega
  · constructor
    · intro text v h
      cases h
    · intro a b v h
      cases h

theorem sampleSearched_forced : Forced (groupRefs sampleAlternatives) ["b"] [1] [] := by
  refine @Forced.cons _ _ _ [] _ ["b"] _ _ (by decide +kernel) ?_ .nil
  intro j other hj hfits
  have hrefs : [sampleDirection "a", sampleDirection "b"].map refs = [some ["a"], some ["b"]] := by
    decide +kernel
  change ([sampleDirection "a", sampleDirection "b"].map refs)[j]? = _ at hj
  rw [hrefs] at hj
  match j with
  | 0 =>
    cases hj
    exact absurd hfits (by decide)
  | 1 => rfl
  | j + 2 => cases hj

/-- The second flight is asked for by its public reference. -/
theorem select_roundTrip_second :
    ∃ result, select sampleSearched (bindInto sampleDraw sampleSearched ⟨[], 0⟩).1
        [(sampleDraw 1).text] = some result ∧
      result.field "directionIndices" = .arr [.ofInt 1] ∧
      result.field "supplierSegmentCodeRefs" = .arr [.str "b"] := by
  have hround := select_roundTrip sampleDraw sampleSearched ⟨[], 0⟩ sampleSearched_fresh
  have hshown : (bindInto sampleDraw sampleSearched ⟨[], 0⟩).1.field "directions" =
      .arr ([[sampleDirection (sampleDraw 0).text, sampleDirection (sampleDraw 1).text]].map .arr) := by
    decide +kernel
  have hrequested : Chosen (groupRefs [[sampleDirection (sampleDraw 0).text,
      sampleDirection (sampleDraw 1).text]]) [(sampleDraw 1).text] [1] [] :=
    @Chosen.cons _ _ _ [] _ [(sampleDraw 1).text] _ _ (by decide +kernel) .nil
  obtain ⟨result, hselect, hindices, hrefs, -⟩ := hround.2.1 sampleAlternatives _ [1] ["b"] _
    (List.cons_ne_nil _ _) (by decide) sampleSearched_forced hshown hrequested
  exact ⟨result, hselect, hindices, hrefs⟩

/-- An offer without groups has one choice and no selection. -/
theorem select_nothing :
    (Value.object [("directions", .arr [])]).field "directions" = .arr (List.map .arr []) ∧
    Forced (groupRefs []) [] [] [] ∧ Chosen (groupRefs []) [] [] [] ∧
    select (.object [("directions", .arr [])])
      (bindInto sampleDraw (.object [("directions", .arr [])]) ⟨[], 0⟩).1 [] = none :=
  ⟨by decide, .nil, .nil, by decide +kernel⟩

end ShaponTravels.Booking
