import ShaponTravels.Library.Outcome
import ShaponTravels.Search.Selection

/-!
# LegacyKey — the equivalence key before it borrowed its offer

The frozen key of `selection_legacy_test.rs` removes the excluded fields from a copy of the offer and
writes the copy.  The key of `selection.rs` writes a view of the offer that leaves them out.
-/

namespace ShaponTravels

namespace Value

/-! ## Objects with different keys -/

mutual

/-- Every object in the value has each key once. -/
def Distinct : Value → Prop
  | .obj fields => (fields.map Prod.fst).Nodup ∧ DistinctFields fields
  | .arr values => DistinctValues values
  | _ => True

def DistinctFields : List (String × Value) → Prop
  | [] => True
  | (_, v) :: fields => v.Distinct ∧ DistinctFields fields

def DistinctValues : List Value → Prop
  | [] => True
  | v :: values => v.Distinct ∧ DistinctValues values

end

theorem DistinctFields.mem {fields : List (String × Value)} (h : DistinctFields fields)
    {f : String × Value} (hf : f ∈ fields) : f.2.Distinct := by
  induction fields with
  | nil => cases hf
  | cons g fields ih =>
    obtain ⟨hhead, hrest⟩ := h
    rcases List.mem_cons.mp hf with rfl | hf
    · exact hhead
    · exact ih hrest hf

theorem DistinctValues.mem {values : List Value} (h : DistinctValues values) {v : Value} (hv : v ∈ values) :
    v.Distinct := by
  induction values with
  | nil => cases hv
  | cons w values ih =>
    obtain ⟨hhead, hrest⟩ := h
    rcases List.mem_cons.mp hv with rfl | hv
    · exact hhead
    · exact ih hrest hv

theorem Distinct.get? {v x : Value} {key : String} (h : v.Distinct) (hx : v.get? key = some x) :
    x.Distinct := by
  cases v with
  | obj fields =>
    obtain ⟨-, hfields⟩ := h
    rw [Value.get?, Option.map_eq_some_iff] at hx
    obtain ⟨f, hf, rfl⟩ := hx
    exact hfields.mem (List.mem_of_find?_eq_some hf)
  | _ => cases hx

/-- The fields of an object are the ones its keys read. -/
theorem get?_of_mem {fields : List (String × Value)} (h : (fields.map Prod.fst).Nodup)
    {f : String × Value} (hf : f ∈ fields) : (Value.obj fields).get? f.1 = some f.2 := by
  rw [← entries_of_nodup h] at hf
  exact get?_of_mem_entries hf

end Value

/-- A value of `serde_json`, whose maps have each key once. -/
structure JsonValue where
  value : Value
  distinct : value.Distinct

namespace Search.Selection

open Library

/-! ## The frozen key -/

/-- `Map::remove` of some keys. -/
def remove (keys : List String) (fields : List (String × Value)) : List (String × Value) :=
  fields.filter fun f => !keys.contains f.1

/-- Writing through `Map::get_mut`. -/
def assign (key : String) (x : Value) (fields : List (String × Value)) : List (String × Value) :=
  fields.map fun f => if f.1 = key then (f.1, x) else f

/-- A segment without its cabin and its reference, and its cabin label. -/
def legacySegment (required : List String) (segment : Value) : Option (Value × Option String) := do
  guard (segmentTexts.all (hasText segment))
  guard (baggageComplete required segment)
  let cabin ← cabinLabel segment
  let fields ← segment.asObject?
  return (.obj (remove ["cabinClass", "segmentCodeRef"] fields), cabin)

/-- A route with its segments rewritten, and their labels. -/
def legacyRoute (required : List String) (route : Value) : Option (Value × List (Option String)) := do
  let alternatives ← route.asArray?
  guard (alternatives.length = 1)
  let alternative ← alternatives.head?
  let segments ← (alternative.get? "segments").bind Value.asArray?
  guard (segments ≠ [])
  let found ← segments.mapM (legacySegment required)
  let direction ← alternative.asObject?
  return (.arr [.obj (assign "segments" (.arr (found.map Prod.fst)) direction)], found.map Prod.snd)

/-- A fare without its total and its discount; null is left as it is. -/
def legacyFare (f : String × Value) : Option (String × Value) :=
  if f.2.isNull then some f
  else do
    let fare ← f.2.asObject?
    return (f.1, .obj (remove ["totalPrice", "discountPrice"] fare))

/-- `legacy_equivalence_key`. -/
def legacyEquivalenceKey (original : Value) : Option (String × List (Option String)) := do
  let codeShared ← (original.get? "isCodeShared").bind Value.asBool?
  guard (!codeShared ∧ original.field "hasExtraService" = .bool false)
  let _ ← (original.get? "refundable").bind Value.asBool?
  let _ ← (original.get? "rbdChangeAllowed").bind Value.asBool?
  let _ ← (original.get? "bookable").bind Value.asBool?
  guard (hasText original "platingCarrier")
  let passengers ← (original.get? "passengerCounts").bind Value.asObject?
  let counts ← passengers.mapM fun p => p.2.asU64?.map fun count => (p.1, count)
  let required := (counts.filter fun c => 0 < c.2).map fun c => toAsciiUppercase c.1
  let offer ← original.asObject?
  let offer := remove ["avlSrc", "uniqueTransID", "itemCodeRef", "totalPrice", "previousTotalFare"] offer
  let components ← ((Value.obj offer).get? "bookingComponents").bind Value.asArray?
  guard (components.length = 1)
  let component ← components.head?
  let component ← component.asObject?
  let offer := assign "bookingComponents"
    (.arr [.obj (remove ["fareReference", "totalPrice", "discountPrice"] component)]) offer
  let fares ← ((Value.obj offer).get? "passengerFares").bind Value.asObject?
  let fares ← fares.mapM legacyFare
  let offer := assign "passengerFares" (.obj fares) offer
  let directions ← ((Value.obj offer).get? "directions").bind Value.asArray?
  guard (directions ≠ [])
  let routes ← directions.mapM (legacyRoute required)
  let offer := assign "directions" (.arr (routes.map Prod.fst)) offer
  return ((Value.obj offer).text, (routes.map Prod.snd).flatten)

/-! ## The value behind a view -/

mutual

/-- The value without the fields a view of it leaves out. -/
def strip : KeyContext → Value → Value
  | c, .obj fields => if c = .other then .obj fields else .obj (stripFields c fields)
  | c, .arr values => if c = .other then .arr values else .arr (stripElements c values)
  | _, .null => .null
  | _, .bool b => .bool b
  | _, .num lexeme => .num lexeme
  | _, .str s => .str s

def stripFields : KeyContext → List (String × Value) → List (String × Value)
  | _, [] => []
  | c, (key, v) :: fields =>
    if c.excludes key then stripFields c fields
    else (key, strip (c.field key) v) :: stripFields c fields

def stripElements : KeyContext → List Value → List Value
  | _, [] => []
  | c, v :: values => strip c.element v :: stripElements c values

end

mutual

/-- A view is written as the value behind it. -/
theorem keyText_strip (c : KeyContext) (v : Value) : keyText c v = (strip c v).text := by
  cases v with
  | obj fields =>
    rw [keyText, strip]
    split
    · rfl
    · rw [Value.text, keyFields_strip]
  | arr values =>
    rw [keyText, strip]
    split
    · rfl
    · rw [Value.text, keyElements_strip]
  | null => rw [keyText, strip]
  | bool b => rw [keyText, strip]
  | num lexeme => rw [keyText, strip]
  | str s => rw [keyText, strip]

theorem keyFields_strip (c : KeyContext) (fields : List (String × Value)) :
    keyFields c fields = Value.textFields (stripFields c fields) := by
  cases fields with
  | nil => rw [keyFields, stripFields, Value.textFields]
  | cons f fields =>
    obtain ⟨key, v⟩ := f
    rw [keyFields, stripFields]
    split
    · exact keyFields_strip c fields
    · rw [Value.textFields, keyText_strip (c.field key) v, keyFields_strip c fields]

theorem keyElements_strip (c : KeyContext) (values : List Value) :
    keyElements c values = Value.textValues (stripElements c values) := by
  cases values with
  | nil => rw [keyElements, stripElements, Value.textValues]
  | cons v values =>
    rw [keyElements, stripElements, Value.textValues, keyText_strip c.element v, keyElements_strip c values]

end

theorem strip_other (v : Value) : strip .other v = v := by
  cases v with
  | obj fields => rw [strip, if_pos rfl]
  | arr values => rw [strip, if_pos rfl]
  | null => rw [strip]
  | bool b => rw [strip]
  | num lexeme => rw [strip]
  | str s => rw [strip]

theorem stripElements_eq (c : KeyContext) (values : List Value) :
    stripElements c values = values.map (strip c.element) := by
  induction values with
  | nil => rw [stripElements, List.map_nil]
  | cons v values ih => rw [stripElements, List.map_cons, ih]

theorem stripFields_eq (c : KeyContext) (fields : List (String × Value)) :
    stripFields c fields =
      (fields.filter fun f => !c.excludes f.1).map fun f => (f.1, strip (c.field f.1) f.2) := by
  induction fields with
  | nil => rw [stripFields, List.filter_nil, List.map_nil]
  | cons f fields ih =>
    obtain ⟨key, v⟩ := f
    rw [stripFields, ih, List.filter_cons]
    cases hkey : c.excludes key with
    | true => simp
    | false => simp

theorem strip_array {c : KeyContext} (hc : c ≠ .other) (values : List Value) :
    strip c (.arr values) = .arr (values.map (strip c.element)) := by
  rw [strip, if_neg hc, stripElements_eq]

/-- Below some contexts nothing is left out. -/
theorem strip_fields {c : KeyContext} (hc : c ≠ .other) (hfield : ∀ key, c.field key = .other)
    (fields : List (String × Value)) :
    strip c (.obj fields) = .obj (fields.filter fun f => !c.excludes f.1) := by
  rw [strip, if_neg hc, stripFields_eq]
  simp [hfield, strip_other]

/-! ## The parts of an offer -/

theorem strip_segment (fields : List (String × Value)) :
    strip .segment (.obj fields) = .obj (remove ["cabinClass", "segmentCodeRef"] fields) :=
  strip_fields (by decide) (fun _ => rfl) fields

theorem strip_fare (fields : List (String × Value)) :
    strip .fare (.obj fields) = .obj (remove ["totalPrice", "discountPrice"] fields) :=
  strip_fields (by decide) (fun _ => rfl) fields

theorem strip_component (fields : List (String × Value)) :
    strip .component (.obj fields) =
      .obj (remove ["fareReference", "totalPrice", "discountPrice"] fields) :=
  strip_fields (by decide) (fun _ => rfl) fields

theorem get?_remove {keys : List String} {key : String} (h : key ∉ keys) (fields : List (String × Value)) :
    (Value.obj (remove keys fields)).get? key = (Value.obj fields).get? key := by
  rw [Value.get?, Value.get?, remove, List.find?_filter]
  congr 2
  funext f
  by_cases hkey : f.1 = key
  · simp [hkey, h]
  · simp [hkey]

theorem get?_cons (f : String × Value) (fields : List (String × Value)) (key : String) :
    (Value.obj (f :: fields)).get? key = if f.1 = key then some f.2 else (Value.obj fields).get? key := by
  by_cases hkey : f.1 = key
  · simp [Value.get?, hkey]
  · simp [Value.get?, hkey]

theorem get?_assign_ne {key other : String} (h : other ≠ key) (x : Value) (fields : List (String × Value)) :
    (Value.obj (assign key x fields)).get? other = (Value.obj fields).get? other := by
  induction fields with
  | nil => rfl
  | cons f fields ih =>
    rw [assign, List.map_cons, get?_cons, get?_cons]
    rw [assign] at ih
    by_cases hkey : f.1 = key
    · have hne : key ≠ other := Ne.symm h
      rw [if_pos hkey, if_neg (hkey ▸ hne), if_neg (hkey ▸ hne), ih]
    · rw [if_neg hkey, ih]

/-- Writing the one field of a key is rewriting the fields under that key. -/
theorem assign_eq {key : String} {x v : Value} {fields : List (String × Value)} {g : Value → Value}
    (hnodup : (fields.map Prod.fst).Nodup) (hv : (Value.obj fields).get? key = some v) (hx : x = g v) :
    assign key x fields = fields.map fun f => if f.1 = key then (f.1, g f.2) else f := by
  refine List.map_congr_left fun f hf => ?_
  split
  · rename_i hkey
    have hget := Value.get?_of_mem hnodup hf
    rw [hkey, hv, Option.some.injEq] at hget
    rw [hx, hget]
  · rfl

/-- The segment that is left of the frozen walk is the one behind the view. -/
theorem legacySegment_eq (required : List String) (segment : Value) :
    legacySegment required segment =
      (segmentCabin required segment).map fun cabin => (strip .segment segment, cabin) := by
  unfold legacySegment segmentCabin
  cases segment with
  | obj fields =>
    rw [strip_segment]
    by_cases htexts : segmentTexts.all (hasText (.obj fields)) = true
    · by_cases hbaggage : baggageComplete required (.obj fields) = true
      · simp only [guard, htexts, hbaggage, if_true]
        cases cabinLabel (.obj fields) with
        | none => rfl
        | some cabin => rfl
      · simp only [guard, htexts, hbaggage, if_true]
        rfl
    · simp only [guard, htexts]
      rfl
  | _ => rfl

/-- A loop that returns what another one returns, beside a part that does not depend on it. -/
theorem mapM_paired {α β γ : Type} {f : α → Option β} {g : α → Option (γ × β)} {h : α → γ} {as : List α}
    (hg : ∀ a ∈ as, g a = (f a).map fun b => (h a, b)) :
    (as.mapM g).map (fun found => (found.map Prod.fst, found.map Prod.snd)) =
      (as.mapM f).map fun bs => (as.map h, bs) := by
  induction as with
  | nil => rfl
  | cons a as ih =>
    have hrest := ih fun a' ha' => hg a' (List.mem_cons_of_mem _ ha')
    rw [List.mapM_cons, List.mapM_cons, hg a List.mem_cons_self]
    cases f a with
    | none => rfl
    | some b =>
      cases hfs : as.mapM f with
      | none =>
        rw [hfs, Option.map_none, Option.map_eq_none_iff] at hrest
        rw [hrest]
        rfl
      | some bs =>
        rw [hfs, Option.map_some, Option.map_eq_some_iff] at hrest
        obtain ⟨found, hfound, hpair⟩ := hrest
        rw [Prod.mk.injEq] at hpair
        rw [hfound]
        show some (h a :: found.map Prod.fst, b :: found.map Prod.snd) = some (h a :: as.map h, b :: bs)
        rw [hpair.1, hpair.2]

theorem strip_direction {fields : List (String × Value)} {segments : Value}
    (hnodup : (fields.map Prod.fst).Nodup) (h : (Value.obj fields).get? "segments" = some segments) :
    strip .direction (.obj fields) = .obj (assign "segments" (strip .segments segments) fields) := by
  rw [strip, if_neg (by decide), stripFields_eq, assign_eq hnodup h rfl]
  have hfilter : (fields.filter fun f => !KeyContext.direction.excludes f.1) = fields :=
    List.filter_eq_self.mpr fun _ _ => rfl
  rw [hfilter]
  congr 1
  refine List.map_congr_left fun f _ => ?_
  split
  · rename_i hkey
    rw [hkey]
    rfl
  · rename_i hkey
    have hother : KeyContext.direction.field f.1 = .other := by
      unfold KeyContext.field
      split
      all_goals first | rfl | simp_all
    rw [hother, strip_other]

/-- The route that is left is the one behind the view, with the labels of its segments. -/
theorem legacyRoute_eq (required : List String) {route : Value} (hroute : route.Distinct) :
    legacyRoute required route = ((routeSegments route).bind fun segments =>
      segments.mapM (segmentCabin required)).map fun cabins => (strip .route route, cabins) := by
  cases route with
  | arr alternatives =>
    match alternatives with
    | [] => rfl
    | _ :: _ :: _ => rfl
    | [alternative] =>
      have hlegacy : legacyRoute required (.arr [alternative]) =
          ((alternative.get? "segments").bind Value.asArray?).bind fun segments =>
            (guard (segments ≠ []) : Option Unit).bind fun _ => (segments.mapM (legacySegment required)).bind fun found =>
              alternative.asObject?.bind fun direction =>
                some (.arr [.obj (assign "segments" (.arr (found.map Prod.fst)) direction)],
                  found.map Prod.snd) := rfl
      have hsegments : routeSegments (.arr [alternative]) =
          ((alternative.get? "segments").bind Value.asArray?).bind fun segments =>
            (guard (segments ≠ []) : Option Unit).bind fun _ => some segments := rfl
      rw [hlegacy, hsegments]
      cases halternative : (alternative.get? "segments").bind Value.asArray? with
      | none => rfl
      | some segments =>
        by_cases hempty : segments = []
        · subst hempty
          rfl
        · rw [Option.bind_eq_some_iff] at halternative
          obtain ⟨_, hget, harray⟩ := halternative
          obtain rfl := Value.asArray?_eq_some.mp harray
          cases alternative with
          | obj fields =>
            have hnodup : (fields.map Prod.fst).Nodup := hroute.1.1
            have hloop := @mapM_paired _ _ _ _ _ _ segments fun segment _ => legacySegment_eq required segment
            have hguard : (guard (segments ≠ []) : Option Unit) = some () := if_pos hempty
            rw [Option.bind_some, Option.bind_some, hguard, Option.bind_some, Option.bind_some,
              Option.bind_some]
            cases hcabins : segments.mapM (segmentCabin required) with
            | none =>
              rw [hcabins, Option.map_none, Option.map_eq_none_iff] at hloop
              rw [hloop]
              rfl
            | some cabins =>
              rw [hcabins, Option.map_some, Option.map_eq_some_iff] at hloop
              obtain ⟨found, hfound, hpair⟩ := hloop
              rw [Prod.mk.injEq] at hpair
              have hstrip : strip .segments (.arr segments) = .arr (segments.map (strip .segment)) :=
                strip_array (by decide) segments
              have hroutes : strip .route (.arr [.obj fields]) = .arr [strip .direction (.obj fields)] :=
                strip_array (by decide) _
              rw [hfound, hroutes, strip_direction hnodup hget, hstrip, Option.bind_some, hpair.1, hpair.2]
              rfl
          | _ => cases hget
  | _ => rfl

/-- The fares that are left, where every fare is an object or null. -/
theorem legacyFares_eq (fares : List (String × Value)) :
    fares.mapM legacyFare = (guard (fares.all fun f => f.2.isNull || f.2.isObject) : Option Unit).map
      fun _ => fares.map fun f => (f.1, strip .fare f.2) := by
  induction fares with
  | nil => rfl
  | cons f fares ih =>
    obtain ⟨kind, fare⟩ := f
    rw [List.mapM_cons, ih, List.all_cons]
    by_cases hrest : (fares.all fun f => f.2.isNull || f.2.isObject) = true
    · rw [hrest, Bool.and_true]
      cases fare with
      | obj fields =>
        rw [List.map_cons, strip_fare]
        rfl
      | null =>
        rw [List.map_cons, strip]
        rfl
      | _ => rfl
    · rw [Bool.not_eq_true] at hrest
      rw [hrest, Bool.and_false]
      cases legacyFare (kind, fare) with
      | none => rfl
      | some fare => rfl

theorem strip_fares (fares : List (String × Value)) :
    strip .fares (.obj fares) = .obj (fares.map fun f => (f.1, strip .fare f.2)) := by
  rw [strip, if_neg (by decide), stripFields_eq]
  have hfilter : (fares.filter fun f => !KeyContext.fares.excludes f.1) = fares :=
    List.filter_eq_self.mpr fun _ _ => rfl
  rw [hfilter]
  rfl

theorem mapM_flatten {α β γ : Type} {f : α → Option (List β)} {g : β → Option γ} (as : List α) :
    (as.mapM fun a => (f a).bind fun bs => bs.mapM g).map List.flatten =
      (as.mapM f).bind fun bss => bss.flatten.mapM g := by
  induction as with
  | nil => rfl
  | cons a as ih =>
    rw [List.mapM_cons, List.mapM_cons]
    cases f a with
    | none => rfl
    | some bs =>
      cases hbss : as.mapM f with
      | none =>
        rw [hbss, Option.bind_none, Option.map_eq_none_iff] at ih
        rw [ih]
        show Option.map List.flatten ((bs.mapM g).bind fun cs => none) = none
        cases bs.mapM g with
        | none => rfl
        | some cs => rfl
      | some bss =>
        rw [hbss, Option.bind_some] at ih
        have hright : (bs :: bss).flatten.mapM g =
            (bs.mapM g).bind fun cs => (bss.flatten.mapM g).map fun rest => cs ++ rest := by
          rw [List.flatten_cons, List.mapM_append]
          cases bs.mapM g with
          | none => rfl
          | some cs =>
            cases bss.flatten.mapM g with
            | none => rfl
            | some rest => rfl
        show _ = (bs :: bss).flatten.mapM g
        rw [hright, ← ih]
        show Option.map List.flatten ((bs.mapM g).bind fun cs => _) = _
        cases bs.mapM g with
        | none => rfl
        | some cs =>
          cases as.mapM fun a => (f a).bind fun bs => bs.mapM g with
          | none => rfl
          | some css => rfl

/-- The copy with its parts rewritten is the value behind the view. -/
theorem strip_offer {fields : List (String × Value)} {components fares directions : Value}
    (hnodup : (fields.map Prod.fst).Nodup)
    (hcomponents : (Value.obj fields).get? "bookingComponents" = some components)
    (hfares : (Value.obj fields).get? "passengerFares" = some fares)
    (hdirections : (Value.obj fields).get? "directions" = some directions) :
    strip .offer (.obj fields) = .obj (assign "directions" (strip .directions directions)
      (assign "passengerFares" (strip .fares fares) (assign "bookingComponents" (strip .components components)
        (remove ["avlSrc", "uniqueTransID", "itemCodeRef", "totalPrice", "previousTotalFare"] fields)))) := by
  rw [strip, if_neg (by decide), stripFields_eq]
  simp only [assign, List.map_map]
  congr 1
  refine List.map_congr_left fun f hf => ?_
  obtain ⟨key, v⟩ := f
  have hget := Value.get?_of_mem hnodup (List.mem_of_mem_filter hf)
  by_cases hone : key = "bookingComponents"
  · subst hone
    rw [hcomponents] at hget
    cases hget
    rfl
  · by_cases htwo : key = "passengerFares"
    · subst htwo
      rw [hfares] at hget
      cases hget
      rfl
    · by_cases hthree : key = "directions"
      · subst hthree
        rw [hdirections] at hget
        cases hget
        rfl
      · have hother : KeyContext.offer.field key = .other := by
          unfold KeyContext.field
          split
          all_goals first | rfl | simp_all
        simp [hone, htwo, hthree, hother, strip_other]

/-- With its parts checked, an offer's routes give both the same key and the same labels. -/
theorem routes_agree {required : List String} {fields component fares : List (String × Value)}
    {directions : List Value} (hdistinct : (Value.obj fields).Distinct)
    (hcomponents : ((Value.obj fields).get? "bookingComponents").bind Value.asArray? = some [.obj component])
    (hfares : ((Value.obj fields).get? "passengerFares").bind Value.asObject? = some fares)
    (hdirections : ((Value.obj fields).get? "directions").bind Value.asArray? = some directions) :
    ((directions.mapM (legacyRoute required)).bind fun routes =>
      pure ((Value.obj (assign "directions" (.arr (routes.map Prod.fst))
        (assign "passengerFares" (.obj (fares.map fun f => (f.1, strip .fare f.2)))
          (assign "bookingComponents"
            (.arr [.obj (remove ["fareReference", "totalPrice", "discountPrice"] component)])
            (remove ["avlSrc", "uniqueTransID", "itemCodeRef", "totalPrice", "previousTotalFare"]
              fields))))).text, (routes.map Prod.snd).flatten)) =
    (directions.mapM routeSegments).bind fun segments =>
      (segments.flatten.mapM (segmentCabin required)).bind fun cabins =>
        (pure (keyText .offer (.obj fields), cabins) : Option (String × List (Option String))) := by
  rw [Option.bind_eq_some_iff] at hcomponents hfares hdirections
  obtain ⟨_, hcomponents, hc⟩ := hcomponents
  obtain ⟨_, hfares, hf⟩ := hfares
  obtain ⟨_, hdirections, hd⟩ := hdirections
  obtain rfl := Value.asArray?_eq_some.mp hc
  obtain rfl := Value.asObject?_eq_some.mp hf
  obtain rfl := Value.asArray?_eq_some.mp hd
  have hvalues : Value.DistinctValues directions := hdistinct.get? hdirections
  have hloop := @mapM_paired _ _ _ _ _ _ directions fun route hroute =>
    legacyRoute_eq required (hvalues.mem hroute)
  have hflat := mapM_flatten (f := routeSegments) (g := segmentCabin required) directions
  rw [keyText_strip, strip_offer hdistinct.1 hcomponents hfares hdirections,
    strip_array (by decide) directions, strip_array (by decide) [_], strip_fares]
  rw [← Option.bind_assoc, ← hflat]
  cases hcabins : directions.mapM fun route => (routeSegments route).bind fun segments =>
      segments.mapM (segmentCabin required) with
  | none =>
    rw [hcabins, Option.map_none, Option.map_eq_none_iff] at hloop
    rw [hloop]
    rfl
  | some cabins =>
    rw [hcabins, Option.map_some, Option.map_eq_some_iff] at hloop
    obtain ⟨routes, hroutes, hpair⟩ := hloop
    rw [Prod.mk.injEq] at hpair
    have hcomponent : [Value.obj component].map (strip KeyContext.components.element) =
        [.obj (remove ["fareReference", "totalPrice", "discountPrice"] component)] := by
      rw [List.map_singleton]
      exact congrArg (fun v => [v]) (strip_component component)
    rw [hroutes, Option.bind_some, hpair.1, hpair.2, Option.map_some, Option.bind_some, hcomponent]
    rfl

/-- The key of the copy is the key of the view. -/
theorem legacyEquivalenceKey_eq (v : JsonValue) :
    legacyEquivalenceKey v.value = equivalenceKey v.value := by
  obtain ⟨original, hdistinct⟩ := v
  cases original with
  | obj fields =>
    unfold legacyEquivalenceKey equivalenceKey
    refine bind_congr fun codeShared => bind_congr fun _ => bind_congr fun _ => bind_congr fun _ =>
      bind_congr fun _ => bind_congr fun _ => bind_congr fun passengers => bind_congr fun counts => ?_
    generalize (counts.filter fun c => 0 < c.2).map (fun c => toAsciiUppercase c.1) = required
    have hobject : (Value.obj fields).asObject? = some fields := rfl
    simp only [hobject, Option.bind_eq_bind, Option.bind_some,
      get?_assign_ne (show "passengerFares" ≠ "bookingComponents" by decide),
      get?_assign_ne (show "directions" ≠ "bookingComponents" by decide),
      get?_assign_ne (show "directions" ≠ "passengerFares" by decide),
      get?_remove (show "bookingComponents" ∉ ["avlSrc", "uniqueTransID", "itemCodeRef", "totalPrice",
        "previousTotalFare"] by decide),
      get?_remove (show "passengerFares" ∉ ["avlSrc", "uniqueTransID", "itemCodeRef", "totalPrice",
        "previousTotalFare"] by decide),
      get?_remove (show "directions" ∉ ["avlSrc", "uniqueTransID", "itemCodeRef", "totalPrice",
        "previousTotalFare"] by decide)]
    cases hcomponents : ((Value.obj fields).get? "bookingComponents").bind Value.asArray? with
    | none => rfl
    | some components =>
      match components with
      | [] => rfl
      | _ :: _ :: _ => rfl
      | [component] =>
        cases component with
        | obj component =>
          cases hfares : ((Value.obj fields).get? "passengerFares").bind Value.asObject? with
          | none => rfl
          | some fares =>
            have hlength : (guard ([Value.obj component].length = 1) : Option Unit) = some () := rfl
            have hobjects : (guard ([Value.obj component].length = 1 ∧
              [Value.obj component].all Value.isObject = true) : Option Unit) = some () := rfl
            have hfields : (Value.obj component).asObject? = some component := rfl
            simp only [Option.bind_some, hlength, hobjects, List.head?_cons, hfields, legacyFares_eq]
            by_cases hall : (fares.all fun f => f.2.isNull || f.2.isObject) = true
            · have hguard : (guard ((fares.all fun f => f.2.isNull || f.2.isObject) = true) : Option Unit) =
                some () := if_pos hall
              simp only [hguard, Option.map_some, Option.bind_some]
              cases hdirections : ((Value.obj fields).get? "directions").bind Value.asArray? with
              | none => rfl
              | some directions =>
                by_cases hempty : directions = []
                · subst hempty
                  rfl
                · have hroutes : (guard (directions ≠ []) : Option Unit) = some () := if_pos hempty
                  simp only [hroutes, Option.bind_some]
                  exact routes_agree hdistinct hcomponents hfares hdirections
            · have hguard : (guard ((fares.all fun f => f.2.isNull || f.2.isObject) = true) : Option Unit) =
                none := if_neg hall
              simp only [hguard, Option.map_none, Option.bind_none]
        | _ => rfl
  | _ => rfl

end Search.Selection

end ShaponTravels
