import ShaponTravels.Edits
import ShaponTravels.Imports.Portal

/-!
# Itinerary — fresh details for the flights of an imported booking

`portal_imports/itinerary.rs`.
-/

namespace ShaponTravels.Imports.Itinerary

open Library

/-- Why a merge gives nothing: it refuses, or it indexes for writing a value that is no object, which
panics. -/
inductive Stop where
  | refused (error : ApiError)
  | panicked
  deriving DecidableEq, Repr

def changed : ApiError := ⟨.conflict, "IMPORT_ITINERARY_CHANGED"⟩

/-- What a flight is. -/
def identityKeys : List String :=
  ["from", "to", "airlineCode", "flightNumber", "departure", "arrival"]

/-- What decorates it. -/
def displayKeys : List String :=
  ["fromAirport", "toAirport", "departureTerminal", "arrivalTerminal", "duration", "baggage",
    "handBaggage", "aircraft", "bookingClass", "cabinClass", "airline"]

/-! ## Writing into a value -/

/-- `IndexMut` of a key goes through an object, or makes one of null. -/
def Writable (v : Value) : Prop := v.isObject ∨ v.isNull

instance (v : Value) : Decidable (Writable v) := by
  unfold Writable
  infer_instance

/-- `value[key].as_array_mut().ok_or_else(invalid)?`. -/
def arrayMut (v : Value) (key : String) : Except Stop (List Value) := do
  ensure (Writable v) .panicked
  fetch (v.field key).asArray? (.refused invalid)

/-- `value[key] = x`. -/
def assign (v : Value) (key : String) (x : Value) : Except Stop Value := do
  ensure (Writable v) .panicked
  return v.setField key x

/-! ## Merging -/

/-- A text that is there and not blank. -/
def detail? (fresh : Value) (key : String) : Option String :=
  (fresh.field key).asStr?.filter fun s => trim s ≠ ""

/-- The body of the loop over the display fields. -/
def refresh (fresh segment : Value) (key : String) : Except Stop Value :=
  match detail? fresh key with
  | none => .ok segment
  | some text => do
    ensure (text.utf8ByteSize ≤ 300 ∧ ¬ text.toList.any isControl) (.refused invalid)
    assign segment key (.str (trim text))

def mergeSegment (p : Value × Value) : Except Stop Value := do
  ensure (∀ key ∈ identityKeys, p.1.field key = p.2.field key) (.refused changed)
  displayKeys.foldlM (refresh p.2) p.1

/-- The loop over the items that two values hold under a key. -/
def mergeItems (key : String) (each : Value × Value → Except Stop Value) (p : Value × Value) :
    Except Stop Value := do
  let previous ← arrayMut p.1 key
  let next ← fetch (p.2.field key).asArray? (.refused invalid)
  ensure (previous.length = next.length ∧ previous ≠ []) (.refused changed)
  let items ← (previous.zip next).mapM each
  return p.1.setField key (.arr items)

def mergeLeg : Value × Value → Except Stop Value := mergeItems "segments" mergeSegment

/-- `itinerary::merge`. -/
def merge (old fresh : Value) : Except Stop Value := mergeItems "legs" mergeLeg (old, fresh)

/-! ## What a merge keeps -/

/-- `new` is the segment `old` with the details of `fresh`, which is the same flight. -/
structure Refreshed (old fresh new : Value) : Prop where
  identity : ∀ key ∈ identityKeys, old.field key = fresh.field key
  other : ∀ key, key ∉ displayKeys → new.get? key = old.get? key
  kept : ∀ key, detail? fresh key = none → new.get? key = old.get? key
  shown : ∀ key ∈ displayKeys, ∀ text, detail? fresh key = some text →
    new.get? key = some (.str (trim text))

/-- `new` is `old` with items under a key that are related one by one to those of `old` and `fresh`. -/
structure Merged (key : String) (R : Value → Value → Value → Prop) (old fresh new : Value) : Prop where
  other : ∀ k, k ≠ key → new.get? k = old.get? k
  items : ∃ olds news items : List Value, old.get? key = some (.arr olds) ∧
    fresh.get? key = some (.arr news) ∧ new.get? key = some (.arr items) ∧ olds ≠ [] ∧
    news.length = olds.length ∧ items.length = olds.length ∧
    ∀ (i : Nat) (v w x : Value), olds[i]? = some v → news[i]? = some w → items[i]? = some x → R v w x

variable {old fresh new v w x : Value} {key : String}

theorem field_eq_arr {items : List Value} : v.field key = .arr items ↔ v.get? key = some (.arr items) := by
  unfold Value.field
  cases v.get? key with
  | none => simp
  | some y => simp

theorem assign_ok : assign v key x = .ok w ↔ Writable v ∧ w = v.setField key x := by
  rw [assign, bind_eq_ok]
  simp only [ensure_eq_ok, pure_eq_ok, exists_const]
  exact and_congr_right fun _ => eq_comm

theorem arrayMut_ok {items : List Value} :
    arrayMut v key = .ok items ↔ v.isObject ∧ v.get? key = some (.arr items) := by
  simp only [arrayMut, bind_eq_ok, ensure_eq_ok, fetch_eq_ok, exists_const, Value.asArray?_eq_some, field_eq_arr]
  constructor
  · rintro ⟨-, hitems⟩
    exact ⟨Value.isObject_of_get? hitems, hitems⟩
  · rintro ⟨hobject, hitems⟩
    exact ⟨.inl hobject, hitems⟩

theorem writable_setField (h : Writable v) : (v.setField key x).isObject := by
  cases v with
  | obj fields => rfl
  | null => rfl
  | _ => rcases h with h | h <;> cases h

/-! ## One segment -/

/-- The texts that may be shown. -/
def Showable (text : String) : Prop := text.utf8ByteSize ≤ 300 ∧ ¬ text.toList.any isControl

theorem refresh_ok : refresh fresh v key = .ok w ↔
    (detail? fresh key = none ∧ w = v) ∨
    ∃ text, detail? fresh key = some text ∧ Showable text ∧ Writable v ∧
      w = v.setField key (.str (trim text)) := by
  unfold refresh
  cases detail? fresh key with
  | none => simp [eq_comm]
  | some text =>
    simp only [bind_eq_ok, ensure_eq_ok, assign_ok, exists_const, reduceCtorEq, false_and, false_or,
      Option.some.injEq, exists_eq_left', Showable]

/-- The field shows the detail of `fresh`, if there is one, and to show it again changes nothing. -/
def Settled (fresh : Value) (key : String) (v : Value) : Prop :=
  ∀ text, detail? fresh key = some text → Showable text ∧ v.isObject ∧
    v.get? key = some (.str (trim text)) ∧ v.setField key (.str (trim text)) = v

theorem refresh_other {k : String} (h : refresh fresh v key = .ok w) (hk : k ≠ key ∨ detail? fresh k = none) :
    w.get? k = v.get? k := by
  rcases refresh_ok.mp h with ⟨-, rfl⟩ | ⟨text, hdetail, -, -, rfl⟩
  · rfl
  · refine Value.get?_setField_ne fun heq => ?_
    subst heq
    rcases hk with hk | hk
    · exact hk rfl
    · rw [hdetail] at hk
      cases hk

theorem get?_setField_writable (h : Writable v) : (v.setField key x).get? key = some x := by
  cases v with
  | obj fields => exact Value.get?_setField_self rfl
  | null => simp [Value.setField, Value.get?]
  | _ => rcases h with h | h <;> cases h

theorem refresh_settles (h : refresh fresh v key = .ok w) : Settled fresh key w := by
  intro text htext
  rcases refresh_ok.mp h with ⟨hnone, -⟩ | ⟨text', hdetail, hshow, hwrite, rfl⟩
  · rw [hnone] at htext
    cases htext
  · obtain rfl : text' = text := Option.some.inj (hdetail.symm.trans htext)
    exact ⟨hshow, writable_setField hwrite, get?_setField_writable hwrite, Value.setField_setField ..⟩

theorem refresh_keeps {k : String} (hsettled : Settled fresh k v) (h : refresh fresh v key = .ok w) :
    Settled fresh k w := by
  by_cases hk : k = key
  · subst hk
    exact refresh_settles h
  · intro text htext
    obtain ⟨hshow, hobject, hget, hset⟩ := hsettled text htext
    rcases refresh_ok.mp h with ⟨-, rfl⟩ | ⟨text', -, -, hwrite, rfl⟩
    · exact ⟨hshow, hobject, hget, hset⟩
    · refine ⟨hshow, writable_setField hwrite, ?_, ?_⟩
      · rw [Value.get?_setField_ne hk, hget]
      · rw [Value.setField_comm hk, hset]

theorem refresh_settled (h : Settled fresh key v) : refresh fresh v key = .ok v := by
  rw [refresh_ok]
  cases hdetail : detail? fresh key with
  | none => exact .inl ⟨rfl, rfl⟩
  | some text =>
    obtain ⟨hshow, hobject, -, hset⟩ := h text hdetail
    exact .inr ⟨text, rfl, hshow, .inl hobject, hset.symm⟩

/-- The loop over the display fields, from one key to the next. -/
theorem foldlM_refresh {keys : List String} (h : keys.foldlM (refresh fresh) v = .ok w) :
    (∀ k, k ∉ keys ∨ detail? fresh k = none → w.get? k = v.get? k) ∧
    (∀ k, k ∈ keys ∨ Settled fresh k v → Settled fresh k w) := by
  induction keys generalizing v with
  | nil =>
    cases h
    exact ⟨fun _ _ => rfl, fun k hk => hk.resolve_left List.not_mem_nil⟩
  | cons key keys ih =>
    rw [List.foldlM_cons, bind_eq_ok] at h
    obtain ⟨u, hu, hrest⟩ := h
    obtain ⟨hother, hsettled⟩ := ih hrest
    constructor
    · intro k hk
      rw [hother k (hk.imp_left fun hmem hin => hmem (List.mem_cons_of_mem _ hin))]
      exact refresh_other hu (hk.imp_left fun hmem heq => hmem (heq ▸ List.mem_cons_self))
    · intro k hk
      apply hsettled
      rcases hk with hk | hk
      · rcases List.mem_cons.mp hk with rfl | hk
        · exact .inr (refresh_settles hu)
        · exact .inl hk
      · exact .inr (refresh_keeps hk hu)

theorem foldlM_settled {keys : List String} (h : ∀ key ∈ keys, Settled fresh key v) :
    keys.foldlM (refresh fresh) v = .ok v := by
  induction keys with
  | nil => rfl
  | cons key keys ih =>
    rw [List.forall_mem_cons] at h
    rw [List.foldlM_cons, refresh_settled h.1, ok_bind, ih h.2]

theorem mergeSegment_refreshed (h : mergeSegment (v, fresh) = .ok w) : Refreshed v fresh w := by
  simp only [mergeSegment, bind_eq_ok, ensure_eq_ok, exists_const] at h
  obtain ⟨hsame, hloop⟩ := h
  obtain ⟨hother, hsettled⟩ := foldlM_refresh hloop
  refine ⟨hsame, fun key hkey => hother key (.inl hkey), fun key hkey => hother key (.inr hkey), ?_⟩
  intro key hkey text htext
  exact (hsettled key (.inl hkey) text htext).2.2.1

theorem identity_not_shown : ∀ key ∈ identityKeys, key ∉ displayKeys := by decide

theorem mergeSegment_again (h : mergeSegment (v, fresh) = .ok w) : mergeSegment (w, fresh) = .ok w := by
  have hrefreshed := mergeSegment_refreshed h
  simp only [mergeSegment, bind_eq_ok, ensure_eq_ok, exists_const] at h ⊢
  refine ⟨?_, foldlM_settled fun key hkey => (foldlM_refresh h.2).2 key (.inl hkey)⟩
  intro key hkey
  have hsame := hrefreshed.other key (identity_not_shown key hkey)
  rw [Value.field, hsame]
  exact h.1 key hkey

/-! ## The items of a list -/

variable {each : Value × Value → Except Stop Value} {R : Value → Value → Value → Prop}

theorem mergeItems_ok : mergeItems key each (old, fresh) = .ok new ↔
    ∃ olds news items : List Value, old.isObject ∧ old.get? key = some (.arr olds) ∧
      fresh.get? key = some (.arr news) ∧ (olds.length = news.length ∧ olds ≠ []) ∧
      List.Forall₂ (fun p x => each p = .ok x) (olds.zip news) items ∧ new = old.setField key (.arr items) := by
  simp only [mergeItems, bind_eq_ok, arrayMut_ok, fetch_eq_ok, ensure_eq_ok, pure_eq_ok, exists_const,
    Value.asArray?_eq_some, field_eq_arr, mapM_eq_ok]
  constructor
  · rintro ⟨olds, ⟨hobject, holds⟩, news, hnews, hlength, items, hitems, rfl⟩
    exact ⟨olds, news, items, hobject, holds, hnews, hlength, hitems, rfl⟩
  · rintro ⟨olds, news, items, hobject, holds, hnews, hlength, hitems, rfl⟩
    exact ⟨olds, ⟨hobject, holds⟩, news, hnews, hlength, items, hitems, rfl⟩

theorem mergeItems_merged (heach : ∀ v w x, each (v, w) = .ok x → R v w x)
    (h : mergeItems key each (old, fresh) = .ok new) : Merged key R old fresh new := by
  obtain ⟨olds, news, items, hobject, holds, hnews, ⟨hlength, hne⟩, hitems, rfl⟩ := mergeItems_ok.mp h
  have hcount : items.length = olds.length := by
    rw [← hitems.length_eq, List.length_zip, hlength, Nat.min_self]
  refine ⟨fun k hk => Value.get?_setField_ne hk, olds, news, items, holds, hnews,
    Value.get?_setField_self hobject, hne, hlength.symm, hcount, ?_⟩
  intro i v w x hv hw hx
  have hpair : (olds.zip news)[i]? = some (v, w) := by
    rw [List.getElem?_zip_eq_some]
    exact ⟨hv, hw⟩
  obtain ⟨x', hx', hrun⟩ := exists_getElem? hitems hpair
  obtain rfl : x' = x := Option.some.inj (hx'.symm.trans hx)
  exact heach _ _ _ hrun

theorem forall₂_again (heach : ∀ v w x, each (v, w) = .ok x → each (x, w) = .ok x)
    {olds news items : List Value} (h : List.Forall₂ (fun p x => each p = .ok x) (olds.zip news) items) :
    List.Forall₂ (fun p x => each p = .ok x) (items.zip news) items := by
  induction olds generalizing news items with
  | nil =>
    cases h
    exact .nil
  | cons v olds ih =>
    cases news with
    | nil =>
      cases h
      exact .nil
    | cons w news =>
      rw [List.zip_cons_cons] at h
      cases h with
      | cons hhead hrest => exact .cons (heach _ _ _ hhead) (ih hrest)

/-- A merge of items that can be repeated can be repeated. -/
theorem mergeItems_again (heach : ∀ v w x, each (v, w) = .ok x → each (x, w) = .ok x)
    (h : mergeItems key each (old, fresh) = .ok new) : mergeItems key each (new, fresh) = .ok new := by
  obtain ⟨olds, news, items, hobject, holds, hnews, ⟨hlength, hne⟩, hitems, rfl⟩ := mergeItems_ok.mp h
  have hcount : items.length = olds.length := by
    rw [← hitems.length_eq, List.length_zip, hlength, Nat.min_self]
  refine mergeItems_ok.mpr ⟨items, news, items, Value.isObject_setField hobject,
    Value.get?_setField_self hobject, hnews, ⟨hcount.trans hlength, ?_⟩, ?_, (Value.setField_setField ..).symm⟩
  · rw [← List.length_pos_iff, hcount, List.length_pos_iff]
    exact hne
  · exact forall₂_again heach hitems

/-! ## Refreshing an itinerary -/

/-- The segment of an itinerary at two positions, null where there is none. -/
def segment (v : Value) (leg i : Nat) : Value :=
  (((v.field "legs").item leg).field "segments").item i

/-- What holds of every item and of its fresh one, and where there is none, holds at every position. -/
theorem Merged.item {P : Value → Value → Prop} (h : Merged key R old fresh new)
    (hR : ∀ v w x, R v w x → P v w) (hnull : P .null .null) (i : Nat) :
    P ((old.field key).item i) ((fresh.field key).item i) := by
  obtain ⟨olds, news, items, hold, hfresh, -, -, hlength, hcount, hall⟩ := h.items
  rw [Value.field_of_get? hold, Value.field_of_get? hfresh]
  show P (olds.getD i .null) (news.getD i .null)
  rw [List.getD_eq_getElem?_getD, List.getD_eq_getElem?_getD]
  by_cases hi : i < olds.length
  · have hnews : i < news.length := hlength ▸ hi
    have hitems : i < items.length := hcount ▸ hi
    have hrelated := hall i _ _ _ (List.getElem?_eq_getElem hi) (List.getElem?_eq_getElem hnews)
      (List.getElem?_eq_getElem hitems)
    rw [List.getElem?_eq_getElem hi, List.getElem?_eq_getElem hnews]
    exact hR _ _ _ hrelated
  · rw [List.getElem?_eq_none (by omega), List.getElem?_eq_none (by omega)]
    exact hnull

/-- A leg whose segments have been refreshed. -/
abbrev RefreshedLeg : Value → Value → Value → Prop := Merged "segments" Refreshed

theorem mergeLeg_merged (h : mergeLeg (v, w) = .ok x) : RefreshedLeg v w x :=
  mergeItems_merged (fun _ _ _ => mergeSegment_refreshed) h

theorem mergeLeg_again (h : mergeLeg (v, w) = .ok x) : mergeLeg (x, w) = .ok x :=
  mergeItems_again (fun _ _ _ => mergeSegment_again) h

/-- A merge keeps the legs, their segments and what these are, shows the details that are there and
keeps the others, and changes nothing when it is repeated; where a flight is another one there is no
merge. -/
theorem merge_refreshes (old fresh : Value) :
    (∀ new, merge old fresh = .ok new →
      Merged "legs" RefreshedLeg old fresh new ∧ merge new fresh = .ok new) ∧
    ∀ leg i key, key ∈ identityKeys →
      (segment old leg i).field key ≠ (segment fresh leg i).field key →
      ∃ stop, merge old fresh = .error stop := by
  have hmerged : ∀ new, merge old fresh = .ok new → Merged "legs" RefreshedLeg old fresh new :=
    fun new h => mergeItems_merged (fun _ _ _ => mergeLeg_merged) h
  refine ⟨fun new h => ⟨hmerged new h, mergeItems_again (fun _ _ _ => mergeLeg_again) h⟩, ?_⟩
  intro leg i key hkey hdiffers
  cases hresult : merge old fresh with
  | error stop => exact ⟨stop, rfl⟩
  | ok new =>
    have hsame := (hmerged new hresult).item (P := fun v w => ∀ i, ∀ key ∈ identityKeys,
        ((v.field "segments").item i).field key = ((w.field "segments").item i).field key)
      (fun v w x hleg => hleg.item (P := fun v w => ∀ key ∈ identityKeys, v.field key = w.field key)
        (fun _ _ _ hsegment => hsegment.identity) fun _ _ => rfl) (fun _ _ _ => rfl) leg
    exact absurd (hsame i key hkey) hdiffers

end ShaponTravels.Imports.Itinerary
