import Mathlib.Data.String.Basic
import ShaponTravels.Edits
import ShaponTravels.Library.Groups
import ShaponTravels.Pricing.Texts

/-!
# Summary — the totals of a search response

`search_summary.rs`.  The price ranges, counts, stops and airline rows of an envelope are rewritten to be
those of the offers it is returned with.
-/

namespace ShaponTravels.Search.Summary

open Library

/-! ## Numbers -/

/-- `search_summary::decimal`. -/
def decimal (v : Value) : Option BigDecimal := if v.isNumber then BigDecimal.parse v.text else none

/-- What `numeric` does to a field that is there. -/
def numeric (d : BigDecimal.Decimals) (number : BigDecimal) (field : Value) : Option Value :=
  if field.isNull then some field else (decimal field).map fun _ => .num (d.display number)

/-- `Iterator::min_by`: the first of the least. -/
def minBy {α : Type} (cmp : α → α → Ordering) : List α → Option α
  | [] => none
  | x :: xs => some (xs.foldl (fun best y => if cmp best y = .gt then y else best) x)

/-- `Iterator::max_by`: the last of the greatest. -/
def maxBy {α : Type} (cmp : α → α → Ordering) : List α → Option α
  | [] => none
  | x :: xs => some (xs.foldl (fun best y => if cmp best y = .gt then best else y) x)

/-! ## Fares -/

/-- `search_summary::Fare`. -/
structure Fare where
  net : BigDecimal
  gross : BigDecimal
  ait : BigDecimal

/-- The body of the loop over the passenger kinds: the gross and the tax so far. -/
def addKind (offer : Value) (sums : BigDecimal × BigDecimal) (entry : String × Value) :
    Option (BigDecimal × BigDecimal) := do
  let count ← entry.2.asU64?
  if count = 0 then return sums
  let p := (offer.field "passengerFares").field entry.1
  let tax := (← decimal (p.field "ait")).mul (.ofInt count)
  let base ← decimal (p.field "basePrice")
  let taxes ← decimal (p.field "taxes")
  return (sums.1.addAssign (((base.add taxes).mul (.ofInt count)).add tax), sums.2.addAssign tax)

/-- `Fare::from`. -/
def Fare.ofOffer (offer : Value) : Option Fare := do
  let counts ← (offer.field "passengerCounts").asObject?
  let sums ← counts.foldlM (addKind offer) (.ofInt 0, .ofInt 0)
  let net ← decimal (offer.field "totalPrice")
  return ⟨net, sums.1, sums.2⟩

def zero : BigDecimal := .ofInt 0

/-- The fields of a price summary, with what is written to them. -/
def priceFields (fares : List Fare) (maximum : Bool) : List (String × BigDecimal) :=
  let low := minBy (fun a b => a.net.cmp b.net) fares
  let high := maxBy (fun a b => a.net.cmp b.net) fares
  let gross := fares.map Fare.gross
  [("minNetPrice", (low.map Fare.net).getD zero), ("minNetPriceAit", (low.map Fare.ait).getD zero),
    ("minPrice", (minBy BigDecimal.cmp gross).getD zero)] ++
  if maximum then
    [("maxNetPrice", (high.map Fare.net).getD zero), ("maxNetPriceAit", (high.map Fare.ait).getD zero),
      ("maxPrice", (maxBy BigDecimal.cmp gross).getD zero)]
  else []

/-- The edits that write numbers. -/
def numbers (d : BigDecimal.Decimals) (fields : List (String × BigDecimal)) :
    List (String × (Value → Option Value)) :=
  fields.map fun f => (f.1, numeric d f.2)

/-- `search_summary::prices`. -/
def prices (d : BigDecimal.Decimals) (fares : List Fare) (maximum : Bool) (object : Value) : Option Value :=
  if object.isNull then some object else do
    guard object.isObject
    object.editFields (numbers d (priceFields fares maximum))

/-! ## The survey of the offers -/

/-- The variables of the loop over the offers. -/
structure Survey where
  airlines : List (String × List Fare)
  stops : List Nat

def addDirection (stops : List Nat) (direction : Value) : Option (List Nat) := do
  let n ← (direction.field "stops").asU64?
  return insertOnce n stops

def addGroup (stops : List Nat) (group : Value) : Option (List Nat) := do
  let directions ← group.asArray?
  directions.foldlM addDirection stops

/-- The body of the loop over the offers. -/
def surveyOffer (s : Survey) (entry : Value × Fare) : Option Survey := do
  let carrier ← (entry.1.field "platingCarrier").asStr?.filter fun c => c ≠ ""
  let groups ← (entry.1.field "directions").asArray?
  let stops ← groups.foldlM addGroup s.stops
  return ⟨enter carrier entry.2 s.airlines, stops⟩

/-! ## The envelope -/

/-- A field that is an array is replaced. -/
def replaceArray (values : Option (List Value)) (field : Value) : Option Value :=
  if field.isNull then some field else do
    let _ ← field.asArray?
    return .arr (← values)

/-- The first row of an airline in the sources. -/
def template (sources : List Value) (carrier : String) : Option Value :=
  (sources.flatMap fun s => ((s.field "item1").field "airlineFilters").asArray?.getD []).find?
    fun r => r.field "airlineCode" = .str carrier

/-- The row of an airline. -/
def airlineRow (d : BigDecimal.Decimals) (sources : List Value) (group : String × List Fare) : Option Value := do
  let row ← template sources group.1
  let row ← prices d group.2 false row
  row.editField "totalFlights" (numeric d (.ofInt group.2.length))

/-- The edits of the first item. -/
def itemEdits (d : BigDecimal.Decimals) (sources offers : List Value) (supplierCount : Nat) (fares : List Fare)
    (s : Survey) : List (String × (Value → Option Value)) :=
  [("minMaxPrice", prices d fares true), ("totalFlights", numeric d (.ofInt offers.length)),
    ("supplierCount", numeric d (.ofInt supplierCount)),
    ("totalPages", numeric d (.ofInt (if offers = [] then 0 else 1))),
    ("stops", replaceArray (some (s.stops.map fun n => .ofInt n))),
    ("airlineFilters", replaceArray (s.airlines.mapM (airlineRow d sources)))]

/-- `search_summary::aggregate`. -/
def aggregate (d : BigDecimal.Decimals) (envelope : Value) (sources offers : List Value) (supplierCount : Nat) :
    Option Value := do
  let item ← (envelope.get? "item1").filter Value.isObject
  let fares ← offers.mapM Fare.ofOffer
  let s ← (offers.zip fares).foldlM surveyOffer ⟨[], []⟩
  let item ← item.editFields (itemEdits d sources offers supplierCount fares s)
  return envelope.replaceField "item1" item

/-! ## What the numbers are -/

variable {d : BigDecimal.Decimals} {fares : List Fare} {maximum : Bool}

/-- The scale fits the crate's. -/
def Fits (a : BigDecimal) : Prop := -bigintMax - 1 ≤ a.scale ∧ a.scale ≤ bigintMax

/-- The crate reads back what it writes. -/
def Displays (d : BigDecimal.Decimals) : Prop :=
  ∀ a, Fits a → ∃ x, BigDecimal.parse (d.display a) = some x ∧ x.toRat = a.toRat

/-- The value is a number that is read as `q`. -/
def Reads (v : Value) (q : ℚ) : Prop := ∃ text x, v = .num text ∧ BigDecimal.parse text = some x ∧ x.toRat = q

/-- The one of some numbers that comes before all others, and 0 of none. -/
def Extreme (R : ℚ → ℚ → Prop) (qs : List ℚ) (q : ℚ) : Prop := (qs = [] ∧ q = 0) ∨ (q ∈ qs ∧ ∀ x ∈ qs, R q x)

/-- The least of some numbers, and 0 of none. -/
abbrev Least : List ℚ → ℚ → Prop := Extreme (· ≤ ·)

/-- The greatest of some numbers, and 0 of none. -/
abbrev Greatest : List ℚ → ℚ → Prop := Extreme (· ≥ ·)

theorem Extreme.unique {R : ℚ → ℚ → Prop} (hanti : ∀ a b, R a b → R b a → a = b) {qs qs' : List ℚ} {q q' : ℚ}
    (hperm : qs.Perm qs') (h : Extreme R qs q) (h' : Extreme R qs' q') : q = q' := by
  rcases h with ⟨rfl, rfl⟩ | ⟨hmem, hle⟩
  · rcases h' with ⟨-, rfl⟩ | ⟨hmem', -⟩
    · rfl
    · exact absurd (hperm.mem_iff.mpr hmem') List.not_mem_nil
  · rcases h' with ⟨rfl, -⟩ | ⟨hmem', hle'⟩
    · exact absurd (hperm.mem_iff.mp hmem) List.not_mem_nil
    · exact hanti _ _ (hle q' (hperm.mem_iff.mpr hmem')) (hle' q (hperm.mem_iff.mp hmem))

/-- A fold that keeps one of two elements ends with the one that comes before all others. -/
theorem foldl_pick {α : Type} {R : α → α → Prop} {f : α → α → α} (hrefl : ∀ a, R a a)
    (htrans : ∀ a b c, R a b → R b c → R a c)
    (hf : ∀ a b, (f a b = a ∧ R a b) ∨ (f a b = b ∧ R b a)) (x : α) (xs : List α) :
    xs.foldl f x ∈ x :: xs ∧ ∀ y ∈ x :: xs, R (xs.foldl f x) y := by
  induction xs generalizing x with
  | nil => exact ⟨List.mem_cons_self, fun y hy => by rw [List.mem_singleton.mp hy]; exact hrefl x⟩
  | cons z zs ih =>
    rw [List.foldl_cons]
    obtain ⟨hmem, hall⟩ := ih (f x z)
    have hpicked := hall (f x z) List.mem_cons_self
    have hrest : ∀ y ∈ zs, R (zs.foldl f (f x z)) y := fun y hy => hall y (List.mem_cons_of_mem _ hy)
    rcases hf x z with ⟨heq, hle⟩ | ⟨heq, hle⟩
    · rw [heq] at hmem hpicked hrest ⊢
      refine ⟨?_, ?_⟩
      · rcases List.mem_cons.mp hmem with hmem | hmem
        · rw [hmem]
          exact List.mem_cons_self
        · exact List.mem_cons_of_mem _ (List.mem_cons_of_mem _ hmem)
      · intro y hy
        rcases List.mem_cons.mp hy with rfl | hy
        · exact hpicked
        · rcases List.mem_cons.mp hy with rfl | hy
          · exact htrans _ _ _ hpicked hle
          · exact hrest y hy
    · rw [heq] at hmem hpicked hrest ⊢
      refine ⟨List.mem_cons_of_mem _ hmem, ?_⟩
      intro y hy
      rcases List.mem_cons.mp hy with rfl | hy
      · exact htrans _ _ _ hpicked hle
      · rcases List.mem_cons.mp hy with rfl | hy
        · exact hpicked
        · exact hrest y hy

/-- What is found among some elements by a measure: one that comes before all others, if there is any. -/
def Picked {α : Type} (R : ℚ → ℚ → Prop) (f : α → BigDecimal) (xs : List α) (m : Option α) : Prop :=
  (xs = [] ∧ m = none) ∨ ∃ x ∈ xs, m = some x ∧ ∀ y ∈ xs, R (f x).toRat (f y).toRat

theorem minBy_picked {α : Type} (f : α → BigDecimal) (xs : List α) :
    Picked (· ≤ ·) f xs (minBy (fun a b => (f a).cmp (f b)) xs) := by
  cases xs with
  | nil => exact .inl ⟨rfl, rfl⟩
  | cons x xs =>
    obtain ⟨hmem, hle⟩ := foldl_pick (R := fun a b => (f a).toRat ≤ (f b).toRat)
      (f := fun best y => if (f best).cmp (f y) = .gt then y else best) (fun a => le_refl _)
      (fun _ _ _ => le_trans) (fun a b => by
        by_cases hgt : (f a).cmp (f b) = .gt
        · exact .inr ⟨if_pos hgt, le_of_lt (BigDecimal.cmp_eq_gt.mp hgt)⟩
        · exact .inl ⟨if_neg hgt, not_lt.mp fun hlt => hgt (BigDecimal.cmp_eq_gt.mpr hlt)⟩) x xs
    exact .inr ⟨_, hmem, rfl, hle⟩

theorem maxBy_picked {α : Type} (f : α → BigDecimal) (xs : List α) :
    Picked (· ≥ ·) f xs (maxBy (fun a b => (f a).cmp (f b)) xs) := by
  cases xs with
  | nil => exact .inl ⟨rfl, rfl⟩
  | cons x xs =>
    obtain ⟨hmem, hle⟩ := foldl_pick (R := fun a b => (f b).toRat ≤ (f a).toRat)
      (f := fun best y => if (f best).cmp (f y) = .gt then best else y) (fun a => le_refl _)
      (fun _ _ _ hab hbc => le_trans hbc hab) (fun a b => by
        by_cases hgt : (f a).cmp (f b) = .gt
        · exact .inl ⟨if_pos hgt, le_of_lt (BigDecimal.cmp_eq_gt.mp hgt)⟩
        · exact .inr ⟨if_neg hgt, not_lt.mp fun hlt => hgt (BigDecimal.cmp_eq_gt.mpr hlt)⟩) x xs
    exact .inr ⟨_, hmem, rfl, hle⟩

/-! ## Numbers that fit -/

theorem fits_ofInt (n : Int) : Fits (.ofInt n) := by
  constructor
  · show -bigintMax - 1 ≤ 0
    decide
  · show (0 : Int) ≤ bigintMax
    decide

theorem Fits.add {a b : BigDecimal} (ha : Fits a) (hb : Fits b) : Fits (a.add b) :=
  ⟨le_trans ha.1 (le_max_left _ _), max_le ha.2 hb.2⟩

theorem Fits.addAssign {a b : BigDecimal} (ha : Fits a) (hb : Fits b) : Fits (a.addAssign b) :=
  ⟨le_trans (le_min ha.1 hb.1) (BigDecimal.scale_addAssign a b).1,
    le_trans (BigDecimal.scale_addAssign a b).2 (max_le ha.2 hb.2)⟩

theorem Fits.mul {a : BigDecimal} (ha : Fits a) (n : Int) : Fits (a.mul (.ofInt n)) := by
  rcases BigDecimal.scale_mul_ofInt a n with hscale | hscale
  · rw [Fits, hscale]
    exact fits_ofInt n
  · rw [Fits, hscale]
    exact ha

theorem fits_of_decimal {v : Value} {a : BigDecimal} (h : decimal v = some a) : Fits a := by
  rw [decimal, Option.ite_none_right_eq_some] at h
  obtain ⟨-, h⟩ := h
  simp only [BigDecimal.parse] at h
  split at h
  · obtain ⟨scale, hscale, rfl⟩ := Option.map_eq_some_iff.mp h
    rw [i64?, Option.ite_none_right_eq_some] at hscale
    obtain ⟨hbounds, hscale⟩ := hscale
    cases hscale
    exact hbounds
  · cases h

structure Fare.Fits (f : Fare) : Prop where
  net : Summary.Fits f.net
  gross : Summary.Fits f.gross
  ait : Summary.Fits f.ait

theorem addKind_fits {offer : Value} {sums sums' : BigDecimal × BigDecimal} {entry : String × Value}
    (hs : Fits sums.1 ∧ Fits sums.2) (h : addKind offer sums entry = some sums') : Fits sums'.1 ∧ Fits sums'.2 := by
  simp only [addKind, Option.bind_eq_bind, Option.bind_eq_some_iff, Option.pure_def] at h
  obtain ⟨count, -, h⟩ := h
  split at h
  · cases h
    exact hs
  · simp only [Option.bind_eq_some_iff, Option.some.injEq] at h
    obtain ⟨ait, hait, base, hbase, taxes, htaxes, rfl⟩ := h
    have htax := (fits_of_decimal hait).mul count
    exact ⟨hs.1.addAssign ((((fits_of_decimal hbase).add (fits_of_decimal htaxes)).mul count).add htax),
      hs.2.addAssign htax⟩

theorem ofOffer_fits {offer : Value} {f : Fare} (h : Fare.ofOffer offer = some f) : f.Fits := by
  simp only [Fare.ofOffer, Option.bind_eq_bind, Option.bind_eq_some_iff, Option.pure_def, Option.some.injEq] at h
  obtain ⟨counts, -, sums, hsums, net, hnet, rfl⟩ := h
  have hfold : ∀ (entries : List (String × Value)) (s s' : BigDecimal × BigDecimal), Fits s.1 ∧ Fits s.2 →
      entries.foldlM (addKind offer) s = some s' → Fits s'.1 ∧ Fits s'.2 := by
    intro entries
    induction entries with
    | nil =>
      intro s s' hs h
      cases h
      exact hs
    | cons entry entries ih =>
      intro s s' hs h
      rw [List.foldlM_cons, Option.bind_eq_bind, Option.bind_eq_some_iff] at h
      obtain ⟨next, hnext, hrest⟩ := h
      exact ih next s' (addKind_fits hs hnext) hrest
  obtain ⟨hgross, hait⟩ := hfold counts _ sums ⟨fits_ofInt 0, fits_ofInt 0⟩ hsums
  exact ⟨fits_of_decimal hnet, hgross, hait⟩

/-! ## The edits -/

/-- What is found is the extreme. -/
theorem Picked.extreme {α : Type} {R : ℚ → ℚ → Prop} {f : α → BigDecimal} {xs : List α} {m : Option α}
    (h : Picked R f xs m) : Extreme R (xs.map fun x => (f x).toRat) ((m.map f).getD zero).toRat := by
  rcases h with ⟨rfl, rfl⟩ | ⟨x, hx, rfl, hbefore⟩
  · exact .inl ⟨rfl, BigDecimal.toRat_ofInt 0⟩
  · refine .inr ⟨List.mem_map_of_mem hx, fun q hq => ?_⟩
    obtain ⟨y, hy, rfl⟩ := List.mem_map.mp hq
    exact hbefore y hy

theorem Picked.fits {α : Type} {R : ℚ → ℚ → Prop} {f g : α → BigDecimal} {xs : List α} {m : Option α}
    (h : Picked R f xs m) (hg : ∀ x ∈ xs, Fits (g x)) : Fits ((m.map g).getD zero) := by
  rcases h with ⟨-, rfl⟩ | ⟨x, hx, rfl, -⟩
  · exact fits_ofInt 0
  · exact hg x hx

/-- The tax of an offer whose net price is extreme, and 0 of none. -/
def TaxOf (R : ℚ → ℚ → Prop) (fares : List Fare) (q : ℚ) : Prop :=
  (fares = [] ∧ q = 0) ∨ ∃ f ∈ fares, f.ait.toRat = q ∧ ∀ g ∈ fares, R f.net.toRat g.net.toRat

theorem Picked.taxOf {R : ℚ → ℚ → Prop} {m : Option Fare} (h : Picked R Fare.net fares m) :
    TaxOf R fares ((m.map Fare.ait).getD zero).toRat := by
  rcases h with ⟨rfl, rfl⟩ | ⟨x, hx, rfl, hbefore⟩
  · exact .inl ⟨rfl, BigDecimal.toRat_ofInt 0⟩
  · exact .inr ⟨x, hx, rfl, hbefore⟩

/-- A known field, and what may be written to it. -/
abbrev Known := List (String × (Value → Value → Prop))

/-- A number is written of which the property holds. -/
def Wrote (P : ℚ → Prop) (_ v : Value) : Prop := ∃ q, Reads v q ∧ P q

/-- What a price summary is rewritten to. -/
def priceKnown (fares : List Fare) (maximum : Bool) : Known :=
  let nets := fares.map fun f => f.net.toRat
  let grosses := fares.map fun f => f.gross.toRat
  [("minNetPrice", Wrote (Least nets)), ("minNetPriceAit", Wrote (TaxOf (· ≤ ·) fares)),
    ("minPrice", Wrote (Least grosses))] ++
  if maximum then
    [("maxNetPrice", Wrote (Greatest nets)), ("maxNetPriceAit", Wrote (TaxOf (· ≥ ·) fares)),
      ("maxPrice", Wrote (Greatest grosses))]
  else []

theorem isNull_iff {v : Value} : v.isNull = true ↔ v = .null := by cases v <;> simp [Value.isNull]

/-- A number is written as it is. -/
theorem numeric_allows (hd : Displays d) {key : String} {a : BigDecimal} (ha : Fits a) {P : ℚ → Prop} (hP : P a.toRat) :
    Value.Allows (key, numeric d a) (key, Wrote P) := by
  refine ⟨rfl, fun x x' h => ?_⟩
  change numeric d a x = some x' at h
  unfold numeric at h
  split at h
  · rename_i hnull
    rw [isNull_iff] at hnull
    cases h
    exact ⟨fun h => h, fun hne => absurd hnull hne⟩
  · rename_i hnull
    obtain ⟨-, -, rfl⟩ := Option.map_eq_some_iff.mp h
    obtain ⟨y, hy, hvalue⟩ := hd a ha
    exact ⟨fun h => absurd (isNull_iff.mpr h) hnull, fun _ => ⟨a.toRat, ⟨_, y, rfl, hy, hvalue⟩, hP⟩⟩

/-- The three fields of one end of a price summary. -/
theorem extreme_allows (hd : Displays d) (hfits : ∀ f ∈ fares, f.Fits) {R : ℚ → ℚ → Prop} {m : Option Fare}
    {g : Option BigDecimal} (hm : Picked R Fare.net fares m) (hg : Picked R id (fares.map Fare.gross) g)
    (net tax gross : String) :
    List.Forall₂ Value.Allows
      (numbers d [(net, (m.map Fare.net).getD zero), (tax, (m.map Fare.ait).getD zero), (gross, g.getD zero)])
      [(net, Wrote (Extreme R (fares.map fun f => f.net.toRat))), (tax, Wrote (TaxOf R fares)),
        (gross, Wrote (Extreme R (fares.map fun f => f.gross.toRat)))] := by
  have hgross : ∀ x ∈ fares.map Fare.gross, Fits x := by
    intro x hx
    obtain ⟨f, hf, rfl⟩ := List.mem_map.mp hx
    exact (hfits f hf).gross
  have hgrossFits := hg.fits (g := id) hgross
  have hgrossExtreme := hg.extreme
  rw [Option.map_id] at hgrossFits
  rw [Option.map_id, List.map_map] at hgrossExtreme
  refine .cons ?_ (.cons ?_ (.cons ?_ .nil))
  · exact numeric_allows hd (hm.fits fun f hf => (hfits f hf).net) hm.extreme
  · exact numeric_allows hd (hm.fits fun f hf => (hfits f hf).ait) hm.taxOf
  · exact numeric_allows hd hgrossFits hgrossExtreme

/-- The edits of a price summary write the extrema. -/
theorem priceFields_allows (hd : Displays d) (hfits : ∀ f ∈ fares, f.Fits) :
    List.Forall₂ Value.Allows (numbers d (priceFields fares maximum)) (priceKnown fares maximum) := by
  have hlow := extreme_allows hd hfits (minBy_picked Fare.net fares) (minBy_picked id (fares.map Fare.gross))
    "minNetPrice" "minNetPriceAit" "minPrice"
  cases maximum with
  | false => exact hlow
  | true =>
    have hhigh := extreme_allows hd hfits (maxBy_picked Fare.net fares) (maxBy_picked id (fares.map Fare.gross))
      "maxNetPrice" "maxNetPriceAit" "maxPrice"
    exact List.rel_append hlow hhigh

theorem priceKnown_nodup (fares : List Fare) (maximum : Bool) : ((priceKnown fares maximum).map Prod.fst).Nodup := by
  cases maximum with
  | false =>
    show ["minNetPrice", "minNetPriceAit", "minPrice"].Nodup
    decide
  | true =>
    show ["minNetPrice", "minNetPriceAit", "minPrice", "maxNetPrice", "maxNetPriceAit", "maxPrice"].Nodup
    decide

theorem allows_keys {edits : List (String × (Value → Option Value))} {known : Known}
    (h : List.Forall₂ Value.Allows edits known) : edits.map Prod.fst = known.map Prod.fst := by
  induction h with
  | nil => rfl
  | cons h _ ih => rw [List.map_cons, List.map_cons, ih, h.1]

/-- A price summary is rewritten, if it is there and not null. -/
theorem prices_allows (hd : Displays d) (hfits : ∀ f ∈ fares, f.Fits) (key : String) :
    Value.Allows (key, prices d fares maximum) (key, Value.Rewrites (priceKnown fares maximum)) := by
  refine ⟨rfl, fun x x' h => ?_⟩
  change prices d fares maximum x = some x' at h
  unfold prices at h
  split at h
  · rename_i hnull
    rw [isNull_iff] at hnull
    cases h
    exact ⟨fun h => h, fun hne => absurd hnull hne⟩
  · rename_i hnull
    rw [Option.bind_eq_bind, Option.bind_eq_some_iff] at h
    obtain ⟨-, -, hedit⟩ := h
    have hallows : List.Forall₂ Value.Allows (numbers d (priceFields fares maximum)) (priceKnown fares maximum) :=
      priceFields_allows hd hfits
    refine ⟨fun h => absurd (isNull_iff.mpr h) hnull, fun _ => Value.editFields_rewrites hallows ?_ hedit⟩
    rw [allows_keys hallows]
    exact priceKnown_nodup fares maximum

/-! ## The survey -/

/-- A step of a fold that gathers numbers: when it succeeds, and which numbers it adds. -/
structure Gathers {α : Type} (f : List Nat → α → Option (List Nat)) (ok : α → Prop) (has : α → Nat → Prop) : Prop where
  isSome : ∀ s a, (f s a).isSome ↔ ok a
  ascending : ∀ s a s', f s a = some s' → s.Pairwise (· < ·) → s'.Pairwise (· < ·)
  mem : ∀ s a s', f s a = some s' → ∀ n, n ∈ s' ↔ n ∈ s ∨ has a n

/-- The run of such steps. -/
theorem Gathers.foldlM {α : Type} {f : List Nat → α → Option (List Nat)} {ok : α → Prop} {has : α → Nat → Prop}
    (h : Gathers f ok has) :
    Gathers (fun s (as : List α) => as.foldlM f s) (fun as => ∀ a ∈ as, ok a) (fun as n => ∃ a ∈ as, has a n) where
  isSome s as := by
    induction as generalizing s with
    | nil => simp
    | cons a as ih =>
      rw [List.foldlM_cons, Option.bind_eq_bind, List.forall_mem_cons, ← h.isSome s a]
      cases hnext : f s a with
      | none => simp
      | some next => simp [← ih next]
  ascending s as s' hfold hs := by
    induction as generalizing s with
    | nil =>
      cases hfold
      exact hs
    | cons a as ih =>
      rw [List.foldlM_cons, Option.bind_eq_bind, Option.bind_eq_some_iff] at hfold
      obtain ⟨next, hnext, hrest⟩ := hfold
      exact ih next hrest (h.ascending s a next hnext hs)
  mem s as s' hfold n := by
    induction as generalizing s with
    | nil =>
      cases hfold
      simp
    | cons a as ih =>
      rw [List.foldlM_cons, Option.bind_eq_bind, Option.bind_eq_some_iff] at hfold
      obtain ⟨next, hnext, hrest⟩ := hfold
      rw [ih next hrest, h.mem s a next hnext]
      simp [or_assoc]

/-- The stops of a direction. -/
def directionStops (direction : Value) (n : Nat) : Prop := (direction.field "stops").asU64? = some n

/-- The stops of a group of directions. -/
def groupStops (group : Value) (n : Nat) : Prop :=
  ∃ directions, group = .arr directions ∧ ∃ direction ∈ directions, directionStops direction n

/-- The stops of an offer. -/
def offerStops (offer : Value) (n : Nat) : Prop :=
  ∃ groups, offer.field "directions" = .arr groups ∧ ∃ group ∈ groups, groupStops group n

theorem addDirection_gathers :
    Gathers addDirection (fun v => (v.field "stops").asU64?.isSome) directionStops where
  isSome s a := by
    unfold addDirection
    cases (a.field "stops").asU64? <;> simp
  ascending s a s' h hs := by
    simp only [addDirection, Option.bind_eq_bind, Option.bind_eq_some_iff, Option.pure_def, Option.some.injEq] at h
    obtain ⟨n, -, rfl⟩ := h
    exact ascending_insertOnce hs
  mem s a s' h n := by
    simp only [addDirection, Option.bind_eq_bind, Option.bind_eq_some_iff, Option.pure_def, Option.some.injEq] at h
    obtain ⟨k, hk, rfl⟩ := h
    rw [mem_insertOnce, directionStops, hk, Option.some.injEq, or_comm, eq_comm]

/-- Gathering of the members of an array. -/
theorem Gathers.array {f : List Nat → Value → Option (List Nat)} {ok : Value → Prop} {has : Value → Nat → Prop}
    (h : Gathers f ok has) :
    Gathers (fun s (v : Value) => v.asArray?.bind fun items => items.foldlM f s)
      (fun v => ∃ items, v = .arr items ∧ ∀ x ∈ items, ok x)
      (fun v n => ∃ items, v = .arr items ∧ ∃ x ∈ items, has x n) where
  isSome s v := by
    cases v with
    | arr items =>
      simp only [Value.arr.injEq, exists_eq_left']
      exact h.foldlM.isSome s items
    | _ => simp [Value.asArray?]
  ascending s v s' hbind hs := by
    obtain ⟨items, -, hfold⟩ := Option.bind_eq_some_iff.mp hbind
    exact h.foldlM.ascending s items s' hfold hs
  mem s v s' hbind n := by
    obtain ⟨items, hitems, hfold⟩ := Option.bind_eq_some_iff.mp hbind
    obtain rfl := Value.asArray?_eq_some.mp hitems
    simp only [Value.arr.injEq, exists_eq_left']
    exact h.foldlM.mem s items s' hfold n

/-- Every direction of an offer has its stops. -/
def HasStops (v : Value) : Prop :=
  ∃ groups, v = .arr groups ∧ ∀ group ∈ groups, ∃ directions, group = .arr directions ∧
    ∀ direction ∈ directions, (direction.field "stops").asU64?.isSome

theorem addGroups_gathers :
    Gathers (fun s (v : Value) => v.asArray?.bind fun groups => groups.foldlM addGroup s) HasStops
      (fun v n => ∃ groups, v = .arr groups ∧ ∃ group ∈ groups, groupStops group n) :=
  addDirection_gathers.array.array

/-- What the survey needs of an offer. -/
structure Readable (offer : Value) : Prop where
  fare : (Fare.ofOffer offer).isSome
  carrier : ((offer.field "platingCarrier").asStr?.filter fun c => c ≠ "").isSome
  stops : HasStops (offer.field "directions")

def fareOf (offer : Value) : Fare := (Fare.ofOffer offer).getD ⟨zero, zero, zero⟩

def carrierOf (offer : Value) : String := (offer.field "platingCarrier").asStr?.getD ""

/-- The offers by carrier, with their fares. -/
def entries (offers : List Value) : List (String × Fare) := offers.map fun o => (carrierOf o, fareOf o)

/-- What the survey of some offers has found. -/
structure Surveyed (offers : List Value) (s : Survey) : Prop where
  airlines : Grouped (entries offers) s.airlines
  ascending : s.stops.Pairwise (· < ·)
  stops : ∀ n, n ∈ s.stops ↔ ∃ offer ∈ offers, offerStops offer n

theorem surveyed_nil : Surveyed [] ⟨[], []⟩ :=
  ⟨.nil, .nil, fun _ => iff_of_false List.not_mem_nil fun ⟨_, ho, _⟩ => absurd ho List.not_mem_nil⟩

variable {offers offers' : List Value}

theorem mapM_ofOffer {fares : List Fare} :
    offers.mapM Fare.ofOffer = some fares ↔ (∀ o ∈ offers, (Fare.ofOffer o).isSome) ∧ fares = offers.map fareOf := by
  induction offers generalizing fares with
  | nil =>
    rw [List.mapM_nil, Option.pure_def, Option.some.injEq, List.map_nil]
    exact ⟨fun h => ⟨fun _ ho => absurd ho List.not_mem_nil, h.symm⟩, fun h => h.2.symm⟩
  | cons o offers ih =>
    rw [List.mapM_cons, List.forall_mem_cons, List.map_cons, fareOf]
    cases hfare : Fare.ofOffer o with
    | none => simp
    | some f =>
      simp only [Option.bind_eq_bind, Option.bind_some, Option.bind_eq_some_iff, Option.pure_def, Option.some.injEq,
        Option.isSome_some, true_and, Option.getD_some, ih]
      constructor
      · rintro ⟨fs, ⟨hall, rfl⟩, rfl⟩
        exact ⟨hall, rfl⟩
      · rintro ⟨hall, rfl⟩
        exact ⟨_, ⟨hall, rfl⟩, rfl⟩

/-- The step: one more offer is surveyed. -/
theorem surveyOffer_surveyed {s s' : Survey} {offer : Value} (hs : Surveyed offers s)
    (h : surveyOffer s (offer, fareOf offer) = some s') : Surveyed (offers ++ [offer]) s' := by
  simp only [surveyOffer, Option.bind_eq_bind, Option.bind_eq_some_iff, Option.pure_def, Option.some.injEq,
    Option.filter_eq_some_iff] at h
  obtain ⟨carrier, ⟨hcarrier, -⟩, groups, hgroups, stops, hstops, rfl⟩ := h
  have hgather := addGroups_gathers
  have hbind : ((offer.field "directions").asArray?.bind fun groups => groups.foldlM addGroup s.stops) = some stops := by
    rw [hgroups]
    exact hstops
  have hname : carrierOf offer = carrier := by rw [carrierOf, hcarrier]; rfl
  refine ⟨?_, hgather.ascending _ _ _ hbind hs.ascending, fun n => ?_⟩
  · have henter := hs.airlines.enter carrier (fareOf offer)
    rw [← hname] at henter ⊢
    rw [entries, List.map_append]
    exact henter
  · rw [hgather.mem _ _ _ hbind, hs.stops]
    simp only [List.mem_append, List.mem_singleton, or_and_right, exists_or, exists_eq_left]
    rfl

theorem surveyOffer_isSome (s : Survey) (offer : Value) (f : Fare) :
    (surveyOffer s (offer, f)).isSome ↔
      ((offer.field "platingCarrier").asStr?.filter fun c => c ≠ "").isSome ∧ HasStops (offer.field "directions") := by
  have hgather := addGroups_gathers.isSome s.stops (offer.field "directions")
  unfold surveyOffer
  simp only [Option.bind_eq_bind]
  cases hcarrier : (offer.field "platingCarrier").asStr?.filter fun c => c ≠ "" with
  | none => simp
  | some carrier =>
    rw [← hgather]
    cases hgroups : (offer.field "directions").asArray? with
    | none => simp
    | some groups =>
      simp only [Option.bind_some]
      cases groups.foldlM addGroup s.stops <;> simp

/-- The run: the offers are surveyed, if all can be read. -/
theorem survey_run {s : Survey} {before : List Value} (hs : Surveyed before s) (offers : List Value) :
    (((offers.map fun o => (o, fareOf o)).foldlM surveyOffer s).isSome ↔ ∀ o ∈ offers,
      ((o.field "platingCarrier").asStr?.filter fun c => c ≠ "").isSome ∧ HasStops (o.field "directions")) ∧
    ∀ s', (offers.map fun o => (o, fareOf o)).foldlM surveyOffer s = some s' → Surveyed (before ++ offers) s' := by
  induction offers generalizing s before with
  | nil =>
    refine ⟨by simp, fun s' h => ?_⟩
    cases h
    rw [List.append_nil]
    exact hs
  | cons o offers ih =>
    rw [List.map_cons, List.foldlM_cons, Option.bind_eq_bind, List.forall_mem_cons, ← surveyOffer_isSome s o (fareOf o)]
    cases hnext : surveyOffer s (o, fareOf o) with
    | none =>
      rw [Option.bind_none]
      exact ⟨iff_of_false (by simp) fun h => by simp at h, fun s' h => by cases h⟩
    | some next =>
      obtain ⟨hsome, hrun⟩ := ih (surveyOffer_surveyed hs hnext)
      rw [List.append_assoc] at hrun
      exact ⟨by rw [Option.bind_some, hsome]; simp, fun s' h => hrun s' h⟩

/-! ## The rows of the airlines -/

/-- What the row of an airline is rewritten to. -/
def rowKnown (fares : List Fare) : Known := priceKnown fares false ++ [("totalFlights", Wrote (· = fares.length))]

/-- The edits of the row of an airline. -/
def rowEdits (d : BigDecimal.Decimals) (fares : List Fare) : List (String × (Value → Option Value)) :=
  numbers d (priceFields fares false ++ [("totalFlights", .ofInt fares.length)])

theorem template_ok {sources : List Value} {carrier : String} {row : Value} (h : template sources carrier = some row) :
    row.field "airlineCode" = .str carrier ∧ row.isObject := by
  have hcode : row.field "airlineCode" = .str carrier := by
    have hfound := List.find?_some h
    simpa using hfound
  refine ⟨hcode, ?_⟩
  cases hget : row.get? "airlineCode" with
  | some x => exact Value.isObject_of_get? hget
  | none =>
    rw [Value.field, hget] at hcode
    cases hcode

/-- The row is its template, edited. -/
theorem airlineRow_eq (sources : List Value) (group : String × List Fare) :
    airlineRow d sources group = (template sources group.1).bind fun row => row.editFields (rowEdits d group.2) := by
  unfold airlineRow
  cases htemplate : template sources group.1 with
  | none => rfl
  | some row =>
    obtain ⟨-, hobject⟩ := template_ok htemplate
    have hnull : ¬ row.isNull = true := by
      intro hnull
      rw [isNull_iff.mp hnull] at hobject
      cases hobject
    have hprices : prices d group.2 false row = row.editFields (numbers d (priceFields group.2 false)) := by
      rw [prices, if_neg hnull, guard, if_pos hobject]
      rfl
    have hedits : rowEdits d group.2 = numbers d (priceFields group.2 false) ++
        [("totalFlights", numeric d (.ofInt group.2.length))] := List.map_append
    have hlast : ∀ v : Value, v.editFields [("totalFlights", numeric d (.ofInt group.2.length))] =
        v.editField "totalFlights" (numeric d (.ofInt group.2.length)) := by
      intro v
      show (v.editField _ _).bind some = _
      cases v.editField "totalFlights" (numeric d (.ofInt group.2.length)) <;> rfl
    rw [Option.bind_some, hedits, Value.editFields_append, funext hlast, ← hprices]
    rfl

theorem rowKnown_nodup (fares : List Fare) : ((rowKnown fares).map Prod.fst).Nodup := by
  show ["minNetPrice", "minNetPriceAit", "minPrice", "totalFlights"].Nodup
  decide

theorem rowEdits_allows (hd : Displays d) (hfits : ∀ f ∈ fares, f.Fits) :
    List.Forall₂ Value.Allows (rowEdits d fares) (rowKnown fares) := by
  have hlast : Value.Allows ("totalFlights", numeric d (.ofInt fares.length))
      ("totalFlights", Wrote (· = fares.length)) :=
    numeric_allows hd (fits_ofInt _) (by rw [BigDecimal.toRat_ofInt, Int.cast_natCast])
  rw [rowEdits, numbers, List.map_append]
  exact List.rel_append (priceFields_allows hd hfits) (.cons hlast .nil)

/-- The row of an airline is the first of the sources that has its code, with the prices of its fares and their
number. -/
structure AirlineRow (sources : List Value) (group : String × List Fare) (row : Value) : Prop where
  code : row.field "airlineCode" = .str group.1
  rewrites : ∃ t, template sources group.1 = some t ∧ Value.Rewrites (rowKnown group.2) t row

theorem airlineRow_ok (hd : Displays d) {sources : List Value} {group : String × List Fare} {row : Value}
    (hfits : ∀ f ∈ group.2, f.Fits) (h : airlineRow d sources group = some row) : AirlineRow sources group row := by
  rw [airlineRow_eq, Option.bind_eq_some_iff] at h
  obtain ⟨t, ht, hedit⟩ := h
  have hallows := rowEdits_allows hd hfits
  have hrewrites := Value.editFields_rewrites hallows (by rw [allows_keys hallows]; exact rowKnown_nodup _) hedit
  refine ⟨?_, t, ht, hrewrites⟩
  rw [Value.field, hrewrites.other "airlineCode" ?_]
  · exact (template_ok ht).1
  · show "airlineCode" ∉ ["minNetPrice", "minNetPriceAit", "minPrice", "totalFlights"]
    decide

/-! ## The envelope -/

/-- The rows of the airlines: one for each carrier, in order, and as many offers in all as there are. -/
structure AirlineRows (sources offers : List Value) (groups : List (String × List Fare)) (rows : List Value) :
    Prop where
  grouped : Grouped (entries offers) groups
  rows : List.Forall₂ (AirlineRow sources) groups rows
  count : (groups.map fun g => (g.2.length : Int)).sum = offers.length

/-- What the first item is rewritten to. -/
def itemKnown (sources offers : List Value) (supplierCount : Nat) : Known :=
  [("minMaxPrice", Value.Rewrites (priceKnown (offers.map fareOf) true)),
    ("totalFlights", Wrote (· = offers.length)), ("supplierCount", Wrote (· = supplierCount)),
    ("totalPages", Wrote (· = if offers = [] then 0 else 1)),
    ("stops", fun _ v => ∃ stops : List Nat, v = .arr (stops.map fun n => .ofInt n) ∧ stops.Pairwise (· < ·) ∧
      ∀ n, n ∈ stops ↔ ∃ offer ∈ offers, offerStops offer n),
    ("airlineFilters", fun _ v => ∃ groups rows, v = .arr rows ∧ AirlineRows sources offers groups rows)]

/-- What the envelope is rewritten to. -/
def envelopeKnown (sources offers : List Value) (supplierCount : Nat) : Known :=
  [("item1", Value.Rewrites (itemKnown sources offers supplierCount))]

/-- An array takes the place of one. -/
theorem replaceArray_allows {key : String} {values : Option (List Value)} {P : Value → Value → Prop}
    (hP : ∀ vs, values = some vs → ∀ x, P x (.arr vs)) : Value.Allows (key, replaceArray values) (key, P) := by
  refine ⟨rfl, fun x x' h => ?_⟩
  change replaceArray values x = some x' at h
  unfold replaceArray at h
  split at h
  · rename_i hnull
    rw [isNull_iff] at hnull
    cases h
    exact ⟨fun h => h, fun hne => absurd hnull hne⟩
  · rename_i hnull
    simp only [Option.bind_eq_bind, Option.bind_eq_some_iff, Option.pure_def, Option.some.injEq] at h
    obtain ⟨-, -, vs, hvs, rfl⟩ := h
    exact ⟨fun h => absurd (isNull_iff.mpr h) hnull, fun _ => hP vs hvs x⟩

variable {envelope out : Value} {sources : List Value} {supplierCount : Nat}

/-- The aggregation, with what it surveys of the offers. -/
theorem aggregate_iff : aggregate d envelope sources offers supplierCount = some out ↔
    ∃ item s item', envelope.get? "item1" = some item ∧ item.isObject ∧ (∀ o ∈ offers, Readable o) ∧
      (offers.map fun o => (o, fareOf o)).foldlM surveyOffer ⟨[], []⟩ = some s ∧
      item.editFields (itemEdits d sources offers supplierCount (offers.map fareOf) s) = some item' ∧
      out = envelope.replaceField "item1" item' := by
  have hzip : offers.zip (offers.map fareOf) = offers.map fun o => (o, fareOf o) := by
    have hmap : (offers.map id).zip (offers.map fareOf) = _ := List.zip_map'
    rw [List.map_id] at hmap
    exact hmap
  simp only [aggregate, Option.bind_eq_bind, Option.bind_eq_some_iff, Option.pure_def, Option.some.injEq,
    Option.filter_eq_some_iff, mapM_ofOffer]
  constructor
  · rintro ⟨item, ⟨hitem, hobject⟩, _, ⟨hfares, rfl⟩, s, hs, item', hedit, rfl⟩
    rw [hzip] at hs
    have hread := (survey_run surveyed_nil offers).1.mp (Option.isSome_iff_exists.mpr ⟨s, hs⟩)
    exact ⟨item, s, item', hitem, hobject, fun o ho => ⟨hfares o ho, (hread o ho).1, (hread o ho).2⟩, hs, hedit, rfl⟩
  · rintro ⟨item, s, item', hitem, hobject, hread, hs, hedit, rfl⟩
    rw [← hzip] at hs
    exact ⟨item, ⟨hitem, hobject⟩, _, ⟨fun o ho => (hread o ho).fare, rfl⟩, s, hs, item', hedit, rfl⟩

theorem surveyed_of_fold {s : Survey}
    (h : (offers.map fun o => (o, fareOf o)).foldlM surveyOffer ⟨[], []⟩ = some s) : Surveyed offers s := by
  exact (survey_run surveyed_nil offers).2 s h

theorem fareOf_fits {offer : Value} (h : Readable offer) : (fareOf offer).Fits := by
  obtain ⟨f, hf⟩ := Option.isSome_iff_exists.mp h.fare
  rw [fareOf, hf]
  exact ofOffer_fits hf

/-- The edits of the first item write what it is to have. -/
theorem itemEdits_allows (hd : Displays d) (hread : ∀ o ∈ offers, Readable o) {s : Survey} (hs : Surveyed offers s) :
    List.Forall₂ Value.Allows (itemEdits d sources offers supplierCount (offers.map fareOf) s)
      (itemKnown sources offers supplierCount) := by
  have hfits : ∀ f ∈ offers.map fareOf, f.Fits := by
    intro f hf
    obtain ⟨o, ho, rfl⟩ := List.mem_map.mp hf
    exact fareOf_fits (hread o ho)
  have hcount : ∀ (key : String) (n : Nat), Value.Allows (key, numeric d (.ofInt n)) (key, Wrote (· = n)) :=
    fun key n => numeric_allows hd (fits_ofInt _) (by rw [BigDecimal.toRat_ofInt, Int.cast_natCast])
  refine .cons (prices_allows hd hfits _) (.cons (hcount _ _) (.cons (hcount _ _) (.cons ?_
    (.cons (replaceArray_allows ?_) (.cons (replaceArray_allows ?_) .nil)))))
  · refine numeric_allows hd (fits_ofInt _) ?_
    rw [BigDecimal.toRat_ofInt]
    split <;> rfl
  · intro vs hvs _
    cases hvs
    exact ⟨s.stops, rfl, hs.ascending, hs.stops⟩
  · intro rows hrows _
    have hgroups : ∀ g ∈ s.airlines, ∀ f ∈ g.2, f.Fits := by
      intro g hg f hf
      rw [hs.airlines.members g hg] at hf
      obtain ⟨entry, hentry, rfl⟩ := List.mem_map.mp hf
      obtain ⟨o, ho, rfl⟩ := List.mem_map.mp (List.mem_of_mem_filter hentry)
      exact fareOf_fits (hread o ho)
    have hall := (List.forall₂_and_left _ _).mpr ⟨hgroups, mapM_eq_some hrows⟩
    have hcounts := hs.airlines.sum_length
    rw [entries, List.length_map] at hcounts
    exact ⟨s.airlines, rows, rfl, hs.airlines, hall.imp fun g row h => airlineRow_ok hd h.1 h.2, hcounts⟩

theorem itemEdits_keys (fares : List Fare) (s : Survey) :
    ((itemEdits d sources offers supplierCount fares s).map Prod.fst).Nodup := by
  show ["minMaxPrice", "totalFlights", "supplierCount", "totalPages", "stops", "airlineFilters"].Nodup
  decide

/-- The first item is rewritten. -/
theorem itemEdits_rewrites (hd : Displays d) (hread : ∀ o ∈ offers, Readable o) {s : Survey} (hs : Surveyed offers s)
    {item item' : Value}
    (h : item.editFields (itemEdits d sources offers supplierCount (offers.map fareOf) s) = some item') :
    Value.Rewrites (itemKnown sources offers supplierCount) item item' :=
  Value.editFields_rewrites (itemEdits_allows hd hread hs) (itemEdits_keys _ s) h

/-- And with it the envelope. -/
theorem replaced_rewrites {item item' : Value} (hitem : envelope.get? "item1" = some item) (hobject : item.isObject)
    (h : Value.Rewrites (itemKnown sources offers supplierCount) item item') :
    Value.Rewrites (envelopeKnown sources offers supplierCount) envelope (envelope.replaceField "item1" item') := by
  refine ⟨Value.keys?_replaceField _ _ _, ?_, ?_, ?_, ?_⟩
  · intro key hkey
    rw [envelopeKnown, List.map_singleton, List.mem_singleton] at hkey
    rw [Value.get?_replaceField, if_neg hkey]
  · intro key hnone
    rw [Value.get?_replaceField, hnone]
    split <;> rfl
  · intro key hnull
    rw [Value.get?_replaceField, if_neg, hnull]
    rintro rfl
    rw [hitem, Option.some.injEq] at hnull
    rw [hnull] at hobject
    cases hobject
  · intro k hk x hx _
    rw [envelopeKnown, List.mem_singleton] at hk
    subst hk
    obtain rfl : x = item := Option.some.inj (hx.symm.trans hitem)
    exact ⟨item', by rw [Value.get?_replaceField, if_pos rfl, hitem]; rfl, h⟩

/-! ## Another order of the offers -/

theorem numeric_isSome {a : BigDecimal} {x : Value} : (numeric d a x).isSome ↔ x.isNull ∨ (decimal x).isSome := by
  unfold numeric
  split
  · rename_i h
    simp [h]
  · rename_i h
    simp [h]

/-- Whether an edit succeeds does not depend on what it writes. -/
abbrev SameEdits : List (String × (Value → Option Value)) → List (String × (Value → Option Value)) → Prop :=
  List.Forall₂ fun e e' => e.1 = e'.1 ∧ ∀ x, (e.2 x).isSome ↔ (e'.2 x).isSome

theorem numbers_same {fields fields' : List (String × BigDecimal)} (h : fields.map Prod.fst = fields'.map Prod.fst) :
    SameEdits (numbers d fields) (numbers d fields') := by
  induction fields generalizing fields' with
  | nil =>
    cases fields' with
    | nil => exact .nil
    | cons _ _ => cases h
  | cons f fields ih =>
    cases fields' with
    | nil => cases h
    | cons f' fields' =>
      obtain ⟨hkey, hrest⟩ := List.cons.inj h
      exact .cons ⟨hkey, fun x => numeric_isSome.trans numeric_isSome.symm⟩ (ih hrest)

theorem priceFields_keys (fares : List Fare) (maximum : Bool) :
    (priceFields fares maximum).map Prod.fst = (priceKnown [] maximum).map Prod.fst := by
  cases maximum <;> rfl

theorem numbers_keys (fields : List (String × BigDecimal)) : (numbers d fields).map Prod.fst = fields.map Prod.fst := by
  rw [numbers, List.map_map]
  rfl

theorem prices_isSome (fares fares' : List Fare) (x : Value) :
    (prices d fares maximum x).isSome ↔ (prices d fares' maximum x).isSome := by
  have hedits : (x.editFields (numbers d (priceFields fares maximum))).isSome ↔
      (x.editFields (numbers d (priceFields fares' maximum))).isSome := by
    apply Value.editFields_isSome_congr
    · exact numbers_same (by rw [priceFields_keys, priceFields_keys])
    · rw [numbers_keys, priceFields_keys]
      exact priceKnown_nodup [] maximum
  unfold prices
  split
  · rfl
  · cases x.isObject
    · rfl
    · exact hedits

theorem airlineRow_isSome {group group' : String × List Fare} (h : group.1 = group'.1) :
    (airlineRow d sources group).isSome ↔ (airlineRow d sources group').isSome := by
  rw [airlineRow_eq, airlineRow_eq, ← h]
  cases template sources group.1 with
  | none => rfl
  | some row =>
    apply Value.editFields_isSome_congr
    · apply numbers_same
      rw [List.map_append, List.map_append, priceFields_keys, priceFields_keys]
      rfl
    · rw [rowEdits, numbers_keys, List.map_append, priceFields_keys]
      exact rowKnown_nodup []

theorem itemEdits_isSome {s s' : Survey} (hs : Surveyed offers s) (hs' : Surveyed offers' s') (hperm : offers.Perm offers')
    (item : Value) :
    (item.editFields (itemEdits d sources offers supplierCount (offers.map fareOf) s)).isSome ↔
      (item.editFields (itemEdits d sources offers' supplierCount (offers'.map fareOf) s')).isSome := by
  have harray : ∀ {vs vs' : Option (List Value)}, (vs.isSome ↔ vs'.isSome) → ∀ x,
      (replaceArray vs x).isSome ↔ (replaceArray vs' x).isSome := by
    intro vs vs' h x
    unfold replaceArray
    split
    · rfl
    · cases x.asArray? with
      | none => rfl
      | some _ => cases vs <;> cases vs' <;> simp_all
  have hrows : (s.airlines.mapM (airlineRow d sources)).isSome ↔ (s'.airlines.mapM (airlineRow d sources)).isSome := by
    have hgroups := hs.airlines.perm hs'.airlines (hperm.map fun o => (carrierOf o, fareOf o))
    rw [mapM_isSome, mapM_isSome]
    revert hgroups
    generalize s.airlines = groups
    generalize s'.airlines = groups'
    intro hgroups
    induction hgroups with
    | nil => exact ⟨fun _ _ h => absurd h List.not_mem_nil, fun _ _ h => absurd h List.not_mem_nil⟩
    | cons h _ ih =>
      rw [List.forall_mem_cons, List.forall_mem_cons]
      exact and_congr (airlineRow_isSome h.1) ih
  have hnumber : ∀ {a a' : BigDecimal} x, (numeric d a x).isSome ↔ (numeric d a' x).isSome :=
    fun x => numeric_isSome.trans numeric_isSome.symm
  apply Value.editFields_isSome_congr
  · exact .cons ⟨rfl, prices_isSome _ _⟩ (.cons ⟨rfl, hnumber⟩ (.cons ⟨rfl, hnumber⟩ (.cons ⟨rfl, hnumber⟩
      (.cons ⟨rfl, harray .rfl⟩ (.cons ⟨rfl, harray hrows⟩ .nil)))))
  · exact itemEdits_keys _ s

/-- What a number is read as. -/
def amount (v : Value) : Option ℚ := (decimal v).map BigDecimal.toRat

theorem Reads.amount {v : Value} {q : ℚ} (h : Reads v q) : amount v = some q := by
  obtain ⟨text, x, rfl, hx, rfl⟩ := h
  have hdecimal : decimal (.num text) = some x := hx
  rw [Summary.amount, hdecimal]
  rfl

/-- Two values have a field of the same amount, or neither has one. -/
def SameAmount (key : String) (v v' : Value) : Prop := (v.get? key).map amount = (v'.get? key).map amount

/-- Two rows are of the same airline, with the same number of offers and the same least prices. -/
structure SameAirline (row row' : Value) : Prop where
  code : row.field "airlineCode" = row'.field "airlineCode"
  amounts : ∀ key ∈ ["totalFlights", "minNetPrice", "minPrice"], SameAmount key row row'

/-- Two first items have the same totals. -/
structure SameTotals (item item' : Value) : Prop where
  counts : ∀ key ∈ ["totalFlights", "supplierCount", "totalPages"], SameAmount key item item'
  prices : ∀ key ∈ ["minNetPrice", "minPrice", "maxNetPrice", "maxPrice"],
    SameAmount key (item.field "minMaxPrice") (item'.field "minMaxPrice")
  stops : item.get? "stops" = item'.get? "stops"
  airlines : item.get? "airlineFilters" = item'.get? "airlineFilters" ∨ ∃ rows rows',
    item.get? "airlineFilters" = some (.arr rows) ∧ item'.get? "airlineFilters" = some (.arr rows') ∧
      List.Forall₂ SameAirline rows rows'

/-- Two numbers that are written by the same law are the same amount. -/
theorem wrote_agree {known known' : Known} {v v' v'' : Value} (h : Value.Rewrites known v v')
    (h' : Value.Rewrites known' v v'') {key : String} {P P' : ℚ → Prop} (hk : (key, Wrote P) ∈ known)
    (hk' : (key, Wrote P') ∈ known') (hunique : ∀ q q', P q → P' q' → q = q') : SameAmount key v' v'' := by
  refine h.agree h' hk hk' fun x x' x'' hx' hx'' => ?_
  obtain ⟨q, hq, hp⟩ := hx'
  obtain ⟨q', hq', hp'⟩ := hx''
  rw [hq.amount, hq'.amount, hunique q q' hp hp']

/-- The extrema that are written do not depend on the order of the offers. -/
theorem prices_agree {fares fares' : List Fare} (hperm : fares.Perm fares') {known known' : Known} {v v' v'' : Value}
    (hk : priceKnown fares maximum ⊆ known) (hk' : priceKnown fares' maximum ⊆ known') (h : Value.Rewrites known v v')
    (h' : Value.Rewrites known' v v'') :
    SameAmount "minNetPrice" v' v'' ∧ SameAmount "minPrice" v' v'' ∧
      (maximum = true → SameAmount "maxNetPrice" v' v'' ∧ SameAmount "maxPrice" v' v'') := by
  have hnets := hperm.map fun f : Fare => f.net.toRat
  have hgrosses := hperm.map fun f : Fare => f.gross.toRat
  have hleast : ∀ a b : ℚ, a ≤ b → b ≤ a → a = b := fun _ _ => le_antisymm
  have hgreatest : ∀ a b : ℚ, a ≥ b → b ≥ a → a = b := fun _ _ hab hba => le_antisymm hba hab
  refine ⟨?_, ?_, ?_⟩
  · exact wrote_agree h h' (hk (.head _)) (hk' (.head _)) fun _ _ => Extreme.unique hleast hnets
  · exact wrote_agree h h' (hk (.tail _ (.tail _ (.head _)))) (hk' (.tail _ (.tail _ (.head _))))
      fun _ _ => Extreme.unique hleast hgrosses
  · rintro rfl
    constructor
    · exact wrote_agree h h' (hk (.tail _ (.tail _ (.tail _ (.head _)))))
        (hk' (.tail _ (.tail _ (.tail _ (.head _))))) fun _ _ => Extreme.unique hgreatest hnets
    · exact wrote_agree h h' (hk (.tail _ (.tail _ (.tail _ (.tail _ (.tail _ (.head _)))))))
        (hk' (.tail _ (.tail _ (.tail _ (.tail _ (.tail _ (.head _)))))))
        fun _ _ => Extreme.unique hgreatest hgrosses

/-- Nor does what is written to the row of an airline. -/
theorem airline_agree {group group' : String × List Fare} (hkey : group.1 = group'.1) (hperm : group.2.Perm group'.2)
    {row row' : Value} (h : AirlineRow sources group row) (h' : AirlineRow sources group' row') :
    SameAirline row row' := by
  obtain ⟨t, ht, hrow⟩ := h.rewrites
  obtain ⟨t', ht', hrow'⟩ := h'.rewrites
  obtain rfl : t = t' := by
    rw [hkey, ht'] at ht
    exact (Option.some.inj ht).symm
  have hcount : ∀ fares : List Fare, ("totalFlights", Wrote (· = fares.length)) ∈ rowKnown fares :=
    fun _ => List.mem_append_right _ List.mem_cons_self
  have htotal : SameAmount "totalFlights" row row' :=
    wrote_agree hrow hrow' (hcount _) (hcount _) fun q q' hq hq' => by rw [hq, hq', hperm.length_eq]
  obtain ⟨hnet, hgross, -⟩ := prices_agree hperm (List.subset_append_left _ _) (List.subset_append_left _ _) hrow hrow'
  refine ⟨?_, ?_⟩
  · rw [h.code, h'.code, hkey]
  · simp only [List.forall_mem_cons]
    exact ⟨htotal, hnet, hgross, fun _ h => absurd h List.not_mem_nil⟩

theorem rows_agree {groups groups' : List (String × List Fare)} {rows rows' : List Value}
    (hgroups : List.Forall₂ (fun g g' => g.1 = g'.1 ∧ g.2.Perm g'.2) groups groups')
    (h : List.Forall₂ (AirlineRow sources) groups rows) (h' : List.Forall₂ (AirlineRow sources) groups' rows') :
    List.Forall₂ SameAirline rows rows' := by
  induction hgroups generalizing rows rows' with
  | nil =>
    cases h
    cases h'
    exact .nil
  | cons hg _ ih =>
    obtain _ | ⟨hrow, hrows⟩ := h
    obtain _ | ⟨hrow', hrows'⟩ := h'
    exact .cons (airline_agree hg.1 hg.2 hrow hrow') (ih hrows hrows')

/-- The totals do not depend on the order of the offers. -/
theorem totals_agree (hperm : offers.Perm offers') {item item' item'' : Value}
    (h : Value.Rewrites (itemKnown sources offers supplierCount) item item')
    (h' : Value.Rewrites (itemKnown sources offers' supplierCount) item item'') : SameTotals item' item'' := by
  refine ⟨?_, ?_, ?_, ?_⟩
  · have htotal : SameAmount "totalFlights" item' item'' :=
      wrote_agree h h' (.tail _ (.head _)) (.tail _ (.head _)) fun q q' hq hq' => by rw [hq, hq', hperm.length_eq]
    have hsuppliers : SameAmount "supplierCount" item' item'' :=
      wrote_agree h h' (.tail _ (.tail _ (.head _))) (.tail _ (.tail _ (.head _))) fun q q' hq hq' => by rw [hq, hq']
    have hpages : SameAmount "totalPages" item' item'' := by
      refine wrote_agree h h' (.tail _ (.tail _ (.tail _ (.head _)))) (.tail _ (.tail _ (.tail _ (.head _))))
        fun q q' hq hq' => ?_
      have hempty : offers = [] ↔ offers' = [] := by
        rw [← List.length_eq_zero_iff, hperm.length_eq, List.length_eq_zero_iff]
      rw [hq, hq', if_congr hempty rfl rfl]
    simp only [List.forall_mem_cons]
    exact ⟨htotal, hsuppliers, hpages, fun _ h => absurd h List.not_mem_nil⟩
  · have hknown : ∀ offers : List Value, ("minMaxPrice", Value.Rewrites (priceKnown (offers.map fareOf) true)) ∈
        itemKnown sources offers supplierCount := fun _ => .head _
    simp only [List.forall_mem_cons, Value.field]
    cases hx : item.get? "minMaxPrice" with
    | none =>
      rw [h.missing _ hx, h'.missing _ hx]
      exact ⟨rfl, rfl, rfl, rfl, fun _ h => absurd h List.not_mem_nil⟩
    | some x =>
      by_cases hnull : x = .null
      · rw [hnull] at hx
        rw [h.null _ hx, h'.null _ hx]
        exact ⟨rfl, rfl, rfl, rfl, fun _ h => absurd h List.not_mem_nil⟩
      · obtain ⟨x', hx', hrewrites⟩ := h.known _ (hknown offers) x hx hnull
        obtain ⟨x'', hx'', hrewrites'⟩ := h'.known _ (hknown offers') x hx hnull
        dsimp only at hx' hx''
        obtain ⟨hminNet, hmin, hmax⟩ := prices_agree (hperm.map fareOf) (List.Subset.refl _) (List.Subset.refl _)
          hrewrites hrewrites'
        obtain ⟨hmaxNet, hmax⟩ := hmax rfl
        rw [hx', hx'']
        exact ⟨hminNet, hmin, hmaxNet, hmax, fun _ h => absurd h List.not_mem_nil⟩
  · have hstops := h.agree h' (f := id) (.tail _ (.tail _ (.tail _ (.tail _ (.head _)))))
      (.tail _ (.tail _ (.tail _ (.tail _ (.head _))))) ?_
    · rw [Option.map_id, id, id] at hstops
      exact hstops
    · rintro x x' x'' ⟨ns, rfl, hns, hmem⟩ ⟨ns', rfl, hns', hmem'⟩
      rw [ascending_ext hns hns' fun n => ?_]
      rw [hmem, hmem']
      simp only [hperm.mem_iff]
  · have hknown : ∀ offers : List Value, ("airlineFilters", fun _ v => ∃ groups rows, v = .arr rows ∧
        AirlineRows sources offers groups rows) ∈ itemKnown sources offers supplierCount :=
      fun _ => .tail _ (.tail _ (.tail _ (.tail _ (.tail _ (.head _)))))
    cases hx : item.get? "airlineFilters" with
    | none => exact .inl (by rw [h.missing _ hx, h'.missing _ hx])
    | some x =>
      by_cases hnull : x = .null
      · rw [hnull] at hx
        exact .inl (by rw [h.null _ hx, h'.null _ hx])
      · obtain ⟨_, hrow, groups, rows, rfl, hrows⟩ := h.known _ (hknown offers) x hx hnull
        obtain ⟨_, hrow', groups', rows', rfl, hrows'⟩ := h'.known _ (hknown offers') x hx hnull
        refine .inr ⟨rows, rows', hrow, hrow', ?_⟩
        have hgroups := hrows.grouped.perm hrows'.grouped (hperm.map fun o => (carrierOf o, fareOf o))
        exact rows_agree hgroups hrows.rows hrows'.rows

/-- The totals are those of the offers, whatever their order, and nothing else is changed. -/
theorem aggregate_exact (hd : Displays d) (h : aggregate d envelope sources offers supplierCount = some out) :
    (∀ o ∈ offers, Readable o) ∧ (∃ item, envelope.get? "item1" = some item ∧ item.isObject) ∧
      Value.Rewrites (envelopeKnown sources offers supplierCount) envelope out ∧
      ∀ offers', offers.Perm offers' → ∃ out', aggregate d envelope sources offers' supplierCount = some out' ∧
        SameTotals (out.field "item1") (out'.field "item1") := by
  obtain ⟨item, s, item', hitem, hobject, hread, hs, hedit, rfl⟩ := aggregate_iff.mp h
  have hsurveyed := surveyed_of_fold hs
  have hrewrites := itemEdits_rewrites hd hread hsurveyed hedit
  have hout : ∀ x, (envelope.replaceField "item1" x).get? "item1" = some x := by
    intro x
    rw [Value.get?_replaceField, if_pos rfl, hitem]
    rfl
  refine ⟨hread, ⟨item, hitem, hobject⟩, replaced_rewrites hitem hobject hrewrites, fun offers' hperm => ?_⟩
  have hread' : ∀ o ∈ offers', Readable o := fun o ho => hread o (hperm.mem_iff.mpr ho)
  have hsome := (survey_run surveyed_nil offers').1.mpr fun o ho => ⟨(hread' o ho).carrier, (hread' o ho).stops⟩
  obtain ⟨s', hs'⟩ := Option.isSome_iff_exists.mp hsome
  have hsurveyed' := surveyed_of_fold hs'
  have hedits := (itemEdits_isSome hsurveyed hsurveyed' hperm item).mp (Option.isSome_iff_exists.mpr ⟨item', hedit⟩)
  obtain ⟨item'', hedit'⟩ := Option.isSome_iff_exists.mp hedits
  refine ⟨_, aggregate_iff.mpr ⟨item, s', item'', hitem, hobject, hread', hs', hedit', rfl⟩, ?_⟩
  rw [Value.field, Value.field, hout, hout]
  exact totals_agree hperm hrewrites (itemEdits_rewrites hd hread' hsurveyed' hedit')

/-! ## A search of two offers -/

/-- An offer for two adults, with one stop on the way. -/
def sampleOffer (carrier net base : String) : Value :=
  .object [("platingCarrier", .str carrier), ("totalPrice", .num net),
    ("passengerCounts", .object [("adt", .ofInt 2), ("chd", .ofInt 0)]),
    ("passengerFares", .object [("adt", .object [("basePrice", .num base), ("taxes", .num "10.5"),
      ("ait", .num "0.30")])]),
    ("directions", .arr [.arr [.object [("stops", .ofInt 1)]], .arr [.object [("stops", .ofInt 0)]]])]

def sampleEnvelope : Value :=
  .object [("item1", .object [("minMaxPrice", .object [("minNetPrice", .ofInt 9), ("maxPrice", .ofInt 9),
      ("currency", .str "BDT")]),
    ("totalFlights", .ofInt 7), ("totalPages", .null), ("stops", .arr []),
    ("airlineFilters", .arr [.object [("airlineCode", .str "BG"), ("totalFlights", .ofInt 7)],
      .object [("airlineCode", .str "BS"), ("minPrice", .ofInt 7), ("logo", .null)]])])]

def sampleOffers : List Value :=
  [sampleOffer "BS" "250.10" "100", sampleOffer "BG" "1e2" "40", sampleOffer "BS" "90" "41"]

theorem aggregate_exact_sample : ∃ out,
    aggregate Pricing.sampleDecimals sampleEnvelope [sampleEnvelope] sampleOffers 1 = some out ∧
    (∀ o ∈ sampleOffers, Readable o) ∧ (∃ item, sampleEnvelope.get? "item1" = some item ∧ item.isObject) ∧
      Value.Rewrites (envelopeKnown [sampleEnvelope] sampleOffers 1) sampleEnvelope out ∧
      ∀ offers', sampleOffers.Perm offers' → ∃ out',
        aggregate Pricing.sampleDecimals sampleEnvelope [sampleEnvelope] offers' 1 = some out' ∧
          SameTotals (out.field "item1") (out'.field "item1") := by
  have hsome : (aggregate Pricing.sampleDecimals sampleEnvelope [sampleEnvelope] sampleOffers 1).isSome := by decide +kernel
  obtain ⟨out, hout⟩ := Option.isSome_iff_exists.mp hsome
  have hdisplays : Displays Pricing.sampleDecimals := by
    intro a ha
    obtain ⟨x, hx, hvalue, -⟩ := BigDecimal.parse_written ha.2
    exact ⟨x, hx, hvalue⟩
  exact ⟨out, hout, aggregate_exact hdisplays hout⟩

end ShaponTravels.Search.Summary
