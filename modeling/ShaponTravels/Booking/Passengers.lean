import Mathlib.Data.List.Enum
import Mathlib.Data.List.TakeWhile
import Mathlib.Data.Option.Basic
import ShaponTravels.Booking.Site

/-!
# Passengers — who a ticket or a report row belongs to

`ticketing::identity` and `passenger_matches`.  A supplier's row names a passenger by name and type
only, so two passengers of a party are told apart by these alone.
-/

namespace ShaponTravels.Booking

/-- The case mappings of the standard library. -/
structure Casing where
  /-- `char::to_uppercase` -/
  upper : Char → List Char
  upper_ne_nil : ∀ c, upper c ≠ []
  /-- `str::to_lowercase` -/
  lower : String → String

theorem toUpper_ne_nil (c : Char) : [c.toUpper] ≠ [] := List.cons_ne_nil _ _

/-- `str::to_uppercase`. -/
def Casing.uppercase (cs : Casing) (s : String) : String := String.ofList (s.toList.flatMap cs.upper)

/-- The words of a text, joined by single spaces. -/
def singleSpaced (s : String) : String :=
  String.ofList ([' '].intercalate ((s.toList.splitOnP isWhitespace).filter (· ≠ [])))

example : singleSpaced "  van\t der  Berg " = "van der Berg" ∧ singleSpaced " \n" = "" := by decide

/-- The four texts of `identity`. -/
structure Identity where
  first : String
  last : String
  middle : String
  kind : String
  deriving DecidableEq

/-- `identity`: a passenger without a last name has none. -/
def identity (cs : Casing) (v : Value) : Option Identity := do
  let name := v.field "nameElement"
  let first ← (name.field "firstName").asStr?
  let last ← (name.field "lastName").asStr?
  let middle := (name.field "middleName").asStr?.getD ""
  let kind ← (v.field "passengerType").asStr?
  guard (cs.uppercase (singleSpaced last) ≠ "")
  return { first := cs.uppercase (singleSpaced first)
           last := cs.uppercase (singleSpaced last)
           middle := cs.uppercase (trim middle)
           kind := cs.uppercase kind }

/-- `passenger_matches`.  Triplover labels a ticket of a booked `CNN` passenger `CHD`. -/
def passengerMatches (cs : Casing) (expected actual : Value) (supplier : String)
    (countsVerified : Bool) : Bool :=
  match identity cs expected, identity cs actual with
  | some expected, some actual =>
    let relabelled := supplier = "triplover" ∧ countsVerified ∧ expected.kind = "CNN" ∧
      actual.kind = "CHD"
    (if relabelled then { expected with kind := "CHD" } else expected) = actual
  | _, _ => false

/-- The booked passengers a row may belong to, with their positions. -/
def candidates (cs : Casing) (booked : List Value) (row : Value) (supplier : String)
    (countsVerified : Bool) : List (Value × Nat) :=
  booked.zipIdx.filter fun c => passengerMatches cs c.1 row supplier countsVerified

/-! ## Texts -/

theorem mem_of_splitOnP {p : Char → Bool} {s : List Char} (h : ∀ w ∈ s.splitOnP p, w = []) :
    ∀ c ∈ s, p c = true := by
  induction s with
  | nil => intro c hc; cases hc
  | cons x s ih =>
    rw [List.splitOnP_cons_eq_if_modifyHead] at h
    intro c hc
    cases hx : p x with
    | true =>
      rw [if_pos hx] at h
      rcases List.mem_cons.mp hc with rfl | hc
      · exact hx
      · exact ih (fun w hw => h w (List.mem_cons_of_mem _ hw)) c hc
    | false =>
      rw [if_neg (by simp [hx])] at h
      cases hsplit : s.splitOnP p with
      | nil => exact absurd hsplit (List.splitOnP_ne_nil p s)
      | cons w ws =>
        rw [hsplit, List.modifyHead_cons] at h
        exact absurd (h _ List.mem_cons_self) (List.cons_ne_nil _ _)

/-- A text with a character that is no whitespace has a word. -/
theorem singleSpaced_ne_empty {s : String} (h : ¬ ∀ c ∈ s.toList, isWhitespace c = true) :
    singleSpaced s ≠ "" := by
  intro heq
  apply h
  apply mem_of_splitOnP
  intro w hw
  by_contra hne
  have hmem : w ∈ (s.toList.splitOnP isWhitespace).filter (· ≠ []) :=
    List.mem_filter.mpr ⟨hw, by simpa using hne⟩
  have hchars : [' '].intercalate ((s.toList.splitOnP isWhitespace).filter (· ≠ [])) = [] := by
    have hlist := congrArg String.toList heq
    rwa [singleSpaced, String.toList_ofList] at hlist
  cases hwords : (s.toList.splitOnP isWhitespace).filter (· ≠ []) with
  | nil =>
    rw [hwords] at hmem
    cases hmem
  | cons x xs =>
    have hx : x ∈ (s.toList.splitOnP isWhitespace).filter (· ≠ []) := by
      rw [hwords]
      exact List.mem_cons_self
    have hxne : x ≠ [] := by simpa using (List.mem_filter.mp hx).2
    rw [hwords] at hchars
    cases xs with
    | nil =>
      rw [List.intercalate_singleton] at hchars
      exact hxne hchars
    | cons y ys =>
      rw [List.intercalate_cons_cons, List.append_assoc] at hchars
      exact hxne (List.append_eq_nil_iff.mp hchars).1

theorem trim_eq_empty {s : String} (h : ∀ c ∈ s.toList, isWhitespace c = true) : trim s = "" := by
  have hdrop : s.toList.dropWhile isWhitespace = [] := List.dropWhile_eq_nil_iff.mpr h
  rw [trim, hdrop]
  rfl

theorem Casing.uppercase_ne_empty (cs : Casing) {s : String} (h : s ≠ "") :
    cs.uppercase s ≠ "" := by
  intro heq
  have hlist := congrArg String.toList heq
  rw [Casing.uppercase, String.toList_ofList] at hlist
  cases hs : s.toList with
  | nil => exact h (String.toList_eq_nil_iff.mp hs)
  | cons c rest =>
    rw [hs, List.flatMap_cons] at hlist
    exact cs.upper_ne_nil c (List.append_eq_nil_iff.mp hlist).1

/-! ## Matching -/

variable {cs : Casing} {supplier : String} {counts : Bool}

theorem mem_candidates {booked : List Value} {row p : Value} {i : Nat} :
    (p, i) ∈ candidates cs booked row supplier counts ↔
      booked[i]? = some p ∧ passengerMatches cs p row supplier counts = true := by
  rw [candidates, List.mem_filter, List.mem_zipIdx_iff_getElem?]

/-- A passenger with an identity matches a row that repeats it. -/
theorem passengerMatches_self {p row : Value} {id : Identity} (hp : identity cs p = some id)
    (hrow : identity cs row = some id) : passengerMatches cs p row supplier counts = true := by
  simp only [passengerMatches, hp, hrow]
  split
  · rename_i hrelabelled
    have hkinds := hrelabelled.2.2.1.symm.trans hrelabelled.2.2.2
    exact absurd hkinds (by decide)
  · exact decide_eq_true rfl

/-- Only the texts of the four fields count. -/
theorem identity_congr {v v' : Value}
    (hname : ∀ key ∈ ["firstName", "lastName", "middleName"],
      ((v.field "nameElement").field key).asStr? = ((v'.field "nameElement").field key).asStr?)
    (hkind : (v.field "passengerType").asStr? = (v'.field "passengerType").asStr?) :
    identity cs v = identity cs v' := by
  simp only [List.forall_mem_cons] at hname
  simp only [identity, hname.1, hname.2.1, hname.2.2.1, hkind]

/-- Matching looks at a row's identity only. -/
theorem passengerMatches_congr {p row row' : Value} (h : identity cs row = identity cs row') :
    passengerMatches cs p row supplier counts = passengerMatches cs p row' supplier counts := by
  simp only [passengerMatches, h]

theorem candidates_congr {booked : List Value} {row row' : Value}
    (h : identity cs row = identity cs row') :
    candidates cs booked row supplier counts = candidates cs booked row' supplier counts := by
  simp only [candidates, passengerMatches_congr h]

/-- A single candidate is the one position that matches. -/
theorem candidates_single {booked : List Value} {row p : Value} {i : Nat} :
    candidates cs booked row supplier counts = [(p, i)] ↔
      booked[i]? = some p ∧ passengerMatches cs p row supplier counts = true ∧
      ∀ j p', booked[j]? = some p' → passengerMatches cs p' row supplier counts = true → j = i := by
  constructor
  · intro h
    have hmem : (p, i) ∈ candidates cs booked row supplier counts := by
      rw [h]
      exact List.mem_singleton_self _
    rw [mem_candidates] at hmem
    refine ⟨hmem.1, hmem.2, ?_⟩
    intro j p' hj hmatch
    have hmem' : (p', j) ∈ candidates cs booked row supplier counts :=
      mem_candidates.mpr ⟨hj, hmatch⟩
    rw [h, List.mem_singleton, Prod.mk.injEq] at hmem'
    exact hmem'.2
  · rintro ⟨hi, hmatch, hunique⟩
    have hnodup : (candidates cs booked row supplier counts).Nodup := by
      refine List.Nodup.filter _ (List.Nodup.of_map Prod.snd ?_)
      rw [List.zipIdx_map_snd]
      exact List.nodup_range'
    have hmem : (p, i) ∈ candidates cs booked row supplier counts := mem_candidates.mpr ⟨hi, hmatch⟩
    rw [← List.perm_singleton, List.perm_ext_iff_of_nodup hnodup (List.nodup_singleton _)]
    rintro ⟨p', j⟩
    rw [List.mem_singleton, mem_candidates]
    constructor
    · rintro ⟨hj, hmatch'⟩
      obtain rfl := hunique j p' hj hmatch'
      rw [hi, Option.some.injEq] at hj
      rw [hj]
    · intro heq
      cases heq
      exact ⟨hi, hmatch⟩

end ShaponTravels.Booking
