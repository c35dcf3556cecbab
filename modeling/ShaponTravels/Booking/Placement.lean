import Mathlib.Data.List.Perm.Subperm
import ShaponTravels.Booking.Responses

/-!
# Placement — tickets put into booking order

The loop of `issued_response`.  What it accepts puts every ticket at the position of the only passenger
it names; what names each passenger once, in any order, it accepts.
-/

namespace ShaponTravels.Booking

open Library

variable {cs : Casing} {booked : List Value} {supplier : String} {counts : Bool}
  {s s' : Placed} {ticket : Value}

/-! ## Ticket numbers -/

theorem takeNumber_eq_some {taken taken' : List String} {v : Value} :
    takeNumber taken v = some taken' ↔
      ∃ n, v = .str n ∧ isTicketNumber n = true ∧ n ∉ taken ∧ taken' = n :: taken := by
  simp only [takeNumber, bind_eq_some, Value.asStr?_eq_some, guard_eq_some, exists_const]
  constructor
  · rintro ⟨n, rfl, ⟨hn, hfresh⟩, heq⟩
    exact ⟨n, rfl, hn, hfresh, (Option.some.inj heq).symm⟩
  · rintro ⟨n, rfl, hn, hfresh, rfl⟩
    exact ⟨n, rfl, ⟨hn, hfresh⟩, rfl⟩

/-- New numbers are taken when each is a ticket number and none was taken before. -/
theorem takeNumbers_eq_some {taken taken' : List String} {nums : List Value} :
    nums.foldlM takeNumber taken = some taken' ↔ ∃ texts : List String, nums = texts.map .str ∧
      (∀ n ∈ texts, isTicketNumber n = true) ∧ texts.Nodup ∧ (∀ n ∈ texts, n ∉ taken) ∧
      taken' = texts.reverse ++ taken := by
  induction nums generalizing taken with
  | nil =>
    rw [List.foldlM_nil]
    constructor
    · intro h
      cases h
      exact ⟨[], rfl, by simp, List.nodup_nil, by simp, rfl⟩
    · rintro ⟨texts, hnil, -, -, -, rfl⟩
      rw [List.map_eq_nil_iff.mp hnil.symm]
      rfl
  | cons v nums ih =>
    simp only [List.foldlM_cons, bind_eq_some, takeNumber_eq_some, ih]
    constructor
    · rintro ⟨_, ⟨n, rfl, hn, hfresh, rfl⟩, texts, rfl, hvalid, hnodup, hnew, rfl⟩
      refine ⟨n :: texts, rfl, List.forall_mem_cons.mpr ⟨hn, hvalid⟩, ?_, ?_, ?_⟩
      · rw [List.nodup_cons]
        exact ⟨fun hmem => hnew n hmem List.mem_cons_self, hnodup⟩
      · rw [List.forall_mem_cons]
        exact ⟨hfresh, fun m hm hmem => hnew m hm (List.mem_cons_of_mem _ hmem)⟩
      · simp
    · rintro ⟨texts, hnums, hvalid, hnodup, hnew, rfl⟩
      cases texts with
      | nil => cases hnums
      | cons n texts =>
        rw [List.map_cons, List.cons.injEq] at hnums
        obtain ⟨rfl, rfl⟩ := hnums
        rw [List.forall_mem_cons] at hvalid hnew
        rw [List.nodup_cons] at hnodup
        refine ⟨_, ⟨n, rfl, hvalid.1, hnew.1, rfl⟩, texts, rfl, hvalid.2, hnodup.2, ?_, by simp⟩
        intro m hm hmem
        rcases List.mem_cons.mp hmem with rfl | hmem
        · exact hnodup.1 hm
        · exact hnew.2 m hm hmem

/-! ## One ticket -/

theorem placeTicket_eq_some :
    placeTicket cs booked supplier counts s ticket = some s' ↔ ∃ p i nums,
      candidates cs booked (ticket.field "passengerInfo") supplier counts = [(p, i)] ∧
      i ∉ s.seen ∧ ticket.field "ticketNumbers" = .arr nums ∧ nums ≠ [] ∧
      nums.foldlM takeNumber s.numbers = some s'.numbers ∧ s'.seen = i :: s.seen ∧
      s'.tickets = s.tickets.set i (publicTicket ticket nums) := by
  unfold placeTicket
  constructor
  · intro h
    split at h
    · rename_i p i hone
      simp only [bind_eq_some, guard_eq_some, exists_const, Value.asArray?_eq_some] at h
      obtain ⟨hfresh, nums, hnums, hne, numbers, hnumbers, heq⟩ := h
      obtain rfl := Option.some.inj heq
      exact ⟨p, i, nums, hone, hfresh, hnums, hne, hnumbers, rfl, rfl⟩
    · cases h
  · rintro ⟨p, i, nums, hone, hfresh, hnums, hne, hnumbers, hseen, htickets⟩
    rw [hone]
    simp only [bind_eq_some, guard_eq_some, exists_const, Value.asArray?_eq_some]
    refine ⟨hfresh, nums, hnums, hne, s'.numbers, hnumbers, ?_⟩
    cases s' with
    | mk seen numbers tickets =>
      cases hseen
      cases htickets
      rfl

/-! ## All tickets -/

/-- What the loop has placed: at every position it has seen, the ticket of that passenger alone. -/
structure Placed.Sound (cs : Casing) (booked : List Value) (supplier : String) (counts : Bool)
    (s : Placed) : Prop where
  length : s.tickets.length = booked.length
  nodup : s.seen.Nodup
  own : ∀ i ∈ s.seen, ∃ ticket p nums,
    candidates cs booked (ticket.field "passengerInfo") supplier counts = [(p, i)] ∧
    ticket.field "ticketNumbers" = .arr nums ∧ s.tickets[i]? = some (publicTicket ticket nums)

theorem placeTicket_sound (hs : s.Sound cs booked supplier counts)
    (h : placeTicket cs booked supplier counts s ticket = some s') :
    s'.Sound cs booked supplier counts := by
  obtain ⟨p, i, nums, hone, hfresh, hnums, -, -, hseen, htickets⟩ := placeTicket_eq_some.mp h
  have hi : i < booked.length := (List.getElem?_eq_some_iff.mp (candidates_single.mp hone).1).1
  constructor
  case length => rw [htickets, List.length_set, hs.length]
  case nodup =>
    rw [hseen, List.nodup_cons]
    exact ⟨hfresh, hs.nodup⟩
  case own =>
    intro j hj
    rw [hseen, List.mem_cons] at hj
    rw [htickets]
    rcases hj with rfl | hj
    · refine ⟨ticket, p, nums, hone, hnums, ?_⟩
      rw [List.getElem?_set_self (hs.length ▸ hi)]
    · have hne : i ≠ j := fun heq => hfresh (heq ▸ hj)
      rw [List.getElem?_set_ne hne]
      exact hs.own j hj

theorem placeTickets_sound {tickets : List Value} (hs : s.Sound cs booked supplier counts)
    (h : tickets.foldlM (placeTicket cs booked supplier counts) s = some s') :
    s'.Sound cs booked supplier counts ∧ s'.seen.length = s.seen.length + tickets.length := by
  induction tickets generalizing s with
  | nil =>
    rw [List.foldlM_nil] at h
    cases h
    exact ⟨hs, rfl⟩
  | cons ticket tickets ih =>
    simp only [List.foldlM_cons, bind_eq_some] at h
    obtain ⟨middle, hfirst, hrest⟩ := h
    obtain ⟨hsound, hlength⟩ := ih (placeTicket_sound hs hfirst) hrest
    obtain ⟨_, _, _, -, -, -, -, -, hseen, -⟩ := placeTicket_eq_some.mp hfirst
    refine ⟨hsound, ?_⟩
    rw [hlength, hseen, List.length_cons, List.length_cons]
    omega

/-- Every ticket that is placed has one candidate. -/
theorem placeTickets_candidates {tickets : List Value}
    (h : tickets.foldlM (placeTicket cs booked supplier counts) s = some s') :
    ∀ ticket ∈ tickets, ∃ c,
      candidates cs booked (ticket.field "passengerInfo") supplier counts = [c] := by
  induction tickets generalizing s with
  | nil => intro ticket hticket; cases hticket
  | cons ticket tickets ih =>
    simp only [List.foldlM_cons, bind_eq_some] at h
    obtain ⟨middle, hfirst, hrest⟩ := h
    obtain ⟨p, i, _, hone, -⟩ := placeTicket_eq_some.mp hfirst
    exact List.forall_mem_cons.mpr ⟨⟨(p, i), hone⟩, ih hrest⟩

theorem Placed.Sound.start (cs : Casing) (booked : List Value) (supplier : String) (counts : Bool) :
    (⟨[], [], List.replicate booked.length .null⟩ : Placed).Sound cs booked supplier counts where
  length := List.length_replicate
  nodup := List.nodup_nil
  own _ hi := by cases hi

/-- With as many tickets as passengers every position is seen. -/
theorem Placed.Sound.all_seen (hs : s.Sound cs booked supplier counts)
    (hlength : s.seen.length = booked.length) {i : Nat} (hi : i < booked.length) : i ∈ s.seen := by
  have hsubset : s.seen ⊆ List.range booked.length := by
    intro j hj
    obtain ⟨ticket, p, nums, hone, -, -⟩ := hs.own j hj
    exact List.mem_range.mpr (List.getElem?_eq_some_iff.mp (candidates_single.mp hone).1).1
  have hperm : s.seen.Perm (List.range booked.length) :=
    (List.subperm_of_subset hs.nodup hsubset).perm_of_length_le (by simp [hlength])
  exact hperm.mem_iff.mpr (List.mem_range.mpr hi)

/-! ## Tickets of the booked passengers -/

/-- A ticket of the booked passenger at a position, with its numbers. -/
structure TicketOf (booked : List Value) (place : Nat × List String) (ticket : Value) : Prop where
  passenger : ∃ p, booked[place.1]? = some p ∧
    (ticket.field "passengerInfo").field "nameElement" = p.field "nameElement" ∧
    (ticket.field "passengerInfo").field "passengerType" = p.field "passengerType"
  numbers : ticket.field "ticketNumbers" = .arr (place.2.map .str)
  nonempty : place.2 ≠ []
  valid : ∀ n ∈ place.2, isTicketNumber n = true

/-- No booked passenger is taken for another. -/
def Distinguishable (cs : Casing) (booked : List Value) (supplier : String) (counts : Bool) : Prop :=
  ∀ (i j : Nat) (p p' : Value), booked[i]? = some p → booked[j]? = some p' →
    passengerMatches cs p p' supplier counts = true → i = j

theorem TicketOf.matches_iff {place : Nat × List String} (h : TicketOf booked place ticket)
    {p' : Value} (hp' : booked[place.1]? = some p') (p : Value) :
    passengerMatches cs p (ticket.field "passengerInfo") supplier counts =
      passengerMatches cs p p' supplier counts := by
  obtain ⟨q, hq, hname, hkind⟩ := h.passenger
  rw [hq] at hp'
  cases hp'
  exact passengerMatches_congr (identity_congr (fun key _ => by rw [hname]) (by rw [hkind]))

/-- A ticket of a booked passenger is a candidate for that passenger. -/
theorem TicketOf.self {place : Nat × List String} (h : TicketOf booked place ticket)
    (hid : ∀ p ∈ booked, (identity cs p).isSome) :
    ∃ p, booked[place.1]? = some p ∧
      passengerMatches cs p (ticket.field "passengerInfo") supplier counts = true := by
  obtain ⟨p, hp, -⟩ := h.passenger
  obtain ⟨id, hidentity⟩ := Option.isSome_iff_exists.mp (hid p (List.mem_of_getElem? hp))
  refine ⟨p, hp, ?_⟩
  rw [h.matches_iff hp]
  exact passengerMatches_self hidentity hidentity

theorem TicketOf.candidates (hd : Distinguishable cs booked supplier counts)
    (hid : ∀ p ∈ booked, (identity cs p).isSome) {place : Nat × List String}
    (h : TicketOf booked place ticket) :
    ∃ p, candidates cs booked (ticket.field "passengerInfo") supplier counts = [(p, place.1)] := by
  obtain ⟨p, hp, hmatch⟩ : ∃ p, booked[place.1]? = some p ∧
      passengerMatches cs p (ticket.field "passengerInfo") supplier counts = true := h.self hid
  refine ⟨p, candidates_single.mpr ⟨hp, hmatch, ?_⟩⟩
  intro j p' hj hmatch'
  rw [h.matches_iff hp] at hmatch'
  exact hd j place.1 p' p hj hp hmatch'

/-- Tickets of distinguishable passengers are placed, in any order. -/
theorem placeTickets_some (hd : Distinguishable cs booked supplier counts)
    (hid : ∀ p ∈ booked, (identity cs p).isSome) {places : List (Nat × List String)}
    {tickets : List Value} (ht : List.Forall₂ (TicketOf booked) places tickets)
    (hplaces : (places.map Prod.fst).Nodup) (hnumbers : (places.flatMap Prod.snd).Nodup)
    (hseen : ∀ x ∈ places, x.1 ∉ s.seen)
    (hnew : ∀ n ∈ places.flatMap Prod.snd, n ∉ s.numbers) :
    ∃ s', tickets.foldlM (placeTicket cs booked supplier counts) s = some s' := by
  induction ht generalizing s with
  | nil => exact ⟨s, rfl⟩
  | @cons place ticket places tickets hticket _ ih =>
    rw [List.map_cons, List.nodup_cons] at hplaces
    rw [List.flatMap_cons, List.nodup_append] at hnumbers
    rw [List.forall_mem_cons] at hseen
    rw [List.flatMap_cons, List.forall_mem_append] at hnew
    obtain ⟨p, hone⟩ := hticket.candidates hd hid
    let placed : Placed := ⟨place.1 :: s.seen, place.2.reverse ++ s.numbers,
      s.tickets.set place.1 (publicTicket ticket (place.2.map .str))⟩
    have htake : (place.2.map Value.str).foldlM takeNumber s.numbers =
        some (place.2.reverse ++ s.numbers) :=
      takeNumbers_eq_some.mpr ⟨place.2, rfl, hticket.valid, hnumbers.1, hnew.1, rfl⟩
    have hfirst : placeTicket cs booked supplier counts s ticket = some placed :=
      placeTicket_eq_some.mpr ⟨p, place.1, place.2.map .str, hone, hseen.1, hticket.numbers,
        by simpa using hticket.nonempty, htake, rfl, rfl⟩
    have hseen' : ∀ x ∈ places, x.1 ∉ placed.seen := by
      intro x hx hmem
      rcases List.mem_cons.mp hmem with heq | hmem
      · exact hplaces.1 (heq ▸ List.mem_map_of_mem hx)
      · exact hseen.2 x hx hmem
    have hnew' : ∀ n ∈ places.flatMap Prod.snd, n ∉ placed.numbers := by
      intro n hn hmem
      rcases List.mem_append.mp hmem with hmem | hmem
      · exact hnumbers.2.2 n (List.mem_reverse.mp hmem) n hn rfl
      · exact hnew.2 n hn hmem
    obtain ⟨last, hlast⟩ := ih hplaces.2 hnumbers.2.1 hseen' hnew'
    rw [List.foldlM_cons, hfirst]
    exact ⟨last, hlast⟩

end ShaponTravels.Booking
