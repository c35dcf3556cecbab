import Mathlib.Data.Fintype.EquivFin
import ShaponTravels.Booking.References
import ShaponTravels.Booking.Tickets
import ShaponTravels.Library.Scatter

/-!
# Matching — the tickets of a response against the booked passengers

The loop of `issued_response` gives every ticket its own passenger.  What it computes is the list of the
tickets written at their passengers' positions, so their order does not count.
-/

namespace ShaponTravels.Booking

open Library

variable {cs : Casing} {booked : List Value} {supplier : String} {counts : Bool}
  {s s' : Placed} {ticket : Value}

/-! ## Placements -/

/-- A ticket with its numbers and the position it goes to. -/
structure Placement where
  position : Nat
  numbers : List String
  ticket : Value

namespace Placement

/-- What the client sees of it. -/
def shown (x : Placement) : Value := publicTicket x.ticket (x.numbers.map .str)

/-- The ticket matches the passenger at its position and no other, and has numbers. -/
structure Valid (cs : Casing) (booked : List Value) (supplier : String) (counts : Bool)
    (x : Placement) : Prop where
  one : ∃ p, candidates cs booked (x.ticket.field "passengerInfo") supplier counts =
    [(p, x.position)]
  numbers : x.ticket.field "ticketNumbers" = .arr (x.numbers.map .str)
  nonempty : x.numbers ≠ []
  digits : ∀ n ∈ x.numbers, isTicketNumber n = true

end Placement

/-- Placing a ticket. -/
def Placed.put (s : Placed) (x : Placement) : Placed :=
  ⟨x.position :: s.seen, x.numbers.reverse ++ s.numbers, s.tickets.set x.position x.shown⟩

theorem placeTicket_iff :
    placeTicket cs booked supplier counts s ticket = some s' ↔ ∃ x : Placement,
      x.ticket = ticket ∧ x.Valid cs booked supplier counts ∧ x.position ∉ s.seen ∧
      x.numbers.Nodup ∧ (∀ n ∈ x.numbers, n ∉ s.numbers) ∧ s' = s.put x := by
  rw [placeTicket_eq_some]
  constructor
  · rintro ⟨p, i, nums, hone, hseen, hnums, hne, htaken, hseen', htickets⟩
    obtain ⟨texts, rfl, hdigits, hnodup, hnew, hnumbers⟩ := takeNumbers_eq_some.mp htaken
    refine ⟨⟨i, texts, ticket⟩, rfl, ⟨⟨p, hone⟩, hnums, ?_, hdigits⟩, hseen, hnodup, hnew, ?_⟩
    · simpa using hne
    · cases s'
      cases hseen'
      cases hnumbers
      cases htickets
      rfl
  · rintro ⟨x, rfl, hvalid, hseen, hnodup, hnew, rfl⟩
    obtain ⟨p, hone⟩ := hvalid.one
    refine ⟨p, x.position, x.numbers.map .str, hone, hseen, hvalid.numbers, ?_, ?_, rfl, rfl⟩
    · simpa using hvalid.nonempty
    · exact takeNumbers_eq_some.mpr ⟨x.numbers, rfl, hvalid.digits, hnodup, hnew, rfl⟩

/-- The positions and the numbers of placements that can all be placed. -/
structure Fits (s : Placed) (xs : List Placement) : Prop where
  positions : (xs.map Placement.position).Nodup
  unseen : ∀ x ∈ xs, x.position ∉ s.seen
  numbers : (xs.flatMap Placement.numbers).Nodup
  untaken : ∀ n ∈ xs.flatMap Placement.numbers, n ∉ s.numbers

theorem fits_cons {x : Placement} {xs : List Placement} :
    Fits s (x :: xs) ↔ (x.position ∉ s.seen ∧ x.numbers.Nodup ∧ ∀ n ∈ x.numbers, n ∉ s.numbers) ∧
      Fits (s.put x) xs := by
  constructor
  · rintro ⟨hpositions, hunseen, hnumbers, huntaken⟩
    rw [List.map_cons, List.nodup_cons] at hpositions
    rw [List.forall_mem_cons] at hunseen
    rw [List.flatMap_cons, List.nodup_append] at hnumbers
    rw [List.flatMap_cons, List.forall_mem_append] at huntaken
    refine ⟨⟨hunseen.1, hnumbers.1, huntaken.1⟩, hpositions.2, ?_, hnumbers.2.1, ?_⟩
    · intro y hy hmem
      rcases List.mem_cons.mp hmem with heq | hmem
      · exact hpositions.1 (heq ▸ List.mem_map_of_mem hy)
      · exact hunseen.2 y hy hmem
    · intro n hn hmem
      rcases List.mem_append.mp hmem with hmem | hmem
      · exact hnumbers.2.2 n (List.mem_reverse.mp hmem) n hn rfl
      · exact huntaken.2 n hn hmem
  · rintro ⟨⟨hseen, hnodup, hnew⟩, hpositions, hunseen, hnumbers, huntaken⟩
    constructor
    case positions =>
      rw [List.map_cons, List.nodup_cons]
      refine ⟨?_, hpositions⟩
      intro hmem
      obtain ⟨y, hy, heq⟩ := List.mem_map.mp hmem
      exact hunseen y hy (heq ▸ List.mem_cons_self)
    case unseen =>
      rw [List.forall_mem_cons]
      exact ⟨hseen, fun y hy hmem => hunseen y hy (List.mem_cons_of_mem _ hmem)⟩
    case numbers =>
      rw [List.flatMap_cons, List.nodup_append]
      refine ⟨hnodup, hnumbers, ?_⟩
      rintro n hn _ hn' rfl
      exact huntaken n hn' (List.mem_append_left _ (List.mem_reverse.mpr hn))
    case untaken =>
      rw [List.flatMap_cons, List.forall_mem_append]
      exact ⟨hnew, fun n hn hmem => huntaken n hn (List.mem_append_right _ hmem)⟩

/-- The loop places every ticket or none. -/
theorem placeTickets_iff {tickets : List Value} :
    tickets.foldlM (placeTicket cs booked supplier counts) s = some s' ↔ ∃ xs : List Placement,
      xs.map Placement.ticket = tickets ∧ (∀ x ∈ xs, x.Valid cs booked supplier counts) ∧
      Fits s xs ∧ s' = xs.foldl Placed.put s := by
  induction tickets generalizing s with
  | nil =>
    rw [List.foldlM_nil]
    constructor
    · intro h
      cases h
      exact ⟨[], rfl, fun _ h => absurd h List.not_mem_nil,
        ⟨List.nodup_nil, fun _ h => absurd h List.not_mem_nil, List.nodup_nil,
          fun _ h => absurd h List.not_mem_nil⟩, rfl⟩
    · rintro ⟨xs, hnil, -, -, rfl⟩
      rw [List.map_eq_nil_iff.mp hnil]
      rfl
  | cons ticket tickets ih =>
    simp only [List.foldlM_cons, bind_eq_some, placeTicket_iff, ih]
    constructor
    · rintro ⟨_, ⟨x, rfl, hvalid, hseen, hnodup, hnew, rfl⟩, xs, rfl, hall, hfits, rfl⟩
      exact ⟨x :: xs, rfl, List.forall_mem_cons.mpr ⟨hvalid, hall⟩,
        fits_cons.mpr ⟨⟨hseen, hnodup, hnew⟩, hfits⟩, rfl⟩
    · rintro ⟨xs, htickets, hall, hfits, rfl⟩
      cases xs with
      | nil => cases htickets
      | cons x xs =>
        rw [List.map_cons, List.cons.injEq] at htickets
        obtain ⟨rfl, rfl⟩ := htickets
        rw [List.forall_mem_cons] at hall
        obtain ⟨⟨hseen, hnodup, hnew⟩, hfits⟩ := fits_cons.mp hfits
        exact ⟨_, ⟨x, rfl, hall.1, hseen, hnodup, hnew, rfl⟩, xs, rfl, hall.2, hfits, rfl⟩

/-- What the loop shows is every ticket written at its position. -/
theorem tickets_foldl_put (xs : List Placement) (s : Placed) :
    (xs.foldl Placed.put s).tickets =
      scatter s.tickets (xs.map fun x => (x.position, x.shown)) := by
  induction xs generalizing s with
  | nil => rfl
  | cons x xs ih => exact ih (s.put x)

/-! ## Ticket numbers -/

/-- Digits take one byte each. -/
theorem utf8ByteSize_digits {digits : List Char} (h : ∀ c ∈ digits, isAsciiDigit c = true) :
    (String.ofList digits).utf8ByteSize = digits.length := by
  induction digits with
  | nil => rfl
  | cons c digits ih =>
    rw [List.forall_mem_cons] at h
    have hsize : c.utf8Size = 1 := by
      have hdigit := h.1
      simp only [isAsciiDigit, Bool.and_eq_true, decide_eq_true_eq] at hdigit
      have hnine : '9'.val ≤ 127 := by decide
      exact Char.utf8Size_eq_one_iff.mpr (UInt32.le_trans hdigit.2 hnine)
    rw [← List.singleton_append, String.ofList_append, String.utf8ByteSize_append, ih h.2,
      List.length_append]
    show (String.singleton c).utf8ByteSize + digits.length = _
    rw [String.utf8ByteSize_singleton, hsize]
    rfl

theorem isTicketNumber_iff {n : String} : isTicketNumber n = true ↔
    10 ≤ n.toList.length ∧ n.toList.length ≤ 16 ∧ ∀ c ∈ n.toList, isAsciiDigit c = true := by
  simp only [isTicketNumber, Bool.and_eq_true, decide_eq_true_eq, List.all_eq_true]
  constructor
  · rintro ⟨⟨hmin, hmax⟩, hdigits⟩
    have hsize := utf8ByteSize_digits hdigits
    rw [String.ofList_toList] at hsize
    exact ⟨by omega, by omega, hdigits⟩
  · rintro ⟨hmin, hmax, hdigits⟩
    have hsize := utf8ByteSize_digits hdigits
    rw [String.ofList_toList] at hsize
    exact ⟨⟨by omega, by omega⟩, hdigits⟩

/-! ## Responses that differ in their tickets -/

/-- Two responses with the same `item1`, the tickets apart. -/
structure Alike (body body' : Value) : Prop where
  left : body.isObject = true
  right : body'.isObject = true
  item1 : AgreeOff "ticketInfoes" (body.field "item1") (body'.field "item1")

namespace Alike

variable {body body' : Value} {fresh : String → Uuid} {map : Value} {q : Quote} {id : Uuid}

theorem symm (h : Alike body body') : Alike body' body := ⟨h.right, h.left, h.item1.symm⟩

theorem setItem (h : Alike body body') {x x' : Value} (hx : AgreeOff "ticketInfoes" x x') :
    Alike (body.setField "item1" x) (body'.setField "item1" x') := by
  refine ⟨Value.isObject_setField h.left, Value.isObject_setField h.right, ?_⟩
  rw [Value.field_setField_self h.left, Value.field_setField_self h.right]
  exact hx

theorem modifyItem {f f' : Value → Value} (h : Alike body body')
    (hf : AgreeOff "ticketInfoes" (f (body.field "item1")) (f' (body'.field "item1"))) :
    Alike (modifyField body "item1" f) (modifyField body' "item1" f') := by
  have hpresent : ∀ {v : Value}, (v.field "item1").isObject = true →
      v.get? "item1" = some (v.field "item1") := by
    intro v hv
    cases hget : v.get? "item1" with
    | none =>
      rw [Value.field, hget] at hv
      cases hv
    | some x => rw [Value.field, hget, Option.getD_some]
  unfold modifyField
  rw [hpresent h.item1.left, hpresent h.item1.right]
  exact h.setItem hf

theorem bindReferences (h : Alike body body') :
    Alike (bindReferences fresh map body) (bindReferences fresh map body') := by
  refine ⟨(isObject_bindReferences body).trans h.left,
    (isObject_bindReferences body').trans h.right, ?_⟩
  rw [field_bindReferences (by decide), field_bindReferences (by decide)]
  exact h.item1.bindReferences

theorem bindIdentities (h : Alike body body') :
    Alike (bindIdentities q id body) (bindIdentities q id body') := by
  refine ⟨(isObject_bindIdentities body).trans h.left,
    (isObject_bindIdentities body').trans h.right, ?_⟩
  rw [field_bindIdentities rfl, field_bindIdentities rfl]
  exact h.item1.bindIdentities

theorem soldResponse (h : Alike body body') {result : Value}
    (hr : soldResponse body q = some result) :
    ∃ result', Booking.soldResponse body' q = some result' ∧ Alike result result' := by
  unfold Booking.soldResponse at hr ⊢
  rw [← h.item1.get? "flightInfo" (by decide)]
  cases hflight : (body.field "item1").get? "flightInfo" with
  | none =>
    rw [hflight] at hr
    cases hr
    exact ⟨body', rfl, h⟩
  | some flight =>
    rw [hflight] at hr
    obtain ⟨shown, hshown, rfl⟩ := Option.map_eq_some_iff.mp hr
    refine ⟨_, Option.map_eq_some_iff.mpr ⟨shown, hshown, rfl⟩, ?_⟩
    exact h.modifyItem (h.item1.setField "flightInfo" shown)

/-- The tickets have no part in the projection of a response. -/
theorem projectBookingResponse (h : Alike body body') {projected : Value}
    (hp : projectBookingResponse fresh body q id = some projected) :
    ∃ projected', Booking.projectBookingResponse fresh body' q id = some projected' ∧
      Alike projected projected' := by
  have hinfo : ∀ k, k ≠ "ticketInfoes" →
      (body.field "item1").get? k = (body'.field "item1").get? k := h.item1.get?
  have habsent : (["totalPrice", "passengerFares", "bookingComponents"].all fun key =>
      ((body.field "item1").get? key).isNone) =
      ["totalPrice", "passengerFares", "bookingComponents"].all fun key =>
        ((body'.field "item1").get? key).isNone := by
    simp only [List.all_cons, List.all_nil, hinfo _ (show "totalPrice" ≠ "ticketInfoes" by decide),
      hinfo _ (show "passengerFares" ≠ "ticketInfoes" by decide),
      hinfo _ (show "bookingComponents" ≠ "ticketInfoes" by decide)]
  obtain ⟨hguard, result, refs, code, hresult, hrefs, hcode, rfl⟩ :=
    projectBookingResponse_eq_some.mp hp
  rw [habsent] at hguard
  rw [h.item1.field (by decide)] at hcode
  obtain ⟨result', hresult', halike⟩ := h.soldResponse hresult
  have hbound := @Alike.bindIdentities _ _ q id
    (@Alike.bindReferences _ _ fresh (bookingReferences refs code id) halike)
  refine ⟨_, projectBookingResponse_eq_some.mpr
    ⟨hguard, result', refs, code, hresult', hrefs, hcode, rfl⟩, ?_⟩
  unfold showBreakdown
  cases (q.selling.field "item1").get? "fareBreakdown" with
  | none => exact hbound
  | some breakdown =>
    apply hbound.setItem
    have hset := hbound.item1.setField "fareBreakdown" breakdown
    have hflight := hset.field (show "flightInfo" ≠ "ticketInfoes" by decide)
    dsimp only
    rw [hflight]
    split
    · unfold Value.updateField
      rw [hflight]
      exact hset.setField "flightInfo" _
    · exact hset

end Alike

/-! ## Issued tickets -/

section Issued

variable {fresh : String → Uuid} {body body' payload passengers issued : Value} {q : Quote}
  {id issue : Uuid} {tickets tickets' : List Value}

/-- What `issued_response` answers with. -/
def issuedValue (payload projected : Value) (q : Quote) (id issue : Uuid) (tickets : List Value) :
    Value :=
  let item := Value.object [("pnr", payload.field "PNR"), ("bookingCodeRef", .str id.text),
    ("priceCodeRef", .str q.priceId.text), ("itemCodeRef", .str q.offerId.text),
    ("uniqueTransID", .str q.searchId.text), ("ticketCodeRef", .str issue.text),
    ("ticketInfoes", .arr tickets)]
  let item := copyPart (projected.field "item1") "flightInfo" item
  let item := copyPart (projected.field "item1") "fareBreakdown" item
  .object [("item1", item), ("item2", .object [("isSuccess", .bool true)])]

theorem issuedResponse_eq_some :
    issuedResponse cs fresh body payload passengers q id issue = some issued ↔
      (isSuccess body = true ∧ (body.field "item1").field "pnr" = payload.field "PNR" ∧
        (nonEmptyText ((body.field "item1").field "ticketCodeRef")).isSome = true) ∧
      codesAgree (body.field "item1") payload = true ∧ ∃ booked tickets placed projected,
        passengers = .arr booked ∧ (body.field "item1").field "ticketInfoes" = .arr tickets ∧
        (booked ≠ [] ∧ tickets.length = booked.length) ∧
        tickets.foldlM (placeTicket cs booked q.supplierId (countsVerified body q))
          ⟨[], [], List.replicate booked.length .null⟩ = some placed ∧
        projectBookingResponse fresh body q id = some projected ∧
        issued = issuedValue payload projected q id issue placed.tickets := by
  simp only [issuedResponse, bind_eq_some, guard_eq_some, exists_const, Value.asArray?_eq_some]
  constructor
  · rintro ⟨hguard, hcodes, booked, hbooked, tickets, htickets, hlength, placed, hplaced, projected,
      hprojected, heq⟩
    exact ⟨hguard, hcodes, booked, tickets, placed, projected, hbooked, htickets, hlength, hplaced,
      hprojected, (Option.some.inj heq).symm⟩
  · rintro ⟨hguard, hcodes, booked, tickets, placed, projected, hbooked, htickets, hlength, hplaced,
      hprojected, rfl⟩
    exact ⟨hguard, hcodes, booked, hbooked, tickets, htickets, hlength, placed, hplaced, projected,
      hprojected, rfl⟩

theorem issuedValue_tickets (payload projected : Value) (q : Quote) (id issue : Uuid)
    (tickets : List Value) :
    ((issuedValue payload projected q id issue tickets).field "item1").field "ticketInfoes" =
      .arr tickets := by
  have hitem : ∀ item : Value, (Value.object [("item1", item),
      ("item2", .object [("isSuccess", .bool true)])]).field "item1" = item := by
    intro item
    rw [Value.field, Value.get?_object]
    rfl
  unfold issuedValue
  dsimp only
  rw [hitem, field_copyPart_ne (by decide), field_copyPart_ne (by decide), Value.field,
    Value.get?_object]
  rfl

/-- The tickets and the passengers of a response, matched one to one.  `owner` is the passenger of a
ticket, `numbers` are the numbers on it. -/
structure Matched (cs : Casing) (supplier : String) (counts : Bool) (booked tickets shown : List Value)
    (owner : Fin tickets.length → Fin booked.length)
    (numbers : Fin tickets.length → List String) : Prop where
  bijective : Function.Bijective owner
  own : ∀ t, passengerMatches cs (booked.get (owner t)) ((tickets.get t).field "passengerInfo") supplier counts =
    true
  alone : ∀ t i, passengerMatches cs (booked.get i) ((tickets.get t).field "passengerInfo") supplier counts =
    true → i = owner t
  length : shown.length = booked.length
  numbers_of : ∀ t, (tickets.get t).field "ticketNumbers" = .arr ((numbers t).map .str) ∧ numbers t ≠ []
  shown_at : ∀ t, shown[owner t]? = some (publicTicket (tickets.get t) ((numbers t).map .str))
  distinct : (List.ofFn numbers).flatten.Nodup
  digits : ∀ t, ∀ n ∈ numbers t,
    10 ≤ n.toList.length ∧ n.toList.length ≤ 16 ∧ ∀ c ∈ n.toList, isAsciiDigit c = true

/-- The placement of a ticket. -/
def placementOf (xs : List Placement) (t : Fin (xs.map Placement.ticket).length) : Placement :=
  xs.get (t.cast (List.length_map _))

theorem placementOf_mem (xs : List Placement) (t : Fin (xs.map Placement.ticket).length) :
    placementOf xs t ∈ xs := List.get_mem _ _

theorem placementOf_ticket (xs : List Placement) (t : Fin (xs.map Placement.ticket).length) :
    (xs.map Placement.ticket).get t = (placementOf xs t).ticket := List.getElem_map _

theorem ofFn_placementOf {α : Type} (xs : List Placement) (f : Placement → α) :
    List.ofFn (fun t => f (placementOf xs t)) = xs.map f := by
  apply List.ext_getElem
  · rw [List.length_ofFn, List.length_map, List.length_map]
  · intro i hi hi'
    rw [List.getElem_ofFn, List.getElem_map]
    rfl

/-- Placements at every position match the tickets one to one. -/
theorem matched_of_placements {xs : List Placement}
    (hvalid : ∀ x ∈ xs, x.Valid cs booked supplier counts)
    (hfits : Fits ⟨[], [], List.replicate booked.length .null⟩ xs)
    (hlength : xs.length = booked.length) :
    ∃ (owner : Fin (xs.map Placement.ticket).length → Fin booked.length)
      (numbers : Fin (xs.map Placement.ticket).length → List String),
      Matched cs supplier counts booked (xs.map Placement.ticket)
        (scatter (List.replicate booked.length Value.null) (xs.map fun x => (x.position, x.shown)))
        owner numbers := by
  have hcard : (xs.map Placement.ticket).length = booked.length := by rw [List.length_map, hlength]
  have hone : ∀ x ∈ xs, ∃ p, booked[x.position]? = some p ∧
      passengerMatches cs p (x.ticket.field "passengerInfo") supplier counts = true ∧
      ∀ j p', booked[j]? = some p' → passengerMatches cs p' (x.ticket.field "passengerInfo") supplier
        counts = true → j = x.position := by
    intro x hx
    obtain ⟨p, hp⟩ := (hvalid x hx).one
    exact ⟨p, candidates_single.mp hp⟩
  have hbound : ∀ x ∈ xs, x.position < booked.length := by
    intro x hx
    obtain ⟨p, hp, -⟩ := hone x hx
    exact (List.getElem?_eq_some_iff.mp hp).1
  refine ⟨fun t => ⟨(placementOf xs t).position, hbound _ (placementOf_mem xs t)⟩,
    fun t => (placementOf xs t).numbers, ?_⟩
  constructor
  case bijective =>
    rw [Fintype.bijective_iff_injective_and_card]
    refine ⟨?_, by rw [Fintype.card_fin, Fintype.card_fin, hcard]⟩
    have hinj : Function.Injective fun t => (placementOf xs t).position := by
      rw [← List.nodup_ofFn, ofFn_placementOf]
      exact hfits.positions
    intro t u htu
    exact hinj (congrArg Fin.val htu)
  case own =>
    intro t
    obtain ⟨p, hp, hmatch, -⟩ := hone _ (placementOf_mem xs t)
    rw [placementOf_ticket]
    have heq : booked.get ⟨(placementOf xs t).position, hbound _ (placementOf_mem xs t)⟩ = p :=
      (List.getElem?_eq_some_iff.mp hp).2
    rw [heq]
    exact hmatch
  case alone =>
    intro t i hmatch
    obtain ⟨p, -, -, hunique⟩ := hone _ (placementOf_mem xs t)
    rw [placementOf_ticket] at hmatch
    exact Fin.ext (hunique i.1 (booked.get i) (List.getElem?_eq_getElem i.2) hmatch)
  case length => rw [length_scatter, List.length_replicate]
  case numbers_of =>
    intro t
    rw [placementOf_ticket]
    have ht := hvalid _ (placementOf_mem xs t)
    exact ⟨ht.numbers, ht.nonempty⟩
  case shown_at =>
    intro t
    rw [placementOf_ticket]
    have hwrites : ((xs.map fun x => (x.position, x.shown)).map Prod.fst).Nodup := by
      rw [List.map_map]
      exact hfits.positions
    have hwrite : ((placementOf xs t).position, (placementOf xs t).shown) ∈
        xs.map fun x => (x.position, x.shown) := List.mem_map_of_mem (placementOf_mem xs t)
    have hroom : (placementOf xs t).position < (List.replicate booked.length Value.null).length := by
      rw [List.length_replicate]
      exact hbound _ (placementOf_mem xs t)
    exact getElem?_scatter hwrites hwrite hroom
  case distinct =>
    rw [ofFn_placementOf, ← List.flatMap_def]
    exact hfits.numbers
  case digits =>
    intro t n hn
    exact isTicketNumber_iff.mp ((hvalid _ (placementOf_mem xs t)).digits n hn)

/-- The order of the tickets does not count. -/
theorem placeTickets_perm (hperm : tickets.Perm tickets') {placed : Placed}
    (h : tickets.foldlM (placeTicket cs booked supplier counts) s = some placed) :
    ∃ placed', tickets'.foldlM (placeTicket cs booked supplier counts) s = some placed' ∧
      placed'.tickets = placed.tickets := by
  obtain ⟨xs, rfl, hvalid, hfits, rfl⟩ := placeTickets_iff.mp h
  obtain ⟨xs', hxs, rfl⟩ : ∃ xs', xs.Perm xs' ∧ xs'.map Placement.ticket = tickets' := by
    have hforall : List.Forall₂ (fun t x => Placement.ticket x = t) (xs.map Placement.ticket) xs := by
      rw [List.forall₂_map_left_iff, List.forall₂_same]
      exact fun _ _ => rfl
    obtain ⟨xs', hforall', hxs⟩ := List.perm_comp_forall₂ hperm.symm hforall
    refine ⟨xs', hxs.symm, ?_⟩
    have hmap : List.Forall₂ Eq (xs'.map Placement.ticket) tickets' := by
      rw [List.forall₂_map_left_iff]
      exact hforall'.flip
    exact List.forall₂_eq_eq_eq ▸ hmap
  have hfits' : Fits s xs' :=
    ⟨(hxs.map _).nodup_iff.mp hfits.positions, fun x hx => hfits.unseen x (hxs.mem_iff.mpr hx),
      (hxs.flatMap_right _).nodup_iff.mp hfits.numbers,
      fun n hn => hfits.untaken n ((hxs.flatMap_right _).mem_iff.mpr hn)⟩
  refine ⟨_, placeTickets_iff.mpr
    ⟨xs', rfl, fun x hx => hvalid x (hxs.mem_iff.mpr hx), hfits', rfl⟩, ?_⟩
  rw [tickets_foldl_put, tickets_foldl_put]
  refine (scatter_perm (hxs.map _) ?_).symm
  rw [List.map_map]
  exact hfits.positions

/-- The response with other tickets. -/
def withTickets (body : Value) (tickets : List Value) : Value :=
  body.updateField "item1" fun info => info.setField "ticketInfoes" (.arr tickets)

/-- Responses alike with the same tickets in another order are answered alike. -/
theorem issuedResponse_of_alike (h : Alike body body')
    (hsuccess : body.field "item2" = body'.field "item2")
    (ht : (body.field "item1").field "ticketInfoes" = .arr tickets)
    (ht' : (body'.field "item1").field "ticketInfoes" = .arr tickets')
    (hperm : tickets.Perm tickets')
    (hissued : issuedResponse cs fresh body payload passengers q id issue = some issued) :
    issuedResponse cs fresh body' payload passengers q id issue = some issued := by
  obtain ⟨hguard, hcodes, booked, _, placed, projected, hbooked, htickets, ⟨hne, hlength⟩, hplaced,
    hprojected, rfl⟩ := issuedResponse_eq_some.mp hissued
  obtain rfl := Value.arr.inj (ht.symm.trans htickets)
  have hfield : ∀ k, k ≠ "ticketInfoes" → (body.field "item1").field k = (body'.field "item1").field k :=
    fun k hk => h.item1.field hk
  have hcounts : countsVerified body q = countsVerified body' q := by
    rw [countsVerified, countsVerified, hfield "flightInfo" (by decide)]
  have hsame : isSuccess body = isSuccess body' := by rw [isSuccess, isSuccess, hsuccess]
  have hagree : codesAgree (body.field "item1") payload = codesAgree (body'.field "item1") payload := by
    simp only [codesAgree, codeFields, List.all_cons, List.all_nil,
      hfield "bookingCodeRef" (by decide), hfield "priceCodeRef" (by decide),
      hfield "itemCodeRef" (by decide), hfield "uniqueTransID" (by decide)]
  obtain ⟨projected', hprojected', halike⟩ := h.projectBookingResponse hprojected
  obtain ⟨placed', hplaced', hshown⟩ := placeTickets_perm hperm hplaced
  rw [hcounts] at hplaced'
  rw [hsame, hfield "pnr" (by decide), hfield "ticketCodeRef" (by decide)] at hguard
  refine issuedResponse_eq_some.mpr ⟨hguard, hagree ▸ hcodes, booked, tickets', placed', projected',
    hbooked, ht', ⟨hne, hperm.length_eq ▸ hlength⟩, hplaced', hprojected', ?_⟩
  unfold issuedValue copyPart
  rw [hshown, halike.item1.get? "flightInfo" (by decide), halike.item1.get? "fareBreakdown" (by decide)]

theorem alike_withTickets {old : List Value}
    (ht : (body.field "item1").field "ticketInfoes" = .arr old) (tickets : List Value) :
    Alike body (withTickets body tickets) ∧
      (withTickets body tickets).field "item2" = body.field "item2" ∧
      ((withTickets body tickets).field "item1").field "ticketInfoes" = .arr tickets := by
  have hobject : ∀ {v x : Value} {key : String}, v.field key = x → x ≠ .null → v.isObject = true := by
    intro v x key hfield hne
    cases v with
    | obj fields => rfl
    | _ => exact absurd hfield.symm hne
  have hinfo : (body.field "item1").isObject = true := hobject ht Value.noConfusion
  have hbody : body.isObject = true := by
    refine hobject (x := body.field "item1") rfl ?_
    intro hnull
    rw [hnull] at hinfo
    cases hinfo
  unfold withTickets Value.updateField
  refine ⟨⟨hbody, Value.isObject_setField hbody, hinfo, ?_, ?_⟩, ?_, ?_⟩
  · rw [Value.field_setField_self hbody]
    exact Value.isObject_setField hinfo
  · intro k hk
    rw [Value.field_setField_self hbody, Value.get?_setField_ne hk]
  · exact Value.field_setField_ne (by decide)
  · rw [Value.field_setField_self hbody, Value.field_setField_self hinfo]

/-- `issued_response` matches the tickets with the passengers one to one; the order of the tickets does
not count, and two booked passengers of one identity are never matched. -/
theorem issuedResponse_matching (cs : Casing) (fresh : String → Uuid)
    (body payload passengers : Value) (q : Quote) (id issue : Uuid) :
    (∀ issued, issuedResponse cs fresh body payload passengers q id issue = some issued →
      ∃ (booked tickets shown : List Value) (owner : Fin tickets.length → Fin booked.length)
        (numbers : Fin tickets.length → List String),
        passengers = .arr booked ∧ (body.field "item1").field "ticketInfoes" = .arr tickets ∧
        (issued.field "item1").field "ticketInfoes" = .arr shown ∧
        Matched cs q.supplierId (countsVerified body q) booked tickets shown owner numbers) ∧
    (∀ tickets tickets' : List Value, (body.field "item1").field "ticketInfoes" = .arr tickets →
      tickets.Perm tickets' →
      issuedResponse cs fresh (withTickets body tickets') payload passengers q id issue =
        issuedResponse cs fresh body payload passengers q id issue) ∧
    (∀ (booked : List Value) (i j : Nat) (p p' : Value), passengers = .arr booked → i ≠ j →
      booked[i]? = some p → booked[j]? = some p' → identity cs p = identity cs p' →
      issuedResponse cs fresh body payload passengers q id issue = none) := by
  have hmatched : ∀ issued, issuedResponse cs fresh body payload passengers q id issue = some issued →
      ∃ (booked tickets shown : List Value) (owner : Fin tickets.length → Fin booked.length)
        (numbers : Fin tickets.length → List String),
        passengers = .arr booked ∧ (body.field "item1").field "ticketInfoes" = .arr tickets ∧
        (issued.field "item1").field "ticketInfoes" = .arr shown ∧
        Matched cs q.supplierId (countsVerified body q) booked tickets shown owner numbers := by
    intro issued hissued
    obtain ⟨-, -, booked, tickets, placed, projected, hbooked, htickets, ⟨-, hlength⟩, hplaced, -, rfl⟩ :=
      issuedResponse_eq_some.mp hissued
    obtain ⟨xs, rfl, hvalid, hfits, rfl⟩ := placeTickets_iff.mp hplaced
    rw [List.length_map] at hlength
    obtain ⟨owner, numbers, hm⟩ := matched_of_placements hvalid hfits hlength
    refine ⟨booked, _, _, owner, numbers, hbooked, htickets, issuedValue_tickets .., ?_⟩
    rw [tickets_foldl_put]
    exact hm
  refine ⟨hmatched, ?_, ?_⟩
  · intro tickets tickets' htickets hperm
    obtain ⟨halike, hitem2, htickets'⟩ := alike_withTickets htickets tickets'
    apply Option.ext
    intro issued
    constructor
    · exact issuedResponse_of_alike halike.symm hitem2 htickets' htickets hperm.symm
    · exact issuedResponse_of_alike halike hitem2.symm htickets htickets' hperm
  · intro booked i j p p' hbooked hij hi hj hidentity
    rw [Option.eq_none_iff_forall_ne_some]
    intro issued hissued
    obtain ⟨booked', tickets, shown, owner, numbers, hbooked', -, -, hm⟩ := hmatched issued hissued
    obtain rfl := Value.arr.inj (hbooked.symm.trans hbooked')
    obtain ⟨hibound, hip⟩ := List.getElem?_eq_some_iff.mp hi
    obtain ⟨hjbound, hjp⟩ := List.getElem?_eq_some_iff.mp hj
    obtain ⟨t, ht⟩ := hm.bijective.2 ⟨i, hibound⟩
    have hown := hm.own t
    rw [ht] at hown
    -- The ticket of the first passenger matches the second one as well.
    have hother : passengerMatches cs (booked.get ⟨j, hjbound⟩)
        ((tickets.get t).field "passengerInfo") q.supplierId (countsVerified body q) = true := by
      have hpi : booked.get ⟨i, hibound⟩ = p := hip
      have hpj : booked.get ⟨j, hjbound⟩ = p' := hjp
      rw [hpi] at hown
      rw [hpj]
      simpa only [passengerMatches, hidentity] using hown
    have heq := (hm.alone t _ hother).trans ht
    exact hij (congrArg Fin.val heq).symm

end Issued

/-- The tickets of a father and a son, the second one first. -/
theorem issuedResponse_matching_family :
    ∃ issued, issuedResponse sampleChecks.casing sampleFresh
        (sampleAnswered (sampleAdult "Karim" "1960-01-01") (sampleAdult "Rahim" "1990-01-01"))
        samplePayload (.arr ((sampleFamily "Rahim").map Passenger.toValue)) sampleAccepted 4 5 =
          some issued ∧
      ∃ (booked tickets shown : List Value) (owner : Fin tickets.length → Fin booked.length)
        (numbers : Fin tickets.length → List String),
        Matched sampleChecks.casing "takeoff" true booked tickets shown owner numbers := by
  have hsome : (issuedResponse sampleChecks.casing sampleFresh
      (sampleAnswered (sampleAdult "Karim" "1960-01-01") (sampleAdult "Rahim" "1990-01-01"))
      samplePayload (.arr ((sampleFamily "Rahim").map Passenger.toValue)) sampleAccepted 4
      5).isSome = true := by decide +kernel
  obtain ⟨issued, hissued⟩ := Option.isSome_iff_exists.mp hsome
  obtain ⟨booked, tickets, shown, owner, numbers, -, -, -, hm⟩ :=
    (issuedResponse_matching _ _ _ _ _ _ _ _).1 issued hissued
  have hcounts : countsVerified (sampleAnswered (sampleAdult "Karim" "1960-01-01")
      (sampleAdult "Rahim" "1990-01-01")) sampleAccepted = true := by decide +kernel
  rw [hcounts] at hm
  exact ⟨issued, hissued, booked, tickets, shown, owner, numbers, hm⟩

end ShaponTravels.Booking
