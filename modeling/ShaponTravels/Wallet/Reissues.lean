import ShaponTravels.Wallet.TicketQuotes

/-!
# Reissues — the tickets a reissue is completed with

The tickets that `validate_tickets` accepts for a published quote are for exactly the entitlements the
quote allocates differences to, so the loop of `settle` finds one for each.
-/

namespace ShaponTravels.Wallet.TicketManagement

open Library
open Booking (Casing)

/-! ## The tickets of a reissue -/

variable {cs : Casing} {q : Quote} {tickets : List NewTicket} {entitlements : List (Uuid × Int)}
  {s s' : Accepted} {t : NewTicket}

/-- What a ticket adds to the map of the differences. -/
def NewTicket.entry (t : NewTicket) : Uuid × Int :=
  (t.predecessorEntitlementId, t.fareDifferenceAmountMinor)

theorem acceptTicket_ok (h : acceptTicket cs s t = .ok s') :
    s' = ⟨s.actual ++ [t.entry], s.numbers ++ [t.number cs]⟩ ∧ t.number cs ∉ s.numbers ∧
      t.predecessorEntitlementId ∉ s.actual.map Prod.fst := by
  simp only [acceptTicket, bind_eq_ok, ensure_eq_ok, exists_const, minor_eq_ok, pure_eq_ok] at h
  obtain ⟨⟨-, -, -, hnumber⟩, difference, ⟨-, rfl⟩, hfresh, rfl⟩ := h
  exact ⟨rfl, hnumber, hfresh⟩

/-- The maps of `validate_tickets` hold an entry for every ticket, and neither has a key twice. -/
structure Collects (cs : Casing) (tickets : List NewTicket) (s s' : Accepted) : Prop where
  actual : s'.actual = s.actual ++ tickets.map NewTicket.entry
  numbers : s'.numbers = s.numbers ++ tickets.map (NewTicket.number cs)
  keys : (s'.actual.map Prod.fst).Nodup
  distinct : s'.numbers.Nodup

theorem acceptTicket_collects (h : tickets.foldlM (acceptTicket cs) s = .ok s')
    (hkeys : (s.actual.map Prod.fst).Nodup) (hdistinct : s.numbers.Nodup) :
    Collects cs tickets s s' := by
  induction tickets generalizing s with
  | nil =>
    rw [List.foldlM_nil, pure_eq_ok] at h
    subst h
    exact ⟨(List.append_nil _).symm, (List.append_nil _).symm, hkeys, hdistinct⟩
  | cons t tickets ih =>
    rw [List.foldlM_cons, bind_eq_ok] at h
    obtain ⟨middle, hfirst, hrest⟩ := h
    obtain ⟨rfl, hnumber, hfresh⟩ := acceptTicket_ok hfirst
    have hmiddle : KeyUnique Prod.fst (s.actual ++ [t.entry]) :=
      keyUnique_concat.mpr ⟨hkeys, fun e he heq => hfresh (List.mem_map.mpr ⟨e, he, heq⟩)⟩
    have hnumbers : (s.numbers ++ [t.number cs]).Nodup :=
      List.nodup_append.mpr ⟨hdistinct, List.nodup_singleton _, fun k hk k' hk' heq => by
        rw [List.mem_singleton] at hk'
        subst hk' heq
        exact hnumber hk⟩
    have hall := ih hrest hmiddle hnumbers
    refine ⟨?_, ?_, hall.keys, hall.distinct⟩
    · rw [hall.actual, List.append_assoc, List.singleton_append, List.map_cons]
    · rw [hall.numbers, List.append_assoc, List.singleton_append, List.map_cons]

/-- A map without a key twice holds for a key what its entry says. -/
theorem collected_eq_some {entries : List (Uuid × Int)} {id : Uuid} {n : Int}
    (h : KeyUnique Prod.fst entries) : collected entries id = some n ↔ (id, n) ∈ entries := by
  have hreverse : KeyUnique Prod.fst entries.reverse := by
    unfold KeyUnique
    rw [List.map_reverse]
    exact List.nodup_reverse.mpr h
  unfold collected
  rw [Option.map_eq_some_iff]
  constructor
  · rintro ⟨e, he, rfl⟩
    obtain ⟨hmem, rfl⟩ := hreverse.lookup_iff.mp he
    exact List.mem_reverse.mp hmem
  · intro he
    exact ⟨(id, n), hreverse.lookup_iff.mpr ⟨List.mem_reverse.mpr he, rfl⟩, rfl⟩

/-- Equal maps without a key twice have the same entries. -/
theorem sameEntries_mem {xs ys : List (Uuid × Int)} (h : sameEntries xs ys = true)
    (hxs : KeyUnique Prod.fst xs) (hys : KeyUnique Prod.fst ys) (e : Uuid × Int) : e ∈ xs ↔ e ∈ ys := by
  have hall := List.all_eq_true.mp h
  have hkey : ∀ e' ∈ xs ++ ys, collected xs e'.1 = collected ys e'.1 := by
    intro e' he'
    refine of_decide_eq_true (hall e'.1 ?_)
    rw [← List.map_append]
    exact List.mem_map_of_mem he'
  constructor
  · intro he
    have hc := hkey e (List.mem_append_left _ he)
    rw [(collected_eq_some (n := e.2) hxs).mpr he] at hc
    exact (collected_eq_some hys).mp hc.symm
  · intro he
    have hc := hkey e (List.mem_append_right _ he)
    rw [(collected_eq_some (n := e.2) hys).mpr he] at hc
    exact (collected_eq_some hxs).mp hc

/-- The tickets that `validate_tickets` accepts, against the allocations. -/
structure Ticketed (cs : Casing) (q : Quote) (tickets : List NewTicket) : Prop where
  entries : ∀ e, e ∈ tickets.map NewTicket.entry ↔ e ∈ q.differences
  predecessors : KeyUnique NewTicket.predecessorEntitlementId tickets
  numbers : (tickets.map (NewTicket.number cs)).Nodup

theorem validateTickets_ok (h : q.validateTickets cs tickets = .ok ())
    (honce : (q.reissueFareDifferenceAllocations.map (·.entitlementId)).Nodup) :
    Ticketed cs q tickets := by
  simp only [Quote.validateTickets, bind_eq_ok, ensure_eq_ok] at h
  obtain ⟨s, hs, -, -, hsame⟩ := h
  have hcollects := acceptTicket_collects hs List.nodup_nil List.nodup_nil
  have hactual : s.actual = tickets.map NewTicket.entry := hcollects.actual
  have hnumbers : s.numbers = tickets.map (NewTicket.number cs) := hcollects.numbers
  have hkeys : KeyUnique Prod.fst q.differences := by
    unfold KeyUnique Quote.differences
    rw [List.map_map]
    exact honce
  have hunique := hcollects.keys
  rw [hactual] at hsame hunique
  refine ⟨sameEntries_mem hsame hunique hkeys, ?_, hnumbers ▸ hcollects.distinct⟩
  rw [List.map_map] at hunique
  exact hunique

/-- The only ticket of an entitlement carries the difference of its allocation. -/
theorem Ticketed.ticketOf_eq (h : Ticketed cs q tickets) {a : Allocation} {id : Uuid}
    (ha : q.allocation id = some a) :
    ∃ t, ticketOf tickets id = some t ∧ a = ⟨id, t.fareDifferenceAmountMinor⟩ := by
  obtain ⟨hmem, rfl⟩ := Quote.allocation_eq_some ha
  have hentry : (a.entitlementId, a.fareDifferenceAmountMinor) ∈ q.differences :=
    List.mem_map_of_mem hmem
  obtain ⟨t, ht, heq⟩ := List.mem_map.mp ((h.entries _).mpr hentry)
  obtain ⟨hid, hdifference⟩ := Prod.mk.inj heq
  refine ⟨t, h.predecessors.lookup_iff.mpr ⟨ht, hid⟩, ?_⟩
  rw [hdifference]

/-- The tickets are for exactly the entitlements that the allocations cover. -/
theorem Ticketed.covers (h : Ticketed cs q tickets)
    (hcovers : (q.reissueFareDifferenceAllocations.map (·.entitlementId)).Perm
      (entitlements.map Prod.fst)) (honce : (entitlements.map Prod.fst).Nodup) :
    (tickets.map (·.predecessorEntitlementId)).Perm (entitlements.map Prod.fst) := by
  rw [List.perm_ext_iff_of_nodup h.predecessors honce]
  intro id
  rw [← hcovers.mem_iff]
  have hleft : tickets.map (·.predecessorEntitlementId) = (tickets.map NewTicket.entry).map Prod.fst := by
    rw [List.map_map]
    rfl
  have hright : q.reissueFareDifferenceAllocations.map (·.entitlementId) = q.differences.map Prod.fst := by
    unfold Quote.differences
    rw [List.map_map]
    rfl
  rw [hleft, hright, List.mem_map, List.mem_map]
  simp only [h.entries]

/-! ## The loop of `settle` -/

/-- The row that a selected entitlement is followed by. -/
structure Succeeds (cs : Casing) (tickets : List NewTicket) (s : Entitlement × Uuid)
    (row : Entitlement) : Prop where
  id : row.id = s.2
  predecessor : row.predecessorId = some s.1.id
  ticket : ∃ t, ticketOf tickets s.1.id = some t ∧ row.ticketNumber = t.number cs ∧
    row.amount = s.1.amount + t.fareDifferenceAmountMinor

/-- What the loop needs of a selected entitlement: its ticket, a successor's amount in range, and the
hold that pays a difference. -/
structure Ready (tickets : List NewTicket) (hold : Option Uuid) (e : Entitlement) (t : NewTicket) :
    Prop where
  ticket : ticketOf tickets e.id = some t
  amount : sum [e.amount, t.fareDifferenceAmountMinor] = .ok (e.amount + t.fareDifferenceAmountMinor)
  paid : 0 < t.fareDifferenceAmountMinor → hold.isSome

/-- `REISSUE_TICKET_ALREADY_EXISTS`. -/
def alreadyExists : ApiError := conflict "REISSUE_TICKET_ALREADY_EXISTS"

theorem NewTicket.funding_ok {hold : Option Uuid} (h : 0 < t.fareDifferenceAmountMinor → hold.isSome) :
    ∃ added, t.funding hold = .ok added := by
  unfold NewTicket.funding
  by_cases hpos : 0 < t.fareDifferenceAmountMinor
  · obtain ⟨operation, rfl⟩ := Option.isSome_iff_exists.mp (h hpos)
    rw [if_pos hpos]
    exact ⟨_, rfl⟩
  · rw [if_neg hpos]
    exact ⟨[], rfl⟩

/-- One turn of the loop: it adds the successor, or stops at a number the booking has. -/
theorem successor_eq {hold : Option Uuid} {s : Entitlement × Uuid} (h : Ready tickets hold s.1 t) :
    ∃ row, Succeeds cs tickets s row ∧ row.ticketNumber = t.number cs ∧
      ∀ rows, successor cs tickets hold rows s =
        if t.number cs ∈ rows.map (·.ticketNumber) then .error alreadyExists else .ok (rows ++ [row]) := by
  obtain ⟨added, hadded⟩ := NewTicket.funding_ok h.paid
  refine ⟨s.1.successor s.2 (t.number cs) (s.1.amount + t.fareDifferenceAmountMinor) added,
    ⟨rfl, rfl, t, h.ticket, rfl, rfl⟩, rfl, fun rows => ?_⟩
  unfold successor
  rw [h.ticket, fetch_some, ok_bind, hadded, h.amount]
  dsimp only
  by_cases hrow : t.number cs ∈ rows.map (·.ticketNumber)
  · have hstop : ensure (t.number cs ∉ rows.map (·.ticketNumber)) alreadyExists =
        .error alreadyExists := ensure_eq_error.mpr ⟨not_not.mpr hrow, rfl⟩
    unfold alreadyExists at hstop
    rw [if_pos hrow, hstop]
    rfl
  · rw [if_neg hrow, ensure_of hrow]
    rfl

variable {hold : Option Uuid} {selected : List (Entitlement × Uuid)}

/-- The loop stops for nothing but a number that the booking has. -/
theorem successors_fails (h : ∀ s ∈ selected, ∃ t, Ready tickets hold s.1 t) (rows : List Entitlement) :
    FailsWith (· = alreadyExists) (successors cs tickets hold rows selected) := by
  refine .foldlM (fun rows s hs => ?_) rows
  obtain ⟨t, ht⟩ := h s hs
  obtain ⟨row, -, -, hstep⟩ := @successor_eq cs _ _ _ _ ht
  intro e he
  rw [hstep] at he
  split at he
  · exact (Except.error.inj he).symm
  · cases he

/-- New numbers that the booking does not have, and that differ from each other, let every selected
entitlement have its successor. -/
theorem successors_ok (h : ∀ s ∈ selected, ∃ t, Ready tickets hold s.1 t)
    (hnumbers : (tickets.map (NewTicket.number cs)).Nodup) (hselected : (selected.map (·.1.id)).Nodup)
    {rows : List Entitlement}
    (hfresh : ∀ s ∈ selected, ∀ t, ticketOf tickets s.1.id = some t →
      t.number cs ∉ rows.map (·.ticketNumber)) :
    ∃ added, successors cs tickets hold rows selected = .ok (rows ++ added) ∧
      List.Forall₂ (Succeeds cs tickets) selected added := by
  induction selected generalizing rows with
  | nil => exact ⟨[], by rw [List.append_nil]; rfl, .nil⟩
  | cons s selected ih =>
    obtain ⟨t, ht⟩ := h s List.mem_cons_self
    obtain ⟨row, hrow, hnumber, hstep⟩ := @successor_eq cs _ _ _ _ ht
    have hnew : t.number cs ∉ rows.map (·.ticketNumber) := hfresh s List.mem_cons_self t ht.ticket
    obtain ⟨hs, hrest⟩ := List.nodup_cons.mp hselected
    -- The later tickets are other tickets, so their numbers are not the one just stored.
    have hlater : ∀ s' ∈ selected, ∀ t', ticketOf tickets s'.1.id = some t' →
        t'.number cs ∉ (rows ++ [row]).map (·.ticketNumber) := by
      intro s' hs' t' ht' hmem
      rw [List.map_append, List.mem_append] at hmem
      rcases hmem with hmem | hmem
      · exact hfresh s' (List.mem_cons_of_mem _ hs') t' ht' hmem
      · have heq : t'.number cs = t.number cs := by
          rw [← hnumber]
          exact List.mem_singleton.mp hmem
        have hsame := KeyUnique.eq_of_key hnumbers (lookup_mem ht') (lookup_mem ht.ticket) heq
        have hid : s'.1.id = s.1.id := by
          rw [← lookup_key ht', ← lookup_key ht.ticket, hsame]
        exact hs (List.mem_map.mpr ⟨s', hs', hid⟩)
    obtain ⟨added, hadded, hall⟩ :=
      ih (fun s' hs' => h s' (List.mem_cons_of_mem _ hs')) hrest hlater
    refine ⟨row :: added, ?_, .cons hrow hall⟩
    unfold successors at hadded ⊢
    rw [List.foldlM_cons, hstep, if_neg hnew, ok_bind, hadded, List.append_assoc, List.singleton_append]

/-! ## Accepted quotes and tickets -/

/-- What accepted tickets give the selected entitlements, up to the loop that stores them. -/
structure Reticketed (cs : Casing) (q : Quote) (tickets : List NewTicket)
    (entitlements : List (Uuid × Int)) : Prop where
  predecessors : (tickets.map (·.predecessorEntitlementId)).Perm (entitlements.map Prod.fst)
  numbers : (tickets.map (NewTicket.number cs)).Nodup
  ticket : ∀ e ∈ entitlements, ∃ t, ticketOf tickets e.1 = some t ∧
    q.allocation e.1 = some ⟨e.1, t.fareDifferenceAmountMinor⟩ ∧
    InRange (e.2 + t.fareDifferenceAmountMinor)
  settled : ∀ (selected : List (Entitlement × Uuid)) (hold : Option Uuid) (rows : List Entitlement),
    selected.map (fun s => (s.1.id, s.1.amount)) = entitlements →
    (q.direction = .debit → hold.isSome) →
    FailsWith (· = alreadyExists) (successors cs tickets hold rows selected) ∧
    ((∀ t ∈ tickets, t.number cs ∉ rows.map (·.ticketNumber)) →
      ∃ added, successors cs tickets hold rows selected = .ok (rows ++ added) ∧
        List.Forall₂ (Succeeds cs tickets) selected added)

/-- A difference to pay makes the quote a debit, whose hold was checked before the loop. -/
theorem Quote.Reissued.debit {direction : Direction} {amount : Int}
    (h : q.Reissued entitlements direction amount) {a : Allocation}
    (ha : a ∈ q.reissueFareDifferenceAllocations) (hpos : 0 < a.fareDifferenceAmountMinor) :
    direction = .debit := by
  obtain ⟨hdifferences, -, hsum⟩ := sum_eq_ok.mp h.differences
  obtain ⟨hcharges, -, hcharge⟩ := sum_eq_ok.mp h.charge
  have hle : a.fareDifferenceAmountMinor ≤ q.allocated.sum :=
    List.single_le_sum hdifferences _ (List.mem_map_of_mem ha)
  have hdifference : q.fareDifferenceMinor ≤ amount := by
    rw [hcharge]
    exact List.single_le_sum hcharges _ List.mem_cons_self
  rw [h.direction, if_neg (by omega)]

theorem Quote.Checked.reticketed (h : q.Checked .reissue entitlements)
    (htickets : q.validateTickets cs tickets = .ok ()) : Reticketed cs q tickets entitlements := by
  have hreissue := Quote.reissueAmount_ok h.outcome
  have hticketed := validateTickets_ok htickets hreissue.once
  have hcovers := h.exact.covers rfl
  have hticket : ∀ e ∈ entitlements, ∃ t, ticketOf tickets e.1 = some t ∧
      q.allocation e.1 = some ⟨e.1, t.fareDifferenceAmountMinor⟩ ∧
      sum [e.2, t.fareDifferenceAmountMinor] = .ok (e.2 + t.fareDifferenceAmountMinor) := by
    intro e he
    obtain ⟨a, ha⟩ := Quote.allocation_isSome he hreissue.ids
    obtain ⟨t, ht, rfl⟩ := hticketed.ticketOf_eq ha
    obtain ⟨n, hn⟩ := hreissue.successors e he
    unfold Quote.successorAmount at hn
    rw [ha, fetch_some, ok_bind] at hn
    obtain ⟨-, -, rfl⟩ := sum_eq_ok.mp hn
    refine ⟨t, ht, ha, ?_⟩
    rw [hn]
    simp only [List.sum_cons, List.sum_nil, Int.add_zero]
  refine ⟨hticketed.covers hcovers h.once, hticketed.numbers, ?_, ?_⟩
  · intro e he
    obtain ⟨t, ht, ha, hsum⟩ := hticket e he
    refine ⟨t, ht, ha, ?_⟩
    have hrange := sum_prefix hsum (List.prefix_refl _)
    rw [List.sum_cons, List.sum_singleton] at hrange
    exact hrange
  · intro selected hold rows hselected hhold
    have hready : ∀ s ∈ selected, ∃ t, Ready tickets hold s.1 t := by
      intro s hs
      have he : (s.1.id, s.1.amount) ∈ entitlements :=
        hselected ▸ List.mem_map_of_mem (f := fun s : Entitlement × Uuid => (s.1.id, s.1.amount)) hs
      obtain ⟨t, ht, ha, hsum⟩ := hticket _ he
      exact ⟨t, ht, hsum, fun hpos =>
        hhold (hreissue.debit (Quote.allocation_eq_some ha).1 hpos)⟩
    have hids : (selected.map (·.1.id)).Nodup := by
      have honce := h.once
      rw [← hselected, List.map_map] at honce
      exact honce
    refine ⟨successors_fails hready rows, fun hfresh => ?_⟩
    exact successors_ok hready hticketed.numbers hids fun s _ t ht => hfresh t (lookup_mem ht)

/-- The outcome of a quote is determined by its fees, settles the selected entitlements exactly and is
computed without leaving the range of the amounts; the tickets of a reissue give every entitlement one
new number with its difference. -/
theorem validate_exact (cs : Casing) (q : Quote) (action : Action) (currency : String)
    (entitlements : List (Uuid × Int)) (now : Int) :
    (∀ values, sum values = sumIntegers values) ∧
    FailsWith Quote.Answered (q.validate action currency entitlements now) ∧
    (q.validate action currency entitlements now = .ok () →
      q.Exact action entitlements ∧
      (∀ (q' : Quote) (currency' : String) (now' : Int), q.SameTerms q' →
        q'.validate action currency' entitlements now' = .ok () →
        (q.direction, q.customerAmountMinor) = (q'.direction, q'.customerAmountMinor)) ∧
      (action = .reissue → ∀ tickets, q.validateTickets cs tickets = .ok () →
        Reticketed cs q tickets entitlements)) := by
  refine ⟨sum_eq_sumIntegers, q.validate_answered action currency entitlements now, fun h => ?_⟩
  have hchecked := Quote.validate_ok h
  refine ⟨hchecked.exact, ?_, ?_⟩
  · intro q' currency' now' hterms h'
    exact hchecked.unique (Quote.validate_ok h') hterms
  · rintro rfl tickets htickets
    exact hchecked.reticketed htickets

/-- A reissue of two tickets for a difference and an airline fee. -/
def sampleReissue : Quote where
  direction := .debit
  currency := "BDT"
  userPayableEntitlementAmountMinor := 0
  fareDifferenceMinor := 500
  airlineFeeMinor := 200
  voidFeeMinor := 0
  serviceFeeMinor := 0
  customerAmountMinor := 700
  confirmationDeadlineAt := 10
  details := none
  reissueFareDifferenceAllocations := [⟨1, 500⟩, ⟨2, 0⟩]

def sampleNewTickets : List NewTicket := [⟨2, " 176-2 ", 0⟩, ⟨1, "176-1", 500⟩]

theorem validate_exact_reissue :
    sampleReissue.Exact .reissue [(1, 9000), (2, 9000)] ∧
    Reticketed plainCasing sampleReissue sampleNewTickets [(1, 9000), (2, 9000)] := by
  have h : sampleReissue.validate .reissue "BDT" [(1, 9000), (2, 9000)] 0 = .ok () := by
    decide +kernel
  have htickets : sampleReissue.validateTickets plainCasing sampleNewTickets = .ok () := by
    decide +kernel
  obtain ⟨hexact, -, hreticketed⟩ :=
    (validate_exact plainCasing sampleReissue .reissue "BDT" [(1, 9000), (2, 9000)] 0).2.2 h
  exact ⟨hexact, hreticketed rfl sampleNewTickets htickets⟩
end ShaponTravels.Wallet.TicketManagement
