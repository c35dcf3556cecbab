import ShaponTravels.Wallet.Reissues
import ShaponTravels.Wallet.TicketOrder

/-!
# TicketFunding — the captured money behind the active tickets

Every entitlement is paid by slices of captured operations.  What an operation has refunded and what it still
backs never exceed what it captured, so a credit finds its money.
-/

namespace ShaponTravels.Wallet.TicketManagement

open Library
open Booking (Casing)

/-! ## The first rows -/

/-- An import is allocated to the last unit. -/
theorem allocateImport_total {cs : Casing} {data passengers tickets : Value} {captured : Int}
    {result : List InitialEntitlement} (h : allocateImport cs data passengers tickets captured = .ok result) :
    (result.map (·.amountMinor)).sum = captured := by
  have hmeets : Meets (allocateImport cs data passengers tickets captured) fun result =>
      (result.map (·.amountMinor)).sum = captured := by
    unfold allocateImport
    cases hlegacy : (data.field "rustPricing").isNull with
    | false => exact .refuse fun result h => (allocateInitial_conserves h).total
    | true =>
      rw [if_neg (by decide)]
      refine (Meets.refuse fun _ h => minor_eq_ok.mp h).bind fun _ hminor => ?_
      refine (Meets.refuse fun _ h => ensure_eq_ok.mp h).bind fun _ hcaptured => ?_
      refine (Meets.refuse fun _ h => fetch_eq_ok.mp h).bind fun pax hpax => ?_
      refine (Meets.refuse fun _ h => h).bind fun counts hcounts => ?_
      rw [Option.filter_eq_some_iff, Value.asArray?_eq_some, decide_eq_true_eq] at hpax
      obtain ⟨rfl, hne, hfew⟩ := hpax
      refine (Meets.signed (P := (· = (pax.length : Int) * 100)) (by omega) (by omega) rfl).bind ?_
      rintro _ rfl
      refine (Meets.refuse fun _ h => h).bind fun initial hinitial => ?_
      have hlength : initial.length = pax.length := by
        obtain ⟨-, booked, hbooked, hlength⟩ := allocateInitial_order hinitial
        cases hbooked
        exact hlength
      split
      · rename_i hsingle
        exact .pure (single_apportioned hlegacy hcaptured hinitial (hlength.trans hsingle)).total
      refine (Meets.refuse fun _ h => fetch_eq_ok.mp h).bind fun fares hfares => ?_
      rw [Value.asArray?_eq_some] at hfares
      refine Meets.bind (P := fun made => ∀ p ∈ made, ∃ fare ∈ fares, Exact cs fare p) ?_ fun made hmade => ?_
      · refine Meets.foldlM (fun p hp => absurd hp List.not_mem_nil) fun made hmade fare hfare => ?_
        refine (weigh_meets counts made fare).mono ?_
        rintro _ ⟨weight, hweight, -, rfl⟩
        rw [List.forall_mem_append, List.forall_mem_singleton]
        exact ⟨hmade, fare, hfare, hweight.exact fun kind count hlookup =>
          (typeCounts_le hcounts hlookup).trans hfew⟩
      refine (Meets.refuse fun _ h => ensure_eq_ok.mp h).bind fun _ _ => ?_
      refine (Meets.mapM (R := fun e w => made.lookup (cs.lower e.passengerType) = some w)
        fun e _ => .refuse fun _ h => fetch_eq_ok.mp h).bind fun weights hweights => ?_
      have hcount : weights.length = pax.length := hweights.length_eq.symm.trans hlength
      have husable : Usable weights := by
        refine ⟨hcount.le.trans hfew, ?_, fun w hw => ?_⟩
        · rintro rfl
          exact hne (List.eq_nil_of_length_eq_zero hcount.symm)
        · obtain ⟨e, -, hlookup⟩ := exists_left hweights hw
          obtain ⟨_, -, hexact⟩ := hmade _ (mem_of_lookup hlookup)
          exact hexact.range
      refine (shareOut_meets ⟨hcaptured, hminor.1.2⟩ hweights.length_eq.symm husable).mono ?_
      rintro _ ⟨divisor, hpos, hdvd, rfl, hpositive⟩
      exact (legacy_apportioned hlegacy hinitial hfares hmade hweights husable hpos hdvd hpositive).total
  exact hmeets.2 result h

/-- The differences of the tickets of a reissue are covered by what its customer pays. -/
theorem Quote.Checked.differences_le {cs : Casing} {q : Quote} {tickets : List NewTicket} {selected : List Entitlement}
    (h : q.Checked .reissue (selected.map fun e => (e.id, e.amount)))
    (htickets : q.validateTickets cs tickets = .ok ()) :
    (selected.map fun e => ((ticketOf tickets e.id).map (·.fareDifferenceAmountMinor)).getD 0).sum ≤
      q.customerAmountMinor := by
  have hexact := h.exact
  have hreticketed := h.reticketed htickets
  have hids : (selected.map fun e => (e.id, e.amount)).map Prod.fst = selected.map (·.id) := by
    rw [List.map_map]
    rfl
  have hcovers := hexact.covers rfl
  rw [hids] at hcovers
  have honce : (selected.map (·.id)).Nodup := hids ▸ hexact.once
  have hsum : (selected.map fun e => ((ticketOf tickets e.id).map (·.fareDifferenceAmountMinor)).getD 0).sum =
      q.allocated.sum := by
    have hallocated : KeyUnique Allocation.entitlementId q.reissueFareDifferenceAllocations :=
      hcovers.nodup_iff.mpr honce
    have hentitlements : KeyUnique Entitlement.id selected := honce
    refine sum_matched hentitlements hallocated ?_ ?_
    · intro e he
      have hentry : (e.id, e.amount) ∈ selected.map fun e => (e.id, e.amount) := List.mem_map_of_mem he
      obtain ⟨t, ht, ha, -⟩ := hreticketed.ticket _ hentry
      obtain ⟨hmem, hid⟩ := Quote.allocation_eq_some ha
      refine ⟨_, hmem, hid, ?_⟩
      rw [ht]
      rfl
    · intro a ha
      have hid : a.entitlementId ∈ selected.map (·.id) := hcovers.mem_iff.mp (List.mem_map_of_mem ha)
      exact List.mem_map.mp hid
  have hcharge := (hexact.reissue rfl).1
  have hairline : InRange q.airlineFeeMinor := hexact.amounts _ (by simp [Quote.amounts])
  have hservice : InRange q.serviceFeeMinor := hexact.amounts _ (by simp [Quote.amounts])
  have hairline := hairline.1
  have hservice := hservice.1
  omega

end ShaponTravels.Wallet.TicketManagement

namespace ShaponTravels.Wallet.Tickets

open Library
open Booking (Casing)
open TicketManagement (Action Quote NewTicket Funding Entitlement InitialEntitlement ticketOf)
open Nonissuance (Actor)

variable {desk : Desk} {db db' db₁ : Db} {actor : Actor} {r r₁ saved : Request} {input : Mutation} {draw : Draw}
  {row : QuoteRow} {o : WalletOperation}

/-! ## What operations have paid -/

theorem allocation_total {cs : Casing} {b : ChargedBooking} {initial : List InitialEntitlement}
    (h : allocation cs b = .ok initial) : (initial.map (·.amountMinor)).sum = b.amount := by
  unfold allocation at h
  dsimp only at h
  split at h
  · rw [mapError_eq_ok] at h
    exact TicketManagement.allocateImport_total h
  · exact (TicketManagement.allocateInitial_conserves h).total

/-- What an operation has paid of the active rows. -/
def activePaid (o : Uuid) (rows : List Entitlement) : Int :=
  (rows.map fun e => if e.state = .active then paidBy o e else 0).sum

theorem activePaid_append (o : Uuid) (rows rows' : List Entitlement) :
    activePaid o (rows ++ rows') = activePaid o rows + activePaid o rows' := by
  simp only [activePaid, List.map_append, List.sum_append]

theorem activePaid_of_active {o : Uuid} {rows : List Entitlement} (h : ∀ e ∈ rows, e.state = .active) :
    activePaid o rows = (rows.map (paidBy o)).sum :=
  sum_congr fun e he => if_pos (h e he)

theorem Backing.paidBy_nonneg {e : Entitlement} (h : Backing e) (o : Uuid) : 0 ≤ paidBy o e :=
  sumOn_nonneg (fun f hf => (h.positive f hf).le) o

/-- An operation that no slice names has paid nothing. -/
theorem activePaid_unnamed {o : Uuid} {rows : List Entitlement}
    (h : ∀ e ∈ rows, ∀ f ∈ e.funding, f.operationId ≠ o) : activePaid o rows = 0 := by
  refine sum_zero fun e he => ?_
  split
  · exact sumOn_eq_zero (h e he)
  · rfl

/-- Closing active rows takes what was paid of them. -/
theorem activePaid_closeRows {outcome : Outcome} {rows selected : List Entitlement} (o : Uuid)
    (hids : KeyUnique Entitlement.id rows) (hselected : selected.Perm (rows.filter fun e => e.id ∈ selected.map (·.id)))
    (hactive : ∀ e ∈ selected, e.state = .active) :
    activePaid o (closeRows outcome (selected.map (·.id)) rows) + (selected.map (paidBy o)).sum =
      activePaid o rows := by
  rw [(hselected.map (paidBy o)).sum_eq, sum_filter_map (fun e : Entitlement => e.id ∈ selected.map (·.id)), activePaid,
    closeRows, List.map_map, ← List.sum_map_add]
  refine sum_congr fun e he => ?_
  show (if (if e.id ∈ _ then _ else e).state = .active then paidBy o (if e.id ∈ _ then _ else e) else 0) + _ = _
  by_cases hid : e.id ∈ selected.map (·.id)
  · obtain ⟨e', he', hsame⟩ := List.mem_map.mp hid
    have hmem : e' ∈ rows := (List.mem_filter.mp (hselected.mem_iff.mp he')).1
    obtain rfl := hids.eq_of_key hmem he hsame
    rw [if_pos hid, if_pos hid, if_pos (hactive e' he'), if_neg (closedState_ne outcome), Int.zero_add]
  · rw [if_neg hid, if_neg hid, Int.add_zero]

theorem selections_perm (db : Db) (r : Request) :
    (selections db r).Perm (db.entitlements.filter fun e => e.id ∈ (selections db r).map (·.id)) := by
  have hfilter : (selections db r).Perm (db.entitlements.filter fun e => (⟨r.id, e.id⟩ : Selection) ∈ db.selections) :=
    List.mergeSort_perm _ _
  refine hfilter.trans (.of_eq (List.filter_congr fun e he => ?_))
  rw [decide_eq_decide]
  constructor
  · exact fun hselects => List.mem_map_of_mem (mem_selections.mpr ⟨he, hselects⟩)
  · intro hmem
    obtain ⟨e', he', hid⟩ := List.mem_map.mp hmem
    exact hid ▸ (mem_selections.mp he').2

/-! ## The invariant -/

/-- Every entitlement is paid in full by captured operations of its booking, and no operation has refunded and
pays more than it captured. -/
structure Funded (db : Db) : Prop where
  backing : ∀ e ∈ db.entitlements, Backing e
  captured : ∀ e ∈ db.entitlements, ∀ f ∈ e.funding, ∃ o ∈ db.wallet.operations, o.id = f.operationId ∧
    o.state = .captured ∧ chargedFor o = some e.bookingId
  started : ∀ o ∈ db.wallet.operations, 0 < o.refundedAmount → ∃ e ∈ db.entitlements, chargedFor o = some e.bookingId
  bound : ∀ o ∈ db.wallet.operations, o.refundedAmount + activePaid o.id db.entitlements ≤ o.amount

/-- A later wallet in which no operation has paid or refunded more. -/
structure Sustains (db : Db) (w : WalletDb) : Prop where
  captured : ∀ o ∈ db.wallet.operations, o.state = .captured → ∃ o' ∈ w.operations, o'.id = o.id ∧
    o'.state = .captured ∧ chargedFor o' = chargedFor o
  traced : ∀ o' ∈ w.operations, (∃ o ∈ db.wallet.operations, o.id = o'.id ∧ o.refundedAmount = o'.refundedAmount ∧
      o.amount = o'.amount ∧ chargedFor o = chargedFor o') ∨
    (o'.refundedAmount = 0 ∧ 0 ≤ o'.amount ∧ ∀ e ∈ db.entitlements, ∀ f ∈ e.funding, f.operationId ≠ o'.id)

theorem Sustains.refl (db : Db) : Sustains db db.wallet :=
  ⟨fun o ho hstate => ⟨o, ho, rfl, hstate, rfl⟩, fun o ho => .inl ⟨o, ho, rfl, rfl, rfl, rfl⟩⟩

theorem Funded.sustained (hf : Funded db) (h : Sustains db db'.wallet) (hrows : db'.entitlements = db.entitlements) :
    Funded db' := by
  constructor
  case backing => exact fun e he => hf.backing e (hrows ▸ he)
  case captured =>
    intro e he f hmem
    obtain ⟨o, ho, hid, hstate, hbooking⟩ := hf.captured e (hrows ▸ he) f hmem
    obtain ⟨o', ho', hid', hstate', hbooking'⟩ := h.captured o ho hstate
    exact ⟨o', ho', hid'.trans hid, hstate', hbooking'.trans hbooking⟩
  case started =>
    intro o' ho' hpos
    rcases h.traced o' ho' with ⟨o, ho, -, hrefunded, -, hbooking⟩ | ⟨hzero, -⟩
    · obtain ⟨e, he, hcharged⟩ := hf.started o ho (hrefunded ▸ hpos)
      exact ⟨e, hrows ▸ he, hbooking ▸ hcharged⟩
    · omega
  case bound =>
    intro o' ho'
    rw [hrows]
    rcases h.traced o' ho' with ⟨o, ho, hid, hrefunded, hamount, -⟩ | ⟨hzero, hnonneg, hunnamed⟩
    · rw [← hid, ← hrefunded, ← hamount]
      exact hf.bound o ho
    · rw [activePaid_unnamed hunnamed]
      omega

/-- An operation that is not captured has paid nothing. -/
theorem Funded.unnamed (hk : Keys db) (hf : Funded db) (ho : o ∈ db.wallet.operations) (hstate : o.state ≠ .captured) :
    ∀ e ∈ db.entitlements, ∀ f ∈ e.funding, f.operationId ≠ o.id := by
  intro e he f hmem hid
  obtain ⟨o', ho', hid', hstate', -⟩ := hf.captured e he f hmem
  obtain rfl := hk.wallet.keyed.operations.eq_of_key ho' ho (hid'.trans hid)
  exact hstate hstate'

/-! ## Changes without a settlement -/

theorem Sustains.of_apart (hk' : Keys db') (hf : Funded db) (h : Apart db.wallet db'.wallet) :
    Sustains db db'.wallet := by
  refine ⟨fun o ho hstate => ⟨o, h.kept o ho (.inr hstate), rfl, hstate, rfl⟩, fun o' ho' => ?_⟩
  by_cases hold : o' ∈ db.wallet.operations
  · exact .inl ⟨o', hold, rfl, rfl, rfl, rfl⟩
  · have hzero : o'.refundedAmount = 0 := by
      rcases h.traced o' ho' with hmem | ⟨-, hzero⟩
      · exact absurd hmem hold
      · exact hzero
    refine .inr ⟨hzero, (hk'.wallet.operations o' ho').amount_pos.le, fun e he f hmem hid => ?_⟩
    -- a slice names a captured operation, and that one is still there as it was
    obtain ⟨o, ho, hsame, hstate, -⟩ := hf.captured e he f hmem
    obtain rfl := hk'.wallet.keyed.operations.eq_of_key (h.kept o ho (.inr hstate)) ho' (hsame.trans hid)
    exact hold ho

/-- A new operation. -/
theorem Sustains.concat {w : WalletDb} (hf : Funded db) (h : w.operations = db.wallet.operations ++ [o])
    (hnew : ∀ o' ∈ db.wallet.operations, o'.id ≠ o.id) (hzero : o.refundedAmount = 0) (hamount : 0 ≤ o.amount) :
    Sustains db w := by
  refine ⟨fun o' ho' hstate => ⟨o', h ▸ List.mem_append_left _ ho', rfl, hstate, rfl⟩, fun o' ho' => ?_⟩
  rw [h] at ho'
  rcases List.mem_append.mp ho' with hold | hlast
  · exact .inl ⟨o', hold, rfl, rfl, rfl, rfl⟩
  · obtain rfl := List.mem_singleton.mp hlast
    refine .inr ⟨hzero, hamount, fun e he f hmem hid => ?_⟩
    obtain ⟨o₁, ho₁, hsame, -⟩ := hf.captured e he f hmem
    exact hnew o₁ ho₁ (hsame.trans hid)

/-- A reserved operation that is closed. -/
theorem Sustains.closed {w : WalletDb} {state : OperationState} (hk : Keys db) (ho : o ∈ db.wallet.operations)
    (hreserved : o.state = .reserved)
    (h : w.operations =
      Library.modify WalletOperation.id o.id (fun o => { o with state := state }) db.wallet.operations) :
    Sustains db w := by
  constructor
  case captured =>
    intro o' ho' hstate
    have hne : o'.id ≠ o.id := by
      intro hid
      rw [hk.wallet.keyed.operations.eq_of_key ho' ho hid, hreserved] at hstate
      cases hstate
    exact ⟨o', h ▸ mem_modify_of_ne ho' hne, rfl, hstate, rfl⟩
  case traced =>
    intro o' ho'
    rw [h] at ho'
    rcases modify_cases ho' with ⟨hold, -⟩ | ⟨o₁, ho₁, -, rfl⟩
    · exact .inl ⟨o', hold, rfl, rfl, rfl, rfl⟩
    · exact .inl ⟨o₁, ho₁, rfl, rfl, rfl, rfl⟩

namespace Funded

theorem start (records : Records) : Funded (.start records) :=
  ⟨fun _ h => (nomatch h), fun _ h => (nomatch h), fun _ h => (nomatch h), fun _ h => (nomatch h)⟩

theorem initialized {b : ChargedBooking} {w : WalletOperation} {added : List Entitlement} (hk : Keys db)
    (hf : Funded db) (hb : Charged db.wallet b w) (h : Initialized desk.cs db b draw added) :
    Funded { db with entitlements := db.entitlements ++ added } := by
  obtain ⟨initial, hinitial, hall⟩ := h.rows
  have hadded : ∀ e ∈ added, e.bookingId = b.id ∧ e.funding = [⟨w.id, e.amount⟩] ∧ e.state = .active := by
    intro e he
    obtain ⟨entry, -, rfl⟩ := exists_left hall he
    exact ⟨rfl, by rw [← hb.operation]; rfl, rfl⟩
  have hamounts : (added.map (·.amount)).sum = w.amount := by
    have hmap : added.map (·.amount) = (initial.zipIdx.map Prod.fst).map (·.amountMinor) := by
      rw [List.map_map]
      exact TicketManagement.map_of_forall₂ hall fun entry e heq => by rw [heq]; rfl
    rw [hmap, List.zipIdx_map_fst, allocation_total hinitial, hb.amount]
  have hrows := (h.keeps hk.entitlements).amounts
  -- the booking had no rows, so its operation has neither paid nor refunded
  have hbefore : activePaid w.id db.entitlements = 0 := by
    refine activePaid_unnamed fun e he f hmem hid => ?_
    obtain ⟨o, ho, hsame, -, hbooking⟩ := hf.captured e he f hmem
    obtain rfl := hk.wallet.keyed.operations.eq_of_key ho hb.mem (hsame.trans hid)
    exact h.none e he (Option.some.inj (hbooking.symm.trans hb.booking))
  have hunrefunded : ¬ 0 < w.refundedAmount := by
    intro hpos
    obtain ⟨e, he, hbooking⟩ := hf.started w hb.mem hpos
    exact h.none e he (Option.some.inj (hbooking.symm.trans hb.booking))
  constructor
  case backing =>
    intro e he
    rcases List.mem_append.mp he with hold | hnew
    · exact hf.backing e hold
    · obtain ⟨hpos, hmax⟩ := hrows e he
      refine ⟨?_, fun f hmem => ?_, hmax⟩
      · rw [(hadded e hnew).2.1]
        show e.amount + 0 = e.amount
        omega
      · rw [(hadded e hnew).2.1, List.mem_singleton] at hmem
        rw [hmem]
        exact hpos
  case captured =>
    intro e he f hmem
    rcases List.mem_append.mp he with hold | hnew
    · exact hf.captured e hold f hmem
    · obtain ⟨hbooking, hfunding, -⟩ := hadded e hnew
      rw [hfunding, List.mem_singleton] at hmem
      exact ⟨w, hb.mem, by rw [hmem], hb.captured, by rw [hbooking, hb.booking]⟩
  case started =>
    intro o ho hpos
    obtain ⟨e, he, hbooking⟩ := hf.started o ho hpos
    exact ⟨e, List.mem_append_left _ he, hbooking⟩
  case bound =>
    intro o ho
    show o.refundedAmount + activePaid o.id (db.entitlements ++ added) ≤ o.amount
    have hactive : activePaid o.id added = (added.map (paidBy o.id)).sum :=
      activePaid_of_active fun e he => (hadded e he).2.2
    rw [activePaid_append, hactive]
    by_cases hid : o.id = w.id
    · obtain rfl := hk.wallet.keyed.operations.eq_of_key ho hb.mem hid
      have hpaid : (added.map (paidBy o.id)).sum = o.amount := by
        rw [← hamounts]
        refine sum_congr fun e he => ?_
        unfold paidBy
        rw [(hadded e he).2.1, sumOn_cons, sumOn_nil, if_pos rfl, Int.add_zero]
      rw [hpaid, hbefore]
      omega
    · have hnone : (added.map (paidBy o.id)).sum = 0 := by
        refine sum_zero fun e he => ?_
        unfold paidBy
        rw [(hadded e he).2.1, sumOn_cons, sumOn_nil, if_neg (Ne.symm hid), Int.add_zero]
      rw [hnone, Int.add_zero]
      exact hf.bound o ho

theorem quiet (hk : Keys db) (hf : Funded db) (h : Quiet desk db db') : Funded db' := by
  have hsame := h.same.1
  cases h with
  | initialized b w draw added hcharged hinitialized => exact hf.initialized hk hcharged hinitialized
  | created r selected hcreated =>
    obtain ⟨ev, -, -, -, -, rfl⟩ := hcreated.log.event
    exact hf.sustained (.refl db) rfl
  | expired r saved now hexpired =>
    refine hf.sustained ?_ hexpired.tables.2.2.1
    rw [hsame]
    exact .refl db
  | remembered rows => exact hf.sustained (.refl db) rfl
  | recorded records => exact hf.sustained (.refl db) rfl

theorem outside (hk : Keys db) (hf : Funded db) (h : Outside desk db db') : Funded db' := by
  refine hf.sustained (.of_apart (hk.outside h) hf (h.apart hk)) ?_
  cases h <;> rfl

end Funded

/-! ## Settlements -/

/-- The difference that a new ticket adds to an entitlement. -/
def differenceOf (tickets : List NewTicket) (e : Entitlement) : Int :=
  ((ticketOf tickets e.id).map (·.fareDifferenceAmountMinor)).getD 0

/-- A successor is paid as its predecessor was, and its difference by the hold. -/
theorem Succeeded.paidBy_eq {cs : Casing} {tickets : List NewTicket} {entry : Entitlement × Uuid} {e : Entitlement}
    {t : NewTicket} {added : List Funding} (h : Succeeded cs r tickets entry e t added) (o : Uuid) :
    paidBy o e = paidBy o entry.1 + if r.holdOperationId = some o then differenceOf tickets entry.1 else 0 := by
  have hdifference : differenceOf tickets entry.1 = t.fareDifferenceAmountMinor := by
    unfold differenceOf
    rw [h.ticket]
    rfl
  rw [hdifference, h.row]
  show sumOn _ _ o (entry.1.funding ++ added) = sumOn _ _ o entry.1.funding + _
  rw [sumOn_append]
  congr 1
  rcases h.funding with ⟨rfl, hzero⟩ | ⟨hold, hhold, -, rfl⟩
  · rw [sumOn_nil, hzero, ite_self]
  · rw [sumOn_cons, sumOn_nil, Int.add_zero, hhold]
    exact if_congr Option.some_inj.symm rfl rfl

theorem Succeeded.backing {cs : Casing} {tickets : List NewTicket} {entry : Entitlement × Uuid} {e : Entitlement}
    {t : NewTicket} {added : List Funding} (h : Succeeded cs r tickets entry e t added) (hb : Backing entry.1)
    (hbound : e.amount ≤ TicketManagement.maxMinor) : Backing e := by
  refine ⟨?_, fun f hf => ?_, hbound⟩
  · rw [h.row]
    show ((entry.1.funding ++ added).map (·.amount)).sum = entry.1.amount + t.fareDifferenceAmountMinor
    rw [List.map_append, List.sum_append, hb.total]
    rcases h.funding with ⟨rfl, hzero⟩ | ⟨hold, -, -, rfl⟩
    · rw [hzero]
      rfl
    · show _ + (t.fareDifferenceAmountMinor + 0) = _
      omega
  · rw [h.row] at hf
    rcases List.mem_append.mp hf with hold | hnew
    · exact hb.positive f hold
    · rcases h.funding with ⟨rfl, -⟩ | ⟨hold, -, hpos, rfl⟩
      · cases hnew
      · rw [List.mem_singleton.mp hnew]
        exact hpos

theorem sum_successors {cs : Casing} {tickets : List NewTicket} {named : List (Entitlement × Uuid)}
    {added : List Entitlement}
    (h : List.Forall₂ (fun entry e => ∃ t funding, Succeeded cs r tickets entry e t funding) named added) (o : Uuid) :
    (added.map (paidBy o)).sum = ((named.map Prod.fst).map (paidBy o)).sum +
      if r.holdOperationId = some o then ((named.map Prod.fst).map (differenceOf tickets)).sum else 0 := by
  induction h with
  | nil => simp only [List.map_nil, List.sum_nil, ite_self, Int.add_zero]
  | cons hfirst _ ih =>
    obtain ⟨t, funding, hsucceeded⟩ := hfirst
    simp only [List.map_cons, List.sum_cons]
    rw [ih, hsucceeded.paidBy_eq o]
    split <;> omega

/-- What the new rows of a settlement are paid by: what the closed ones were, and the customer. -/
theorem Rewritten.paid_le {cs : Casing} {rows added : List Entitlement} (hf : Funded db)
    (hvalid : Validated db r row.data)
    (h : Rewritten cs db r row rows added) (o : Uuid) :
    (added.map (paidBy o)).sum ≤ ((selections db r).map (paidBy o)).sum +
      if r.holdOperationId = some o then row.data.customerAmountMinor else 0 := by
  have hnonneg : 0 ≤ ((selections db r).map (paidBy o)).sum :=
    sum_nonneg fun e he => (hf.backing e (mem_selections.mp he).1).paidBy_nonneg o
  have hcustomer : 0 ≤ row.data.customerAmountMinor :=
    (hvalid.exact.amounts row.data.customerAmountMinor (by simp [Quote.amounts])).1
  rcases h.successors with rfl | ⟨haction, tickets, named, htickets, hnamed, hall⟩
  · rw [List.map_nil, List.sum_nil]
    split <;> omega
  · have hchecked : row.data.Checked .reissue (amountsOf (selections db r)) := haction ▸ hvalid
    have hdifferences : ((selections db r).map (differenceOf tickets)).sum ≤ row.data.customerAmountMinor :=
      hchecked.differences_le htickets
    rw [sum_successors hall o, hnamed]
    split <;> omega

/-- A credit follows nothing: only a refund and a void give one. -/
theorem Rewritten.added_nil {cs : Casing} {rows added : List Entitlement} (hvalid : Validated db r row.data)
    (hdirection : row.data.direction = .credit) (h : Rewritten cs db r row rows added) : added = [] := by
  rcases h.successors with hnil | ⟨haction, -⟩
  · exact hnil
  · have hchecked : row.data.Checked .reissue (amountsOf (selections db r)) := haction ▸ hvalid
    have hreissue := (hchecked.exact.reissue rfl).2
    rw [hdirection] at hreissue
    split at hreissue <;> cases hreissue

/-- What was paid of the active rows after a settlement. -/
theorem Rewritten.activePaid_eq {cs : Casing} {rows added : List Entitlement} (hk : Keys db)
    (hactive : ∀ e ∈ selections db r, e.state = .active) (h : Rewritten cs db r row rows added) (o : Uuid) :
    activePaid o rows + ((selections db r).map (paidBy o)).sum =
      activePaid o db.entitlements + (added.map (paidBy o)).sum := by
  have hadded : ∀ e ∈ added, e.state = .active := by
    intro e he
    rcases h.successors with rfl | ⟨-, tickets, named, -, -, hall⟩
    · cases he
    · obtain ⟨entry, -, t, funding, hsucceeded⟩ := exists_left hall he
      rw [hsucceeded.row]
      rfl
  have hclosed : activePaid o (closeRows (outcomeOf r.action) ((selections db r).map (·.id)) db.entitlements) + _ = _ :=
    activePaid_closeRows o hk.entitlements.ids (selections_perm db r) hactive
  rw [h.table, activePaid_append, activePaid_of_active hadded]
  omega

/-- The rows of a settlement are backed by captured operations of their booking. -/
theorem Rewritten.rows_backed {cs : Casing} {rows added : List Entitlement} (hk : Keys db) (hc : Claimed db)
    (hf : Funded db) (hr : r ∈ db.requests) (h : Rewritten cs db r row rows added) :
    ∀ e ∈ rows, Backing e ∧ ∀ f ∈ e.funding,
      (∃ o ∈ db.wallet.operations, o.id = f.operationId ∧ o.state = .captured ∧ chargedFor o = some e.bookingId) ∨
      (r.holdOperationId = some f.operationId ∧ e.bookingId = r.bookingId) := by
  intro e he
  have hbound := ((h.keeps hk.entitlements).amounts e he).2
  rw [h.table] at he
  rcases List.mem_append.mp he with hold | hnew
  · obtain ⟨e₀, he₀, hrow⟩ := mem_closeRows hold
    have hb := hf.backing e₀ he₀
    rcases hrow with ⟨-, heq⟩ | ⟨-, heq⟩
    all_goals
      rw [heq]
      exact ⟨⟨hb.total, hb.positive, hb.bound⟩, fun f hmem => .inl (hf.captured e₀ he₀ f hmem)⟩
  · rcases h.successors with rfl | ⟨-, tickets, named, -, hnamed, hall⟩
    · cases hnew
    · obtain ⟨entry, hentry, t, funding, hsucceeded⟩ := exists_left hall hnew
      have hselected : entry.1 ∈ selections db r := hnamed ▸ List.mem_map_of_mem hentry
      obtain ⟨hmem, hselects⟩ := mem_selections.mp hselected
      -- the predecessor is of the booking of the request
      have hbooking : entry.1.bookingId = r.bookingId := by
        obtain ⟨r', hr', hid, e', he', hid', hsame⟩ := hc.selected _ hselects
        obtain rfl := hk.requests.eq_of_key hr' hr hid
        obtain rfl := hk.entitlements.ids.eq_of_key he' hmem hid'
        exact hsame
      refine ⟨hsucceeded.backing (hf.backing entry.1 hmem) hbound, fun f hfunding => ?_⟩
      have hebooking : e.bookingId = r.bookingId := by
        rw [hsucceeded.row]
        rfl
      rw [hsucceeded.row] at hfunding
      rcases List.mem_append.mp hfunding with hold | hlast
      · obtain ⟨o, ho, hid, hstate, hcharged⟩ := hf.captured entry.1 hmem f hold
        exact .inl ⟨o, ho, hid, hstate, by rw [hcharged, hebooking, hbooking]⟩
      · rcases hsucceeded.funding with ⟨rfl, -⟩ | ⟨id, hhold, -, rfl⟩
        · cases hlast
        · rw [List.mem_singleton.mp hlast]
          exact .inr ⟨hhold, hebooking⟩

/-- The booking of a row does not change as it is closed. -/
theorem Rewritten.bookings {cs : Casing} {rows added : List Entitlement} (h : Rewritten cs db r row rows added) :
    ∀ e ∈ db.entitlements, ∃ e' ∈ rows, e'.bookingId = e.bookingId := by
  intro e he
  have hclosed := List.mem_map_of_mem (f := fun e => if e.id ∈ (selections db r).map (·.id) then
    { e with state := closedState (outcomeOf r.action) } else e) he
  refine ⟨_, h.table ▸ List.mem_append_left _ hclosed, ?_⟩
  split <;> rfl

/-- The tables after a settlement, from what became of the operations. -/
theorem Funded.rewritten {wallet : WalletDb} {rows added : List Entitlement} (hk : Keys db) (hc : Claimed db)
    (hf : Funded db) (hr : r ∈ db.requests) (h : Rewritten desk.cs db r row rows added)
    (hkept : ∀ o ∈ db.wallet.operations, o.state = .captured → ∃ o' ∈ wallet.operations, o'.id = o.id ∧
      o'.state = .captured ∧ chargedFor o' = chargedFor o)
    (hhold : ∀ id, r.holdOperationId = some id → ∃ o' ∈ wallet.operations, o'.id = id ∧ o'.state = .captured ∧
      chargedFor o' = some r.bookingId)
    (hstarted : ∀ o' ∈ wallet.operations, 0 < o'.refundedAmount →
      ∃ e ∈ db.entitlements, chargedFor o' = some e.bookingId)
    (hbound : ∀ o' ∈ wallet.operations, o'.refundedAmount + activePaid o'.id rows ≤ o'.amount) :
    Funded { db with wallet := wallet, entitlements := rows } := by
  have hrows := h.rows_backed hk hc hf hr
  constructor
  case backing => exact fun e he => (hrows e he).1
  case captured =>
    intro e he f hmem
    rcases (hrows e he).2 f hmem with ⟨o, ho, hid, hstate, hcharged⟩ | ⟨hsome, hbooking⟩
    · obtain ⟨o', ho', hid', hstate', hcharged'⟩ := hkept o ho hstate
      exact ⟨o', ho', hid'.trans hid, hstate', hcharged'.trans hcharged⟩
    · obtain ⟨o', ho', hid', hstate', hcharged'⟩ := hhold f.operationId hsome
      exact ⟨o', ho', hid', hstate', by rw [hcharged', hbooking]⟩
  case started =>
    intro o' ho' hpos
    obtain ⟨e, he, hcharged⟩ := hstarted o' ho' hpos
    obtain ⟨e', he', hbooking⟩ := h.bookings e he
    exact ⟨e', he', by rw [hcharged, hbooking]⟩
  case bound => exact hbound

/-- The tables after a settlement that pays nothing back. -/
theorem Funded.unpaid {wallet : WalletDb} {rows added : List Entitlement} (hk : Keys db) (hc : Claimed db)
    (hf : Funded db) (hr : r ∈ db.requests) (h : Rewritten desk.cs db r row rows added)
    (hsustains : Sustains db wallet)
    (hhold : ∀ id, r.holdOperationId = some id → ∃ o' ∈ wallet.operations, o'.id = id ∧ o'.state = .captured ∧
      chargedFor o' = some r.bookingId)
    (hbound : ∀ o' ∈ wallet.operations, o'.refundedAmount + activePaid o'.id rows ≤ o'.amount) :
    Funded { db with wallet := wallet, entitlements := rows } := by
  refine hf.rewritten hk hc hr h hsustains.captured hhold (fun o' ho' hpos => ?_) hbound
  rcases hsustains.traced o' ho' with ⟨o, ho, -, hrefunded, -, hcharged⟩ | ⟨hzero, -⟩
  · obtain ⟨e, he, hbooking⟩ := hf.started o ho (hrefunded ▸ hpos)
    exact ⟨e, he, hcharged ▸ hbooking⟩
  · omega

/-- A credit is covered by the entitlements it is for. -/
theorem Validated.credit_le (hvalid : Validated db r row.data) (hdirection : row.data.direction = .credit) :
    0 ≤ row.data.customerAmountMinor ∧ row.data.customerAmountMinor ≤ ((selections db r).map (·.amount)).sum := by
  have hexact := hvalid.exact
  have hrange : ∀ n ∈ row.data.amounts, 0 ≤ n := fun n hn => (hexact.amounts n hn).1
  have hcustomer := hrange row.data.customerAmountMinor (by simp [Quote.amounts])
  have hairline := hrange row.data.airlineFeeMinor (by simp [Quote.amounts])
  have hvoid := hrange row.data.voidFeeMinor (by simp [Quote.amounts])
  have hservice := hrange row.data.serviceFeeMinor (by simp [Quote.amounts])
  have htotal :
      TicketManagement.selectedTotal (amountsOf (selections db r)) = ((selections db r).map (·.amount)).sum := by
    unfold TicketManagement.selectedTotal amountsOf
    rw [List.map_map]
    rfl
  have hcredit : row.data.credit = row.data.customerAmountMinor := if_pos hdirection
  have hdebit : row.data.debit = 0 := if_neg (by rw [hdirection]; decide)
  have hfees : 0 ≤ row.data.fees := by
    show 0 ≤ row.data.airlineFeeMinor + row.data.voidFeeMinor + row.data.serviceFeeMinor
    omega
  refine ⟨hcustomer, ?_⟩
  rw [← htotal]
  cases haction : r.action with
  | refund =>
    have hrefund := (hexact.refund haction).1
    omega
  | void =>
    have hvoid := hexact.void haction
    omega
  | reissue =>
    have hreissue := (hexact.reissue haction).2
    rw [hdirection] at hreissue
    split at hreissue <;> cases hreissue

/-- The credits of an operation are at most what it has paid of the selected entitlements. -/
theorem Distributed.sumOn_le {selected : List Entitlement} {amount : Int} {cs : List (Uuid × Int)}
    (h : Distributed selected amount cs) (hselected : ∀ e ∈ selected, Backing e) (o : Uuid) :
    sumOn Prod.fst Prod.snd o cs ≤ (selected.map (paidBy o)).sum := by
  by_cases hmem : ∃ c ∈ cs, c.1 = o
  · obtain ⟨c, hc, rfl⟩ := hmem
    have hone : sumOn Prod.fst Prod.snd c.1 cs = c.2 := h.keys.sum_key hc Prod.snd
    rw [hone]
    exact (h.share c hc).2
  · have hzero : sumOn Prod.fst Prod.snd o cs = 0 := sumOn_eq_zero fun c hc hid => hmem ⟨c, hc, hid⟩
    rw [hzero]
    exact sum_nonneg fun e he => (hselected e he).paidBy_nonneg o

theorem chargedFor_of_identity {o' : WalletOperation} (h : o'.identity = o.identity) :
    chargedFor o' = chargedFor o := by
  rw [WalletOperation.of_identity h]
  rfl

theorem amount_of_identity {o' : WalletOperation} (h : o'.identity = o.identity) : o'.amount = o.amount := by
  rw [WalletOperation.of_identity h]

/-- A settlement moves what backs the entitlements, and never more than was captured. -/
theorem Funded.settled {wallet : WalletDb} {rows added : List Entitlement} (hk : Keys db) (hc : Claimed db)
    (hf : Funded db) (hr : r ∈ db.requests) (hsettling : Settling db actor r row)
    (hvalid : Validated db r row.data) (hpaid : Paid desk db actor r row draw wallet)
    (h : Rewritten desk.cs db r row rows added) : Funded { db with wallet := wallet, entitlements := rows } := by
  have hactive := fun o => h.activePaid_eq hk hsettling.selected.2 o
  have hpays := fun o => h.paid_le hf hvalid o
  cases hpaid with
  | debit o o' hholding hsettle =>
    have hoperations := settle_reserved hk.wallet.toSound hholding.mem hholding.reserved hsettle
    have hsustains : Sustains db wallet := .closed hk hholding.mem hholding.reserved hoperations
    refine hf.unpaid hk hc hr h hsustains (fun id hsome => ?_) fun o₁ ho₁ => ?_
    · obtain rfl := Option.some.inj (hholding.hold.symm.trans hsome)
      refine ⟨{ o with state := .captured }, hoperations ▸ mem_modify_of_mem hholding.mem rfl, rfl, rfl, ?_⟩
      show (if o.subjectKind = .manualIssue then some o.subjectId else o.bookingId) = _
      rw [if_neg (by rw [hholding.kind]; decide), hholding.booking]
    · have hactive := hactive o₁.id
      have hpays := hpays o₁.id
      rw [hoperations] at ho₁
      rcases modify_cases ho₁ with ⟨hold, hne⟩ | ⟨o₂, hold, hid, rfl⟩
      · -- another operation pays for no successor
        rw [hholding.hold, if_neg fun hsome => hne (Option.some.inj hsome).symm] at hpays
        have hbound := hf.bound o₁ hold
        omega
      · obtain rfl := hk.wallet.keyed.operations.eq_of_key hold hholding.mem hid
        have hzero : o₂.refundedAmount = 0 :=
          (not_refunded hk.wallet.toSound hold (by rw [hholding.reserved]; rfl)).1
        have hnone : activePaid o₂.id db.entitlements = 0 :=
          activePaid_unnamed (hf.unnamed hk hold (by rw [hholding.reserved]; decide))
        have hamount := hholding.amount
        show o₂.refundedAmount + activePaid o₂.id rows ≤ o₂.amount
        replace hpays : (added.map (paidBy o₂.id)).sum ≤ ((selections db r).map (paidBy o₂.id)).sum +
            if r.holdOperationId = some o₂.id then row.data.customerAmountMinor else 0 := hpays
        replace hactive : activePaid o₂.id rows + ((selections db r).map (paidBy o₂.id)).sum =
            activePaid o₂.id db.entitlements + (added.map (paidBy o₂.id)).sum := hactive
        rw [if_pos hholding.hold] at hpays
        omega
  | none hdirection hhold hwallet =>
    subst hwallet
    refine hf.unpaid hk hc hr h (.refl db) (fun id hsome => ?_) fun o ho => ?_
    · rw [hhold] at hsome
      cases hsome
    · have hactive := hactive o.id
      have hpays := hpays o.id
      have hbound := hf.bound o ho
      rw [hhold, if_neg (Option.some_ne_none _).symm] at hpays
      omega
  | credit cs entries hdirection hhold hcredits hpost =>
    have hselected : ∀ e ∈ selections db r, Backing e := fun e he => hf.backing e (mem_selections.mp he).1
    obtain ⟨hnonneg, hcovers⟩ := hvalid.credit_le hdirection
    obtain ⟨cs', hcs', hdistributed⟩ := credits_distributed hselected hnonneg hcovers
    obtain ⟨rfl, -⟩ := Prod.mk.inj (Except.ok.inj (hcs'.symm.trans hcredits))
    have hrefunded := postCredits_refunded hpost
    obtain rfl := h.added_nil hvalid hdirection
    refine hf.rewritten hk hc hr h (fun o ho hstate => ?_) (fun id hsome => ?_) (fun o' ho' hpos => ?_) fun o' ho' => ?_
    · obtain ⟨o', ho', hsame, hstate'⟩ := hrefunded.forth o ho
      exact ⟨o', ho', (identity_eq hsame).1, hstate'.trans hstate, chargedFor_of_identity hsame⟩
    · rw [hhold] at hsome
      cases hsome
    · obtain ⟨o, ho, hsame, -, hle⟩ := hrefunded.back o' ho'
      rw [chargedFor_of_identity hsame.symm]
      by_cases hold : 0 < o.refundedAmount
      · exact hf.started o ho hold
      · -- what was refunded now was a slice of an entitlement
        have hcredited : sumOn Prod.fst Prod.snd o'.id cs' ≠ 0 := by omega
        obtain ⟨c, hc', hid⟩ := exists_of_sumOn hcredited
        obtain ⟨e, he, f, hmem, hoperation⟩ := hdistributed.sources c hc'
        obtain ⟨o₁, ho₁, hid₁, -, hcharged⟩ := hf.captured e (mem_selections.mp he).1 f hmem
        have hsameid : o₁.id = o.id := by rw [hid₁, hoperation, hid, (identity_eq hsame).1]
        obtain rfl := hk.wallet.keyed.operations.eq_of_key ho₁ ho hsameid
        exact ⟨e, (mem_selections.mp he).1, hcharged⟩
    · obtain ⟨o, ho, hsame, -, hle⟩ := hrefunded.back o' ho'
      have hid := (identity_eq hsame).1
      have hamount := amount_of_identity hsame
      have hbound := hf.bound o ho
      have hactive := hactive o'.id
      have hshare := hdistributed.sumOn_le hselected o'.id
      rw [List.map_nil, List.sum_nil] at hactive
      rw [hid] at hbound
      omega

theorem Funded.turned (hk : Keys db) (hc : Claimed db) (hh : Held db) (hf : Funded db)
    (h : Turned desk db actor r input draw saved db') : Funded db' := by
  have hb := hh.backed r h.mem
  have hk' := hk.turned h
  obtain ⟨db₁, r₁, hturn, -, -, -, hwallet, hentitlements, -⟩ := h.tables
  cases hturn with
  | moved | published | confirmed | assigned | reopened =>
    refine hf.sustained ?_ hentitlements
    rw [hwallet]
    exact .refl db
  | held row note o wallet hinput hrole hoffered hdirection hreserve hreserved =>
    obtain ⟨hnew, hoperations, -⟩ := hh.reserve_new hk h.mem hoffered hreserve hreserved
    have hmem : o ∈ db'.wallet.operations := by
      rw [hwallet]
      show o ∈ wallet.operations
      rw [hoperations]
      exact List.mem_append_right _ (List.mem_singleton_self o)
    have hzero := (not_refunded hk'.wallet.toSound hmem (by rw [hreserved]; rfl)).1
    have hamount := (hk'.wallet.operations o hmem).amount_pos.le
    refine hf.sustained ?_ hentitlements
    rw [hwallet]
    exact .concat hf hoperations hnew hzero hamount
  | released row o o' wallet hstatus hholding hsettle =>
    have hoperations := settle_reserved hk.wallet.toSound hholding.mem hholding.reserved hsettle
    refine hf.sustained ?_ hentitlements
    rw [hwallet]
    exact .closed hk hholding.mem hholding.reserved hoperations
  | settled row wallet rows added hsettling hpaid hrewritten =>
    obtain ⟨row', hrow', hid, -, hvalid⟩ := hb.active row.id hsettling.active
    obtain rfl := hk.quotes.eq_of_key hrow' hsettling.mem hid
    have hsettled := hf.settled hk hc h.mem hsettling (hvalid h.unended) hpaid hrewritten
    refine hsettled.sustained ?_ hentitlements
    rw [hwallet]
    exact .refl _

end ShaponTravels.Wallet.Tickets
