import ShaponTravels.Wallet.TicketFunding

/-!
# TicketConserved — the money behind the tickets of every reachable state

What an operation has refunded and what it still pays of the active entitlements is at most what it captured.
So a credit is spread without a rest, and none of its refunds is refused for exceeding a capture.
-/

namespace ShaponTravels.Wallet

open Library

variable {subjects : List FinancialSubject} {w : WalletDb} {p : PostingArgs} {o : WalletOperation}

/-- A refund for which its operation has room is not refused for exceeding it. -/
theorem refund_fits (hoperations : KeyUnique WalletOperation.id w.operations) (htype : p.type = "refund")
    (hnamed : p.operation = some o.id) (ho : o ∈ w.operations) (hstate : o.state = .captured)
    (hroom : p.amount ≤ o.amount - o.refundedAmount) :
    FailsWith (· ≠ .raised "REFUND_EXCEEDS_CAPTURE") (walletApplyPosting subjects w p) := by
  have hfound : (p.operation.bind fun id => lookup WalletOperation.id id w.operations) = some o := by
    rw [hnamed]
    exact hoperations.lookup ho
  have hranged : ∀ n, FailsWith (· ≠ .raised "REFUND_EXCEEDS_CAPTURE") (bigint n) := by
    intro n e he
    unfold bigint at he
    split at he
    · cases he
    · obtain rfl := Except.error.inj he
      decide
  unfold walletApplyPosting ownerAndAccount
  refine .bind (.bind (.fetch fun _ => by decide) fun a _ => .bind (.fetch fun _ => by decide) fun _ _ => .pure _) ?_
  rintro ⟨owner, a⟩ -
  dsimp only
  split
  · exact .bind (.ensure fun _ => by decide) fun _ _ => .pure _
  · unfold applyFresh
    rw [htype]
    refine .bind (.ensure fun _ => by decide) fun _ _ => .bind ?_ fun _ _ => ?_
    · -- the one check that raises it is about the room of the operation
      refine .bind (.fetch fun _ => by decide) fun o' ho' => .bind (.ensure fun _ => by decide) fun _ _ => ?_
      refine .ensure fun hno => ?_
      obtain rfl := Option.some.inj (hfound.symm.trans (fetch_eq_ok.mp ho'))
      exact absurd ⟨hstate, hroom⟩ hno
    refine .bind (.ensure fun _ => by decide) fun _ _ => .bind (.fetch fun _ => by decide) fun t _ => ?_
    refine .bind (hranged _) fun _ _ => .bind (hranged _) fun _ _ => .bind (.ensure fun _ => by decide) fun _ _ => ?_
    refine .bind (.ensure fun _ => by decide) fun _ _ => .bind (hranged _) fun _ _ => .bind ?_ fun entries _ => ?_
    · unfold insertEntry
      iterate 11 refine .bind (.ensure fun _ => by decide) fun _ _ => ?_
      exact .pure _
    · unfold updateBalances
      exact .bind (.bind (.ensure fun _ => by decide) fun _ _ => .pure _) fun _ _ => .pure _

/-- Only that error of the database becomes that answer. -/
theorem dbError_exceeds {e : DbError} (h : dbError e = conflict "REFUND_EXCEEDS_CAPTURE") :
    e = .raised "REFUND_EXCEEDS_CAPTURE" := by
  have hother : ∀ e, ApiError.ofDb e ≠ conflict "REFUND_EXCEEDS_CAPTURE" := fun e he =>
    absurd (congrArg ApiError.code he) (show "DATABASE_UNAVAILABLE" ≠ "REFUND_EXCEEDS_CAPTURE" by decide)
  cases e with
  | raised message =>
    change (if message ∈ raisedCodes then conflict message else .ofDb (.raised message)) = _ at h
    split at h
    · exact congrArg DbError.raised (congrArg ApiError.code h)
    · exact absurd h (hother _)
  | unique name =>
    change (if startsWith name "wallet_setting_" then conflict "DUPLICATE_WALLET_SETTING" else
      .ofDb (.unique name)) = _ at h
    split at h
    · exact absurd h (by decide)
    · exact absurd h (hother _)
  | violated name => exact absurd h (hother (.violated name))
  | noRow => exact absurd h (hother .noRow)
  | outOfRange => exact absurd h (by decide)

end ShaponTravels.Wallet

namespace ShaponTravels.Wallet.Tickets

open Library
open TicketManagement (Direction Entitlement)
open Nonissuance (Actor)

variable {desk : Desk} {db db' : Db} {actor : Actor} {r : Request} {draw : Draw}

/-! ## The refunds of a credit -/

/-- Every credit has a captured operation with room for it. -/
def Roomy (ops : List WalletOperation) (cs : List (Uuid × Int)) : Prop :=
  ∀ c ∈ cs, ∃ o ∈ ops, o.id = c.1 ∧ o.state = .captured ∧ c.2 ≤ o.amount - o.refundedAmount

theorem post_fits {subjects : List FinancialSubject} {w : WalletDb} {c : Uuid × Int} {draw : Wallet.Draw}
    (hoperations : KeyUnique WalletOperation.id w.operations) (hroom : Roomy w.operations [c]) :
    FailsWith (· ≠ conflict "REFUND_EXCEEDS_CAPTURE") (Wallet.post desk.pf subjects w (refundOf actor r c) draw) := by
  obtain ⟨o, ho, hid, hstate, hle⟩ := hroom c (List.mem_singleton_self c)
  unfold Wallet.post
  refine .bind (.ensure fun _ => by decide) fun _ _ => ?_
  have hnamed : ((refundOf actor r c).args desk.pf draw).operation = some o.id := congrArg some hid.symm
  have hfits : FailsWith (· ≠ .raised "REFUND_EXCEEDS_CAPTURE") (walletApplyPosting subjects w _) :=
    refund_fits hoperations rfl hnamed ho hstate hle
  intro e he heq
  cases hpost : walletApplyPosting subjects w ((refundOf actor r c).args desk.pf draw) with
  | ok posted =>
    rw [hpost] at he
    cases he
  | error e' =>
    rw [hpost] at he
    obtain rfl := Except.error.inj he
    exact hfits e' hpost (dbError_exceeds heq)

/-- A refund leaves room for the other credits. -/
theorem Roomy.after {subjects : List FinancialSubject} {w w' : WalletDb} {c : Uuid × Int} {cs : List (Uuid × Int)}
    {e : LedgerEntry} {draw : Wallet.Draw} (hother : ∀ c' ∈ cs, c'.1 ≠ c.1)
    (hoperations : KeyUnique WalletOperation.id w.operations) (hroom : Roomy w.operations cs)
    (h : Wallet.post desk.pf subjects w (refundOf actor r c) draw = .ok (e, w')) :
    KeyUnique WalletOperation.id w'.operations ∧ Roomy w'.operations cs := by
  rcases posting_operations (Wallet.post_ok h) with rfl | ⟨t, ht, hrecorded⟩
  · exact ⟨hoperations, hroom⟩
  obtain rfl : TransactionType.refund = t := TransactionType.text_inj ht
  replace hrecorded : w'.operations =
      Library.modify WalletOperation.id c.1 (recordOperation .refund c.2) w.operations := hrecorded
  rw [hrecorded]
  refine ⟨hoperations.modify fun _ => rfl, fun c' hc' => ?_⟩
  obtain ⟨o, ho, hid, hstate, hle⟩ := hroom c' hc'
  exact ⟨o, mem_modify_of_ne ho (hid.trans_ne (hother c' hc')), hid, hstate, hle⟩

/-- None of the refunds of a credit is refused for exceeding a capture. -/
theorem postCredits_fits {subjects : List FinancialSubject} {w : WalletDb} {cs : List (Uuid × Int)}
    (hoperations : KeyUnique WalletOperation.id w.operations) (hkeys : KeyUnique Prod.fst cs)
    (hroom : Roomy w.operations cs) :
    FailsWith (· ≠ conflict "REFUND_EXCEEDS_CAPTURE") (postCredits desk subjects w actor r cs draw) := by
  have hloop : ∀ (numbered : List ((Uuid × Int) × Nat)) (s : List Uuid × WalletDb),
      KeyUnique WalletOperation.id s.2.operations → KeyUnique Prod.fst (numbered.map Prod.fst) →
      Roomy s.2.operations (numbered.map Prod.fst) →
      FailsWith (· ≠ conflict "REFUND_EXCEEDS_CAPTURE") (numbered.foldlM (fun s c => do
        let posted ← Wallet.post desk.pf subjects s.2 (refundOf actor r c.1) (draw.entry c.2)
        return (s.1 ++ [posted.1.id], posted.2)) s) := by
    intro numbered
    induction numbered with
    | nil => exact fun s _ _ _ => .pure s
    | cons c numbered ih =>
      intro s hoperations hkeys hroom
      rw [List.map_cons] at hkeys hroom
      obtain ⟨hother, hkeys⟩ := keyUnique_cons.mp hkeys
      rw [List.foldlM_cons]
      have hfirst : Roomy s.2.operations [c.1] := fun c' hc' =>
        hroom c' (List.mem_cons.mpr (.inl (List.mem_singleton.mp hc')))
      refine .bind (.bind (post_fits hoperations hfirst) fun _ _ => .pure _) fun s' hs' => ?_
      simp only [bind_eq_ok, pure_eq_ok] at hs'
      obtain ⟨⟨e, next⟩, hpost, rfl⟩ := hs'
      obtain ⟨hoperations', hroom'⟩ := Roomy.after hother hoperations
        (fun c' hc' => hroom c' (List.mem_cons_of_mem _ hc')) hpost
      exact ih (s.1 ++ [e.id], next) hoperations' hkeys hroom'
  have hnumbered : cs.zipIdx.map Prod.fst = cs := List.zipIdx_map_fst 0 cs
  exact hloop cs.zipIdx ([], w) hoperations (hnumbered.symm ▸ hkeys) (hnumbered.symm ▸ hroom)

/-! ## Reachable states -/

/-- What the active entitlements of a booking were paid by an operation. -/
def paidFor (db : Db) (booking o : Uuid) : Int :=
  (((db.entitlementsOf booking).filter fun e => e.state = .active).map fun e =>
    ((e.funding.filter fun f => f.operationId = o).map (·.amount)).sum).sum

/-- The money of the captured operations is conserved, and a credit that is due can be paid. -/
structure Conserved (desk : Desk) (db : Db) : Prop where
  captured : ∀ o ∈ db.wallet.operations, o.state = .captured → ∀ booking,
    o.refundedAmount + paidFor db booking o.id ≤ o.amount
  funded : ∀ e ∈ db.entitlements, e.state = .active → (e.funding.map (·.amount)).sum = e.amount
  credited : ∀ r ∈ db.requests, r.status = .approved → r.terminalOutcome = none →
    ∀ q, quote db r.approvedQuoteId = .ok q → q.direction = .credit →
      ∃ cs, credits (selections db r) q.customerAmountMinor = .ok (cs, 0) ∧
        ∀ subjects actor draw error, postCredits desk subjects db.wallet actor r cs draw = .error error →
          error ≠ conflict "REFUND_EXCEEDS_CAPTURE"

/-- The tables in order, and the money behind the entitlements. -/
structure Solvent (db : Db) : Prop where
  tidy : Tidy db
  funded : Funded db

theorem Solvent.quiet (h : Solvent db) (hquiet : Quiet desk db db') : Solvent db' where
  tidy := ⟨h.tidy.keys.quiet hquiet, h.tidy.claimed.quiet h.tidy.keys hquiet,
    h.tidy.held.quiet h.tidy.keys h.tidy.claimed hquiet⟩
  funded := h.funded.quiet h.tidy.keys hquiet

theorem Solvent.calm (h : Solvent db) (hcalm : Calm desk db db') : Solvent db' := by
  induction hcalm with
  | refl => exact h
  | tail _ hstep ih => exact ih.quiet hstep

theorem Solvent.turned {saved : Request} {input : Mutation} (h : Solvent db)
    (hturned : Turned desk db actor r input draw saved db') : Solvent db' := by
  obtain ⟨⟨hk, hc, hh⟩, hf⟩ := h
  exact ⟨⟨hk.turned hturned, hc.turned hk hturned, hh.turned hk hc hturned⟩, hf.turned hk hc hh hturned⟩

theorem Solvent.outside (h : Solvent db) (houtside : Outside desk db db') : Solvent db' := by
  obtain ⟨⟨hk, hc, hh⟩, hf⟩ := h
  exact ⟨⟨hk.outside houtside, hc.outside houtside, hh.outside hk houtside⟩, hf.outside hk houtside⟩

theorem solvent_start (records : Records) : Solvent (.start records) :=
  ⟨⟨.start records, .start records, .start records⟩, .start records⟩

theorem solvent_reachable (h : (machine desk).Reachable db) : Solvent db :=
  invariant solvent_start (fun _ hI => ⟨hI.tidy.keys.requests, hI.tidy.keys.quotes⟩) (fun _ _ hI => hI.quiet)
    (fun _ _ _ _ _ _ _ hI => hI.turned) (fun _ _ hI => hI.outside) h

/-- What one booking was paid is part of what all were paid. -/
theorem paidFor_le (hf : Funded db) (booking o : Uuid) : paidFor db booking o ≤ activePaid o db.entitlements := by
  unfold paidFor activePaid Db.entitlementsOf
  rw [sum_filter_map (fun e : Entitlement => e.state = .active),
    sum_filter_map (fun e : Entitlement => e.bookingId = booking)]
  refine sum_le_sum fun e he => ?_
  have hnonneg : 0 ≤ paidBy o e := (hf.backing e he).paidBy_nonneg o
  have hsum : ((e.funding.filter fun f => f.operationId = o).map (·.amount)).sum = paidBy o e :=
    sumOn_filter o e.funding
  rw [hsum]
  split <;> split <;> omega

/-- The rows of an open request are active, so what they were paid is part of what all were paid. -/
theorem Solvent.selected_le (h : Solvent db) (hr : r ∈ db.requests) (hopen : r.terminalOutcome = none) (o : Uuid) :
    ((selections db r).map (paidBy o)).sum ≤ activePaid o db.entitlements := by
  have hk := h.tidy.keys
  rw [((selections_perm db r).map (paidBy o)).sum_eq,
    sum_filter_map (fun e : Entitlement => e.id ∈ (selections db r).map (·.id))]
  refine sum_le_sum fun e he => ?_
  have hnonneg : 0 ≤ paidBy o e := (h.funded.backing e he).paidBy_nonneg o
  split
  · rename_i hid
    obtain ⟨e', he', hsame⟩ := List.mem_map.mp hid
    have hselects : Selects db r e.id := hsame ▸ (mem_selections.mp he').2
    -- an open request claims what it selected, and only active rows are claimed
    obtain ⟨e₁, he₁, hid₁, hactive⟩ := h.tidy.claimed.active _ ((h.tidy.claimed.held r hr hopen e.id).mpr hselects)
    obtain rfl := hk.entitlements.ids.eq_of_key he₁ he hid₁
    rw [if_pos hactive]
  · split <;> omega

theorem Solvent.conserved (h : Solvent db) : Conserved desk db := by
  have hk := h.tidy.keys
  constructor
  case captured =>
    intro o ho _ booking
    have hpaid := paidFor_le h.funded booking o.id
    have hbound := h.funded.bound o ho
    omega
  case funded => exact fun e he _ => (h.funded.backing e he).total
  case credited =>
    intro r hr hstatus hopen q hq hdirection
    obtain ⟨row, hrow, happroved, rfl⟩ := quote_ok hq
    have hb := h.tidy.held.backed r hr
    obtain ⟨row', hrow', happroved', hactive, -, -⟩ := hb.approved hstatus
    obtain rfl := hk.quotes.eq_of_key hrow' hrow (Option.some.inj (happroved'.symm.trans happroved))
    obtain ⟨row'', hrow'', hid, -, hvalid⟩ := hb.active row'.id hactive
    obtain rfl := hk.quotes.eq_of_key hrow'' hrow' hid
    have hselected : ∀ e ∈ selections db r, Backing e := fun e he => h.funded.backing e (mem_selections.mp he).1
    obtain ⟨hnonneg, hcovers⟩ := (hvalid hopen).credit_le hdirection
    obtain ⟨cs, hcs, hdistributed⟩ := credits_distributed hselected hnonneg hcovers
    refine ⟨cs, hcs, fun subjects actor draw => postCredits_fits hk.wallet.keyed.operations hdistributed.keys ?_⟩
    intro c hc
    obtain ⟨e, he, f, hmem, hoperation⟩ := hdistributed.sources c hc
    obtain ⟨o, ho, hid, hstate, -⟩ := h.funded.captured e (mem_selections.mp he).1 f hmem
    refine ⟨o, ho, hid.trans hoperation, hstate, ?_⟩
    -- what is credited was paid for active rows, which the operation has not refunded
    have hshare := (hdistributed.share c hc).2
    have hbound := h.funded.bound o ho
    have hpart := h.selected_le hr hopen c.1
    rw [hid, hoperation] at hbound
    omega

/-- In every state that a run passes, within a command too, no operation has refunded and backs more than it
captured, every active entitlement is paid to the last unit, and a credit that is due is distributed without a
rest, with no refund that exceeds a capture. -/
theorem funding_conserved (desk : Desk) (db db' : Db) (h : (machine desk).Reachable db) (hcalm : Calm desk db db') :
    Conserved desk db' :=
  ((solvent_reachable h).calm hcalm).conserved

/-- One passenger was refunded with a fee, and the other is still paid by the same operation. -/
theorem funding_conserved_refunded : ∃ db, sampleRun (samplePaid ++ sampleRefund ++ sampleApproval) = .ok db ∧
    (db.wallet.operations.map fun o => (o.id, o.refundedAmount, o.amount)) = [(50, 8500, 20000), (14001, 0, 3300)] ∧
    paidFor db 5 50 = 10000 ∧ Conserved sampleDesk db := by
  have hrun : (sampleRun (samplePaid ++ sampleRefund ++ sampleApproval)).map (fun db =>
      ((db.wallet.operations.map fun o => (o.id, o.refundedAmount, o.amount)), paidFor db 5 50)) =
      .ok ([(50, 8500, 20000), (14001, 0, 3300)], 10000) := by decide +kernel
  obtain ⟨db, hdb, heq⟩ := map_eq_ok.mp hrun
  obtain ⟨hoperations, hpaid⟩ := Prod.mk.inj heq
  exact ⟨db, hdb, hoperations, hpaid, funding_conserved sampleDesk db db (sampleRun_reachable hdb) .refl⟩

end ShaponTravels.Wallet.Tickets
