import ShaponTravels.Library.KeyedSums
import ShaponTravels.Wallet.Changes
import ShaponTravels.Wallet.TicketChanges

/-!
# TicketTakings — how a credit is spread over the slices

The loop of `settle` takes from each slice in turn what is still to be credited.  It takes no more of an
operation than the slices that name it, and nothing is left of a credit that the slices cover.  The refunds
that follow change nothing of an operation but what it has refunded.
-/

namespace ShaponTravels.Wallet.Tickets

open Library
open TicketManagement (Funding Entitlement)
open Nonissuance (Actor)

/-! ## One slice after the other -/

/-- What was taken of some slices. -/
structure Taken (fs : List Funding) (t t' : Taking) : Prop where
  total : (t'.1.map Prod.snd).sum + t'.2 = (t.1.map Prod.snd).sum + t.2
  left : t'.2 = max 0 (t.2 - (fs.map (·.amount)).sum)
  share : ∀ o, sumOn Prod.fst Prod.snd o t'.1 ≤
    sumOn Prod.fst Prod.snd o t.1 + sumOn Funding.operationId Funding.amount o fs
  positive : (∀ c ∈ t.1, 0 < c.2) → ∀ c ∈ t'.1, 0 < c.2
  sources : ∀ c ∈ t'.1, c ∈ t.1 ∨ ∃ f ∈ fs, f.operationId = c.1

theorem takeSlice_taken {f : Funding} (hf : 0 < f.amount) {t : Taking} (ht : 0 ≤ t.2) :
    Taken [f] t (takeSlice t f) := by
  unfold takeSlice
  dsimp only
  split
  · rename_i hpos
    constructor
    case total =>
      rw [List.map_append, List.sum_append]
      show _ + ((min f.amount t.2) + 0) + (t.2 - min f.amount t.2) = _
      omega
    case left =>
      show t.2 - min f.amount t.2 = max 0 (t.2 - (f.amount + 0))
      omega
    case share =>
      intro o
      rw [sumOn_append, sumOn_cons, sumOn_cons, sumOn_nil, sumOn_nil]
      have hle : min f.amount t.2 ≤ f.amount := Int.min_le_left _ _
      split <;> omega
    case positive =>
      intro hall c hc
      rcases List.mem_append.mp hc with hold | hnew
      · exact hall c hold
      · rw [List.mem_singleton.mp hnew]
        exact hpos
    case sources =>
      intro c hc
      rcases List.mem_append.mp hc with hold | hnew
      · exact .inl hold
      · rw [List.mem_singleton.mp hnew]
        exact .inr ⟨f, List.mem_singleton_self f, rfl⟩
  · rename_i hzero
    -- nothing is left to take
    have hnone : t.2 = 0 := by omega
    refine ⟨rfl, ?_, fun o => ?_, fun hall => hall, fun c hc => .inl hc⟩
    · show t.2 = max 0 (t.2 - (f.amount + 0))
      omega
    · rw [sumOn_cons, sumOn_nil]
      split <;> omega

theorem foldl_takeSlice {fs : List Funding} (hfs : ∀ f ∈ fs, 0 < f.amount) {t : Taking} (ht : 0 ≤ t.2) :
    Taken fs t (fs.foldl takeSlice t) := by
  induction fs generalizing t with
  | nil =>
    refine ⟨rfl, ?_, fun o => ?_, fun hall => hall, fun c hc => .inl hc⟩
    · show t.2 = max 0 (t.2 - 0)
      omega
    · rw [sumOn_nil]
      exact Int.le_of_eq (Int.add_zero _).symm
  | cons f fs ih =>
    have hf : 0 < f.amount := hfs f List.mem_cons_self
    have hsum : 0 ≤ (fs.map (·.amount)).sum :=
      sum_nonneg fun f hmem => (hfs f (List.mem_cons_of_mem _ hmem)).le
    have hfirst := takeSlice_taken hf ht
    have hleft : (takeSlice t f).2 = max 0 (t.2 - (f.amount + 0)) := hfirst.left
    have hrest := ih (fun f hmem => hfs f (List.mem_cons_of_mem _ hmem)) (t := takeSlice t f) (by omega)
    rw [List.foldl_cons]
    refine ⟨hrest.total.trans hfirst.total, ?_, fun o => ?_, fun hall => hrest.positive (hfirst.positive hall), ?_⟩
    · rw [hrest.left, hleft, List.map_cons, List.sum_cons]
      omega
    · have hshare := hrest.share o
      have hshare' := hfirst.share o
      rw [sumOn_cons, sumOn_nil, Int.add_zero] at hshare'
      rw [sumOn_cons]
      omega
    · intro c hc
      rcases hrest.sources c hc with hold | ⟨f', hf', hid⟩
      · rcases hfirst.sources c hold with hold | ⟨f', hf', hid⟩
        · exact .inl hold
        · exact .inr ⟨f', List.mem_cons.mpr (.inl (List.mem_singleton.mp hf')), hid⟩
      · exact .inr ⟨f', List.mem_cons_of_mem _ hf', hid⟩

/-! ## The loop over the entitlements -/

/-- What an operation has paid of an entitlement. -/
def paidBy (o : Uuid) (e : Entitlement) : Int := sumOn Funding.operationId Funding.amount o e.funding

/-- An entitlement and the slices that paid for it. -/
structure Backing (e : Entitlement) : Prop where
  total : (e.funding.map (·.amount)).sum = e.amount
  positive : ∀ f ∈ e.funding, 0 < f.amount
  bound : e.amount ≤ TicketManagement.maxMinor

theorem takeEntitlement_ok {t : Taking} {e : Entitlement} (h : Backing e) :
    takeEntitlement t e = .ok (e.funding.foldl takeSlice t) := by
  have hsum : TicketManagement.sum (e.funding.map (·.amount)) = .ok e.amount := by
    rw [← h.total]
    refine TicketManagement.sum_eq_ok.mpr ⟨?_, h.total ▸ h.bound, rfl⟩
    intro n hn
    obtain ⟨f, hf, rfl⟩ := List.mem_map.mp hn
    exact (h.positive f hf).le
  unfold takeEntitlement
  rw [hsum, ok_bind, ensure_of rfl, ok_bind]
  rfl

theorem foldlM_takeEntitlement {selected : List Entitlement} (h : ∀ e ∈ selected, Backing e) (t : Taking) :
    selected.foldlM takeEntitlement t = .ok ((selected.flatMap (·.funding)).foldl takeSlice t) := by
  induction selected generalizing t with
  | nil => rfl
  | cons e selected ih =>
    rw [List.foldlM_cons, takeEntitlement_ok (h e List.mem_cons_self), ok_bind,
      ih fun e' he' => h e' (List.mem_cons_of_mem _ he'), List.flatMap_cons, List.foldl_append]

/-! ## The credits of the operations -/

theorem mem_byOperation {taken : List (Uuid × Int)} {c : Uuid × Int} (h : c ∈ byOperation taken) :
    c.2 = sumOn Prod.fst Prod.snd c.1 taken ∧ ∃ c' ∈ taken, c'.1 = c.1 := by
  obtain ⟨operation, hoperation, rfl⟩ := List.mem_map.mp h
  rw [List.mem_insertionSort, List.mem_dedup] at hoperation
  exact ⟨sumOn_filter operation taken, List.mem_map.mp hoperation⟩

theorem byOperation_nodup (taken : List (Uuid × Int)) : KeyUnique Prod.fst (byOperation taken) := by
  unfold KeyUnique byOperation
  rw [List.map_map]
  have hsorted : (((taken.map Prod.fst).dedup.insertionSort fun a b => a.toNat ≤ b.toNat).map id).Nodup := by
    rw [List.map_id, (List.perm_insertionSort _ _).nodup_iff]
    exact List.nodup_dedup _
  exact hsorted

/-- The credits of all operations are what was taken. -/
theorem sum_byOperation (taken : List (Uuid × Int)) :
    ((byOperation taken).map Prod.snd).sum = (taken.map Prod.snd).sum := by
  have hnodup : ((taken.map Prod.fst).dedup.insertionSort fun a b => a.toNat ≤ b.toNat).Nodup :=
    (List.perm_insertionSort _ _).nodup_iff.mpr (List.nodup_dedup _)
  have hcovers : ∀ c ∈ taken, c.1 ∈ (taken.map Prod.fst).dedup.insertionSort fun a b => a.toNat ≤ b.toNat := by
    intro c hc
    rw [List.mem_insertionSort, List.mem_dedup]
    exact List.mem_map_of_mem hc
  refine Eq.trans ?_ (sum_sumOn (g := Prod.snd) hnodup hcovers)
  unfold byOperation
  rw [List.map_map]
  exact sum_congr fun operation _ => sumOn_filter operation taken

/-- What a credit comes to that the selected entitlements cover: it is distributed to the last unit, and no
operation is credited more than its slices. -/
structure Distributed (selected : List Entitlement) (amount : Int) (cs : List (Uuid × Int)) : Prop where
  total : (cs.map Prod.snd).sum = amount
  keys : KeyUnique Prod.fst cs
  share : ∀ c ∈ cs, 0 < c.2 ∧ c.2 ≤ (selected.map (paidBy c.1)).sum
  sources : ∀ c ∈ cs, ∃ e ∈ selected, ∃ f ∈ e.funding, f.operationId = c.1

theorem credits_distributed {selected : List Entitlement} {amount : Int} (hselected : ∀ e ∈ selected, Backing e)
    (hamount : 0 ≤ amount) (hcovers : amount ≤ (selected.map (·.amount)).sum) :
    ∃ cs, credits selected amount = .ok (cs, 0) ∧ Distributed selected amount cs := by
  have hpositive : ∀ f ∈ selected.flatMap (·.funding), 0 < f.amount := by
    intro f hf
    obtain ⟨e, he, hmem⟩ := List.mem_flatMap.mp hf
    exact (hselected e he).positive f hmem
  obtain ⟨t, ht⟩ : ∃ t, (selected.flatMap (·.funding)).foldl takeSlice ([], amount) = t := ⟨_, rfl⟩
  have htaken := foldl_takeSlice hpositive (t := ([], amount)) hamount
  rw [ht] at htaken
  have hslices : ((selected.flatMap (·.funding)).map (·.amount)).sum = (selected.map (·.amount)).sum := by
    rw [List.map_flatMap, List.flatMap, List.sum_flatten, List.map_map]
    exact sum_congr fun e he => (hselected e he).total
  have htotal : (t.1.map Prod.snd).sum + t.2 = 0 + amount := htaken.total
  have hleft : t.2 = 0 := by
    rw [htaken.left, hslices]
    show max 0 (amount - _) = 0
    omega
  refine ⟨byOperation t.1, ?_, ?_, byOperation_nodup _, ?_, ?_⟩
  · unfold credits
    rw [foldlM_takeEntitlement hselected, ok_bind, ht, hleft]
    rfl
  · rw [sum_byOperation]
    omega
  · intro c hc
    obtain ⟨hsum, c', hc', hid⟩ := mem_byOperation hc
    have hshare := htaken.share c.1
    rw [sumOn_nil, Int.zero_add, sumOn_flatMap] at hshare
    have hall := htaken.positive (fun c hc => absurd hc List.not_mem_nil)
    refine ⟨?_, hsum ▸ hshare⟩
    -- one of the parts is positive, and none is negative
    have hle : c'.2 ≤ sumOn Prod.fst Prod.snd c.1 t.1 := by
      rw [← hid, ← sumOn_filter]
      refine List.single_le_sum (fun x hx => ?_) _ (List.mem_map_of_mem (List.mem_filter.mpr ⟨hc', by simp⟩))
      obtain ⟨c'', hc'', rfl⟩ := List.mem_map.mp hx
      exact (hall c'' (List.mem_filter.mp hc'').1).le
    have hpos := hall c' hc'
    omega
  · intro c hc
    obtain ⟨-, c', hc', hid⟩ := mem_byOperation hc
    rcases htaken.sources c' hc' with hnone | ⟨f, hf, hoperation⟩
    · cases hnone
    · obtain ⟨e, he, hmem⟩ := List.mem_flatMap.mp hf
      exact ⟨e, he, f, hmem, hoperation.trans hid⟩

/-! ## The refunds -/

variable {desk : Desk} {actor : Actor} {r : Request} {draw : Draw}

/-- The operations after refunds: what one has refunded grew by its credits at most. -/
structure Refunded (cs : List (Uuid × Int)) (ops ops' : List WalletOperation) : Prop where
  forth : ∀ o ∈ ops, ∃ o' ∈ ops', o'.identity = o.identity ∧ o'.state = o.state
  back : ∀ o' ∈ ops', ∃ o ∈ ops, o.identity = o'.identity ∧ o.state = o'.state ∧
    o'.refundedAmount ≤ o.refundedAmount + sumOn Prod.fst Prod.snd o'.id cs

theorem identity_eq {o o' : WalletOperation} (h : o'.identity = o.identity) :
    o'.id = o.id ∧ o'.subjectKind = o.subjectKind := by
  rw [WalletOperation.of_identity h.symm]
  exact ⟨rfl, rfl⟩

theorem post_amount {pf : Platform} {subjects : List FinancialSubject} {w w' : WalletDb} {p : Posting}
    {e : LedgerEntry} {draw : Wallet.Draw} (h : Wallet.post pf subjects w p draw = .ok (e, w')) : 0 < p.amount := by
  simp only [Wallet.post, bind_eq_ok, ensure_eq_ok] at h
  obtain ⟨-, hguard, -⟩ := h
  exact hguard.1

theorem refundOf_refunded {subjects : List FinancialSubject} {w w' : WalletDb} {c : Uuid × Int} {e : LedgerEntry}
    {draw : Wallet.Draw} (h : Wallet.post desk.pf subjects w (refundOf actor r c) draw = .ok (e, w')) :
    Refunded [c] w.operations w'.operations := by
  have hpos : 0 < c.2 := post_amount h
  have hsum : ∀ o : Uuid, sumOn Prod.fst Prod.snd o [c] = if c.1 = o then c.2 else 0 := by
    intro o
    rw [sumOn_cons, sumOn_nil, Int.add_zero]
  rcases posting_operations (Wallet.post_ok h) with rfl | ⟨t, ht, hoperations⟩
  · -- a repeated posting finds its entry
    refine ⟨fun o ho => ⟨o, ho, rfl, rfl⟩, fun o ho => ⟨o, ho, rfl, rfl, ?_⟩⟩
    rw [hsum]
    split <;> omega
  obtain rfl : TransactionType.refund = t := TransactionType.text_inj ht
  rw [hoperations]
  constructor
  case forth =>
    intro o ho
    refine ⟨_, mem_modify.mpr ⟨o, ho, rfl⟩, ?_⟩
    split <;> exact ⟨rfl, rfl⟩
  case back =>
    intro o' ho'
    rw [hsum]
    rcases updateOperation_cases ho' with ⟨hold, -⟩ | ⟨o, ho, hid, rfl⟩
    · refine ⟨o', hold, rfl, rfl, ?_⟩
      split <;> omega
    · refine ⟨o, ho, rfl, rfl, ?_⟩
      show o.refundedAmount + c.2 ≤ o.refundedAmount + if c.1 = o.id then c.2 else 0
      rw [if_pos (Option.some.inj hid)]

theorem Refunded.trans {cs cs' : List (Uuid × Int)} {ops ops' ops'' : List WalletOperation}
    (h : Refunded cs ops ops') (h' : Refunded cs' ops' ops'') : Refunded (cs ++ cs') ops ops'' := by
  refine ⟨fun o ho => ?_, fun o'' ho'' => ?_⟩
  · obtain ⟨o', ho', hsame, hstate⟩ := h.forth o ho
    obtain ⟨o'', ho'', hsame', hstate'⟩ := h'.forth o' ho'
    exact ⟨o'', ho'', hsame'.trans hsame, hstate'.trans hstate⟩
  · obtain ⟨o', ho', hsame', hstate', hle'⟩ := h'.back o'' ho''
    obtain ⟨o, ho, hsame, hstate, hle⟩ := h.back o' ho'
    refine ⟨o, ho, hsame.trans hsame', hstate.trans hstate', ?_⟩
    rw [(identity_eq hsame').1] at hle
    rw [sumOn_append]
    omega

/-- The loop over the credits. -/
theorem postCredits_refunded {subjects : List FinancialSubject} {w w' : WalletDb} {cs : List (Uuid × Int)}
    {entries : List Uuid} (h : postCredits desk subjects w actor r cs draw = .ok (entries, w')) :
    Refunded cs w.operations w'.operations := by
  have hloop : ∀ (numbered : List ((Uuid × Int) × Nat)) (s s' : List Uuid × WalletDb),
      numbered.foldlM (fun s c => do
        let posted ← Wallet.post desk.pf subjects s.2 (refundOf actor r c.1) (draw.entry c.2)
        return (s.1 ++ [posted.1.id], posted.2)) s = (.ok s' : Except ApiError _) →
      Refunded (numbered.map Prod.fst) s.2.operations s'.2.operations := by
    intro numbered
    induction numbered with
    | nil =>
      intro s s' h
      obtain rfl := pure_eq_ok.mp h
      exact ⟨fun o ho => ⟨o, ho, rfl, rfl⟩, fun o ho => ⟨o, ho, rfl, rfl, Int.le_of_eq (Int.add_zero _).symm⟩⟩
    | cons c numbered ih =>
      intro s s' h
      simp only [List.foldlM_cons, bind_eq_ok, pure_eq_ok] at h
      obtain ⟨_, ⟨⟨e, next⟩, hpost, rfl⟩, hrest⟩ := h
      exact (refundOf_refunded hpost).trans (ih _ _ hrest)
  have hrefunded := hloop cs.zipIdx ([], w) (entries, w') h
  rw [List.zipIdx_map_fst] at hrefunded
  exact hrefunded

end ShaponTravels.Wallet.Tickets
