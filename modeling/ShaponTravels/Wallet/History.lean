import ShaponTravels.Wallet.Ledger

/-!
# History — what no call undoes, and the wallet invariant in every reachable state

The ledger only grows, and an operation keeps its identity, its final state and its refunds.
-/

namespace ShaponTravels.Wallet

open Library

variable {pf : Platform} {subjects : List FinancialSubject} {db db' db'' : WalletDb} {draw : Draw}
  {o o' o'' : WalletOperation}

/-! ## Histories -/

/-- An operation as it was inserted. -/
def WalletOperation.identity (o : WalletOperation) : WalletOperation :=
  { o with state := .reserved, refundedAmount := 0 }

/-- `o'` is `o` at a later time. -/
structure Continues (o o' : WalletOperation) : Prop where
  identity : o' = { o with state := o'.state, refundedAmount := o'.refundedAmount }
  closed : o.state.isOpen = false → o'.state = o.state
  refunded : o.refundedAmount ≤ o'.refundedAmount

theorem Continues.refl (o : WalletOperation) : Continues o o := ⟨rfl, fun _ => rfl, Int.le_refl _⟩

theorem Continues.trans (h : Continues o o') (h' : Continues o' o'') : Continues o o'' := by
  refine ⟨?_, ?_, Int.le_trans h.refunded h'.refunded⟩
  · rw [h'.identity, h.identity]
  · intro hclosed
    have hstate := h.closed hclosed
    rw [h'.closed (by rw [hstate]; exact hclosed), hstate]

theorem Continues.id (h : Continues o o') : o'.id = o.id := by
  rw [h.identity]

theorem Continues.amount (h : Continues o o') : o'.amount = o.amount := by
  rw [h.identity]

/-- `db'` is `db` at a later time. -/
structure Extends (db db' : WalletDb) : Prop where
  entries : db.entries <+: db'.entries
  operations : ∀ o ∈ db.operations, ∃ o' ∈ db'.operations, Continues o o'

theorem Extends.refl (db : WalletDb) : Extends db db :=
  ⟨List.prefix_refl _, fun o ho => ⟨o, ho, .refl o⟩⟩

theorem Extends.trans (h : Extends db db') (h' : Extends db' db'') : Extends db db'' := by
  refine ⟨h.entries.trans h'.entries, ?_⟩
  intro o ho
  obtain ⟨o', ho', hc⟩ := h.operations o ho
  obtain ⟨o'', ho'', hc'⟩ := h'.operations o' ho'
  exact ⟨o'', ho'', hc.trans hc'⟩

theorem Extends.of_same_money (hoperations : db'.operations = db.operations)
    (hentries : db'.entries = db.entries) : Extends db db' := by
  refine ⟨by simp [hentries], ?_⟩
  intro o ho
  exact ⟨o, by rw [hoperations]; exact ho, .refl o⟩

/-- Rewriting one operation into a continuation of itself. -/
theorem continues_modify {id : Uuid} {f : WalletOperation → WalletOperation}
    {operations : List WalletOperation}
    (hf : ∀ o ∈ operations, o.id = id → Continues o (f o)) :
    ∀ o ∈ operations, ∃ o' ∈ modify WalletOperation.id id f operations, Continues o o' := by
  intro o ho
  by_cases hid : o.id = id
  · exact ⟨f o, mem_modify_of_mem ho hid, hf o ho hid⟩
  · exact ⟨o, mem_modify_of_ne ho hid, .refl o⟩

theorem Posted.extends {p : PostingArgs} {a : WalletAccount} {t : TransactionType}
    {e : LedgerEntry} (h : Posted subjects db p a t e db') (hk : Keyed db) : Extends db db' := by
  refine ⟨by rw [h.entries]; exact List.prefix_append _ _, ?_⟩
  rw [h.operations]
  cases hop : p.operation with
  | none => exact fun o ho => ⟨o, ho, .refl o⟩
  | some id =>
    apply continues_modify
    intro o ho hid
    have hnames : t.namesOperation → Names subjects db a p t o := by
      intro ht
      obtain ⟨o', ho'⟩ := h.names ht
      have hid' : o'.id = id := Option.some.inj (ho'.named.symm.trans hop)
      rw [hk.operations.eq_of_key ho ho'.mem (hid.trans hid'.symm)]
      exact ho'
    have hpos := h.amount
    cases t with
    | deposit | bookingHold | manualCredit | manualDebit => exact .refl o
    | bookingConfirm | holdRelease =>
      have hstate := ((hnames (.inr rfl)).settles (by decide)).2
      exact ⟨rfl, (fun hclosed => by rw [hclosed] at hstate; cases hstate), Int.le_refl _⟩
    | refund =>
      refine ⟨rfl, fun _ => rfl, ?_⟩
      show o.refundedAmount ≤ o.refundedAmount + p.amount
      omega

theorem Extends.posting {p : PostingArgs} {e : LedgerEntry} (hk : Keyed db)
    (h : walletApplyPosting subjects db p = .ok (e, db')) : Extends db db' := by
  rcases walletApplyPosting_ok h with ⟨rfl, -⟩ | ⟨a, t, hposted⟩
  · exact .refl db'
  · exact hposted.extends hk

theorem Extends.reserve {r : Reservation} (hk : Keyed db)
    (h : reserve pf subjects db r draw = .ok (o, db')) : Extends db db' := by
  obtain ⟨kind, c, -, -, -, ⟨rfl, -⟩ | ⟨hnew, -, haccount, ⟨e, hpost⟩, -⟩⟩ := reserve_ok h
  · exact .refl db'
  · obtain ⟨hfresh, a, hposted⟩ := reserve_fresh hk hnew haccount hpost
    have hinsert : Extends db
        { db with operations := db.operations ++ [r.row kind c (r.hash pf)] } :=
      ⟨List.prefix_refl _, fun o ho => ⟨o, List.mem_append_left _ ho, .refl o⟩⟩
    exact hinsert.trans (hposted.extends (hfresh.keyed hk))

theorem Extends.settle {id : Uuid} {capture : Bool} {actor role : String} (hk : Keyed db)
    (h : settle pf subjects db id capture actor role draw = .ok (o, db')) : Extends db db' := by
  obtain ⟨current, -, -, -, -, ⟨rfl, -⟩ | ⟨-, e, hpost⟩⟩ := settle_ok h
  · exact .refl db'
  · exact .posting hk hpost

theorem Extends.markReconciliation (db : WalletDb) (id : Uuid) :
    Extends db (markReconciliation db id) := by
  refine ⟨List.prefix_refl _, continues_modify ?_⟩
  intro o _ _
  split
  · rename_i hstate
    exact ⟨rfl, (fun hclosed => by rw [hstate] at hclosed; cases hclosed), Int.le_refl _⟩
  · exact .refl o

theorem Extends.provision {owner : Owner} {currencyText : String} {display : Value}
    {ownerId accountId account : Uuid}
    (h : provision db owner currencyText display ownerId accountId = .ok (account, db')) :
    Extends db db' := by
  simp only [Wallet.provision, bind_eq_ok, ensure_eq_ok, mapError_eq_ok, exists_const] at h
  obtain ⟨type, -, c, -, -, ⟨saved, db₁⟩, howner, haccount⟩ := h
  have hmoney₁ : db₁.operations = db.operations ∧ db₁.entries = db.entries := by
    unfold upsertOwner at howner
    split at howner
    · cases howner
      exact ⟨rfl, rfl⟩
    · simp only [bind_eq_ok, ensure_eq_ok, pure_eq_ok, Prod.mk.injEq, exists_const] at howner
      obtain ⟨-, -, rfl⟩ := howner
      exact ⟨rfl, rfl⟩
  unfold upsertAccount at haccount
  split at haccount
  · cases haccount
    exact .of_same_money hmoney₁.1 hmoney₁.2
  · simp only [bind_eq_ok, ensure_eq_ok, pure_eq_ok, Prod.mk.injEq, exists_const] at haccount
    obtain ⟨-, -, rfl⟩ := haccount
    exact .of_same_money hmoney₁.1 hmoney₁.2

/-! ## The wallet as a machine -/

/-- The calls that write wallet tables. -/
inductive Call where
  | provision (owner : Owner) (currency : String) (display : Value) (ownerId accountId : Uuid)
  | posting (p : PostingArgs)
  | reserve (r : Reservation) (draw : Draw)
  | settle (id : Uuid) (capture : Bool) (actor role : String) (draw : Draw)
  | markReconciliation (id : Uuid)

/-- One call, with the bookings as they stand when it is made. -/
def Call.run (pf : Platform) (subjects : List FinancialSubject) (db : WalletDb) :
    Call → Except ApiError WalletDb
  | .provision owner currency display ownerId accountId =>
    (Wallet.provision db owner currency display ownerId accountId).map Prod.snd
  | .posting p => ((walletApplyPosting subjects db p).mapError dbError).map Prod.snd
  | .reserve r draw => (Wallet.reserve pf subjects db r draw).map Prod.snd
  | .settle id capture actor role draw =>
    (Wallet.settle pf subjects db id capture actor role draw).map Prod.snd
  | .markReconciliation id => .ok (Wallet.markReconciliation db id)

/-- A step is a call that succeeds, or one that fails and is rolled back. -/
def machine (pf : Platform) : Machine WalletDb (List FinancialSubject × Call) where
  init db := db = .empty
  step db call db' := call.2.run pf call.1 db = .ok db' ∨ db' = db

theorem Call.run_keeps {call : Call} (hs : Sound db) (h : call.run pf subjects db = .ok db') :
    Sound db' ∧ Extends db db' := by
  cases call with
  | provision owner currency display ownerId accountId =>
    obtain ⟨⟨account, db₁⟩, hcall, rfl⟩ := map_eq_ok.mp h
    exact ⟨hs.provision hcall, .provision hcall⟩
  | posting p =>
    obtain ⟨⟨e, db₁⟩, hcall, rfl⟩ := map_eq_ok.mp h
    rw [mapError_eq_ok] at hcall
    exact ⟨hs.posting hcall, .posting hs.keyed hcall⟩
  | reserve r draw =>
    obtain ⟨⟨o, db₁⟩, hcall, rfl⟩ := map_eq_ok.mp h
    exact ⟨hs.reserve hcall, .reserve hs.keyed hcall⟩
  | settle id capture actor role draw =>
    obtain ⟨⟨o, db₁⟩, hcall, rfl⟩ := map_eq_ok.mp h
    exact ⟨hs.settle hcall, .settle hs.keyed hcall⟩
  | markReconciliation id =>
    cases h
    exact ⟨hs.markReconciliation id, .markReconciliation db id⟩

theorem sound_empty : Sound .empty :=
  ⟨⟨.nil, .nil, by simp [WalletDb.empty], by simp [WalletDb.empty], by simp [WalletDb.empty],
    by simp [WalletDb.empty]⟩, by simp [WalletDb.empty], by simp [WalletDb.empty]⟩

theorem machine_keeps (db : WalletDb) (call : List FinancialSubject × Call) (db' : WalletDb)
    (hs : Sound db) (h : (machine pf).step db call db') : Sound db' ∧ Extends db db' := by
  rcases h with h | rfl
  · exact Call.run_keeps hs h
  · exact ⟨hs, .refl db'⟩

theorem machine_sound (h : (machine pf).Reachable db) : Sound db :=
  h.invariant (by rintro _ rfl; exact sound_empty) (fun s i s' hs hstep =>
    (machine_keeps s i s' hs hstep).1)

end ShaponTravels.Wallet
