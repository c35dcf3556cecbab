import ShaponTravels.Wallet.Invariant

/-!
# Preservation — every wallet function keeps the invariant

First what one new entry changes in the sums of the invariant, then a posting on an operation
that is already held, then the reservation, which inserts the operation and posts its hold.
-/

namespace ShaponTravels.Wallet

open Library

variable {subjects : List FinancialSubject} {db db' : WalletDb} {a : WalletAccount}
  {p : PostingArgs} {t : TransactionType} {e : LedgerEntry} {o : WalletOperation}

/-! ## One more entry -/

theorem entriesOf_concat (account : Uuid) (entries : List LedgerEntry) (e : LedgerEntry) :
    entriesOf account (entries ++ [e]) =
      entriesOf account entries ++ if e.walletAccountId = account then [e] else [] := by
  simp only [entriesOf, List.filter_append, List.filter_cons, List.filter_nil, decide_eq_true_eq]

theorem countOf_concat (t : TransactionType) (operation : Uuid) (entries : List LedgerEntry)
    (e : LedgerEntry) : countOf t operation (entries ++ [e]) = countOf t operation entries +
      if e.operationId = some operation ∧ e.transactionType = t then 1 else 0 := by
  simp only [countOf, List.countP_append, List.countP_cons, List.countP_nil, decide_eq_true_eq,
    Nat.zero_add]

theorem refunds_concat (operation : Uuid) (entries : List LedgerEntry) (e : LedgerEntry) :
    refunds operation (entries ++ [e]) = refunds operation entries + refundAmount operation e :=
  sum_concat entries e (refundAmount operation)

/-- An operation no entry names has no entries of any type and no refunds. -/
theorem countOf_of_unnamed {operation : Uuid} {entries : List LedgerEntry}
    (h : ∀ e ∈ entries, e.operationId ≠ some operation) (t : TransactionType) :
    countOf t operation entries = 0 := by
  rw [countOf, List.countP_eq_zero]
  intro e he
  simp [h e he]

theorem refunds_of_unnamed {operation : Uuid} {entries : List LedgerEntry}
    (h : ∀ e ∈ entries, e.operationId ≠ some operation) : refunds operation entries = 0 := by
  apply sum_zero
  intro e he
  simp [refundAmount, h e he]

theorem exists_of_countOf_pos {operation : Uuid} {entries : List LedgerEntry}
    (h : 0 < countOf t operation entries) :
    ∃ e ∈ entries, e.operationId = some operation ∧ e.transactionType = t := by
  obtain ⟨e, he, hp⟩ := List.countP_pos_iff.mp h
  exact ⟨e, he, by simpa using hp⟩

/-! ## A new posting -/

namespace Posted

theorem mem (h : Posted subjects db p a t e db') : a ∈ db.accounts := lookup_mem h.account

theorem account_id (h : Posted subjects db p a t e db') : a.id = p.account := lookup_key h.account

theorem entry_operation (h : Posted subjects db p a t e db') : e.operationId = p.operation := by
  rw [h.entry]; rfl

theorem entry_type (h : Posted subjects db p a t e db') : e.transactionType = t := by
  rw [h.entry]; rfl

theorem entry_account (h : Posted subjects db p a t e db') : e.walletAccountId = p.account := by
  rw [h.entry]; rfl

theorem entry_amount (h : Posted subjects db p a t e db') : e.amount = p.amount := by
  rw [h.entry]; rfl

theorem entry_before (h : Posted subjects db p a t e db') : e.before = a.balances := by
  rw [h.entry]
  simp only [LedgerEntry.before, WalletAccount.balances, newEntry, Balances.mk.injEq, true_and]
  omega

theorem entry_after (h : Posted subjects db p a t e db') : e.after = e.before.apply e := by
  rw [h.entry]
  simp only [LedgerEntry.before, LedgerEntry.after, Balances.apply, newEntry, Balances.mk.injEq,
    true_and]
  omega

/-- An account after the posting is an untouched one, or the posting's own with the balances the
entry leads to. -/
theorem account_cases (h : Posted subjects db p a t e db') (hk : Keyed db) {x : WalletAccount}
    (hx : x ∈ db'.accounts) :
    (x ∈ db.accounts ∧ x.id ≠ p.account) ∨
      x = { a with availableBalance := e.availableAfter, holdBalance := e.holdAfter,
                   version := e.sequence } := by
  rw [h.accounts] at hx
  rcases modify_cases hx with ⟨hmem, hne⟩ | ⟨a', hmem, hid, rfl⟩
  · exact .inl ⟨hmem, hne⟩
  · have haa : a' = a := hk.accounts.eq_of_key hmem h.mem (hid.trans h.account_id.symm)
    rw [haa]
    exact .inr rfl

theorem account_exists (h : Posted subjects db p a t e db') {x : WalletAccount}
    (hx : x ∈ db.accounts) : ∃ x' ∈ db'.accounts, x'.id = x.id := by
  have hid : x.id ∈ db'.accounts.map WalletAccount.id := by
    rw [h.accounts]
    rw [map_modify]
    · exact List.mem_map_of_mem hx
    · intro r; rfl
  simpa using hid

theorem keyed (h : Posted subjects db p a t e db') (hk : Keyed db) : Keyed db' where
  accounts := by
    rw [h.accounts]
    exact hk.accounts.modify (fun _ => rfl)
  operations := by
    rw [KeyUnique, h.operations, map_id_updateOperation]
    exact hk.operations
  entryAccount := by
    intro e' he'
    rw [h.entries, List.mem_append, List.mem_singleton] at he'
    rcases he' with he' | rfl
    · obtain ⟨x, hx, hid⟩ := hk.entryAccount e' he'
      obtain ⟨x', hx', hid'⟩ := h.account_exists hx
      exact ⟨x', hx', hid'.trans hid⟩
    · obtain ⟨x', hx', hid'⟩ := h.account_exists h.mem
      exact ⟨x', hx', by rw [hid', h.account_id, h.entry_account]⟩
  entryOperation := by
    intro e' he' id hid
    have hold : ∃ o ∈ db.operations, o.id = id := by
      rw [h.entries, List.mem_append, List.mem_singleton] at he'
      rcases he' with he' | rfl
      · exact hk.entryOperation e' he' id hid
      · rw [h.entry_operation] at hid
        exact h.references id hid
    obtain ⟨o, ho, rfl⟩ := hold
    rw [h.operations]
    exact updateOperation_of_mem ho
  entryAfter := by
    intro e' he'
    rw [h.entries, List.mem_append, List.mem_singleton] at he'
    rcases he' with he' | rfl
    · exact hk.entryAfter e' he'
    · exact h.entry_after
  operationAccount := by
    intro o ho
    have hold : ∃ x ∈ db.accounts, x.id = o.walletAccountId := by
      rw [h.operations] at ho
      rcases updateOperation_cases ho with ⟨ho, -⟩ | ⟨o₀, ho₀, -, rfl⟩
      · exact hk.operationAccount o ho
      · rw [recordOperation_account]
        exact hk.operationAccount o₀ ho₀
    obtain ⟨x, hx, hid⟩ := hold
    obtain ⟨x', hx', hid'⟩ := h.account_exists hx
    exact ⟨x', hx', hid'.trans hid⟩

/-- Only a confirmation or a release changes a held sum, and only its own account's. -/
theorem held_eq (h : Posted subjects db p a t e db') (hk : Keyed db) (account : Uuid) :
    held account db'.operations =
      held account db.operations - if p.account = account then settledAmount t p.amount else 0 := by
  rw [h.operations]
  by_cases ht : t.namesOperation
  · obtain ⟨o, ho⟩ := h.names ht
    have hrecord := heldAmount_recordOperation (o := o) ho.settles (fun hr => (ho.refund hr).1)
      account
    rw [ho.account] at hrecord
    rw [ho.named, held, updateOperation, sum_modify hk.operations ho.mem, hrecord]
    simp only [held]
    omega
  · have hnone : settledAmount t p.amount = 0 ∧
        ∀ o, recordOperation t p.amount o = o := by
      cases t with
      | deposit | manualCredit | manualDebit | bookingHold => exact ⟨rfl, fun _ => rfl⟩
      | bookingConfirm | holdRelease | refund =>
        exact absurd (by simp [TransactionType.namesOperation,
          TransactionType.oncePerReservation]) ht
    rw [hnone.1, ite_self, Int.sub_zero]
    cases hop : p.operation with
    | none => rfl
    | some id =>
      rw [updateOperation, held, sum_modify_eq (g := heldAmount account)]
      · rfl
      · intro o _ _
        rw [hnone.2]

/-- What a hold puts on its account beyond the operations that were open before. -/
def heldNow (t : TransactionType) (amount : Int) : Int :=
  match t with
  | .bookingHold => amount
  | .deposit | .bookingConfirm | .holdRelease | .refund | .manualCredit | .manualDebit => 0

theorem holdDelta_eq (t : TransactionType) (amount : Int) :
    t.holdDelta amount = heldNow t amount - settledAmount t amount := by
  cases t <;> simp [TransactionType.holdDelta, heldNow, settledAmount]

/-- The accounts after a posting are sound, given that its hold already counts in the sum of the
open operations. -/
theorem account_sound (h : Posted subjects db p a t e db') (hk : Keyed db)
    (hnonneg : ∀ x ∈ db.accounts, 0 ≤ x.availableBalance ∧ 0 ≤ x.holdBalance)
    (hjournal : ∀ x ∈ db.accounts,
      Journal LedgerEntry.before LedgerEntry.after .zero (entriesOf x.id db.entries) x.balances)
    (hheld : ∀ x ∈ db.accounts, x.holdBalance +
      (if p.account = x.id then heldNow t p.amount else 0) = held x.id db.operations)
    {x : WalletAccount} (hx : x ∈ db'.accounts) : AccountSound db' x := by
  rcases h.account_cases hk hx with ⟨hmem, hne⟩ | rfl
  · obtain ⟨havailable, hhold⟩ := hnonneg x hmem
    refine ⟨havailable, hhold, ?_, ?_⟩
    · rw [h.entries, entriesOf_concat, h.entry_account, if_neg hne.symm, List.append_nil]
      exact hjournal x hmem
    · have hold := hheld x hmem
      rw [if_neg hne.symm] at hold
      rw [h.held_eq hk, if_neg hne.symm]
      omega
  · refine ⟨?_, ?_, ?_, ?_⟩
    · rw [h.entry]; exact h.available_nonneg
    · rw [h.entry]; exact h.hold_nonneg
    · have hentries : entriesOf a.id db'.entries = entriesOf a.id db.entries ++ [e] := by
        rw [h.entries, entriesOf_concat, h.entry_account, h.account_id, if_pos rfl]
      show Journal _ _ _ (entriesOf a.id db'.entries) e.after
      rw [hentries]
      exact (hjournal a h.mem).snoc h.entry_before
    · have hold := hheld a h.mem
      rw [if_pos h.account_id.symm] at hold
      show e.holdAfter = held a.id db'.operations
      rw [h.held_eq hk, if_pos h.account_id.symm, h.entry]
      show a.holdBalance + t.holdDelta p.amount = _
      rw [holdDelta_eq]
      omega

/-! ### The operations -/

/-- A posting that does not name an operation leaves it sound. -/
theorem operation_sound_of_ne (h : Posted subjects db p a t e db') (hne : p.operation ≠ some o.id)
    (ho : OperationSound db.entries o) : OperationSound db'.entries o := by
  have hcount : ∀ t', countOf t' o.id db'.entries = countOf t' o.id db.entries := by
    intro t'
    rw [h.entries, countOf_concat, if_neg, Nat.add_zero]
    rintro ⟨hop, -⟩
    exact hne (h.entry_operation.symm.trans hop)
  have hrefunds : refunds o.id db'.entries = refunds o.id db.entries := by
    rw [h.entries, refunds_concat, refundAmount, if_neg, Int.add_zero]
    rintro ⟨hop, -⟩
    exact hne (h.entry_operation.symm.trans hop)
  refine ⟨ho.amount_pos, ?_, ?_, ?_, ?_, ho.refunded_nonneg, ho.refunded_le, ho.refunded_captured⟩
  · rw [hcount]; exact ho.holds
  · rw [hcount]; exact ho.confirms
  · rw [hcount]; exact ho.releases
  · rw [hrefunds]; exact ho.refunded

/-- The hold of an operation is posted once, so a posting on a sound operation is no hold. -/
theorem not_hold (h : Posted subjects db p a t e db') (hop : p.operation = some o.id)
    (ho : OperationSound db.entries o) : t ≠ .bookingHold := by
  rintro rfl
  have hcount : 0 < countOf .bookingHold o.id db.entries := by
    rw [ho.holds]
    decide
  obtain ⟨e', he', hop', htype⟩ := exists_of_countOf_pos hcount
  exact h.once rfl (by rw [hop]; rfl) e' he' ⟨hop'.trans hop.symm, htype⟩

/-- The counts and refunds of the operation a posting names. -/
theorem countOf_named (h : Posted subjects db p a t e db') (hop : p.operation = some o.id)
    (t' : TransactionType) :
    countOf t' o.id db'.entries = countOf t' o.id db.entries + if t = t' then 1 else 0 := by
  rw [h.entries, countOf_concat, h.entry_operation, h.entry_type, hop]
  simp only [true_and]

theorem refunds_named (h : Posted subjects db p a t e db') (hop : p.operation = some o.id) :
    refunds o.id db'.entries = refunds o.id db.entries + if t = .refund then p.amount else 0 := by
  rw [h.entries, refunds_concat, refundAmount, h.entry_operation, h.entry_type, hop,
    h.entry_amount]
  simp only [true_and]

/-- A posting leaves the operation it names sound. -/
theorem operation_sound_named (h : Posted subjects db p a t e db') (hk : Keyed db)
    (hmem : o ∈ db.operations) (hop : p.operation = some o.id) (ho : OperationSound db.entries o) :
    OperationSound db'.entries (recordOperation t p.amount o) := by
  have hnames : t.namesOperation → Names subjects db a p t o := by
    intro ht
    obtain ⟨o', ho'⟩ := h.names ht
    have hid : o'.id = o.id := Option.some.inj (ho'.named.symm.trans hop)
    rw [hk.operations.eq_of_key hmem ho'.mem hid.symm]
    exact ho'
  have hsettles : t.oncePerReservation → o.state.isOpen := fun ht =>
    ((hnames (.inr ht)).settles (by rintro rfl; cases ht)).2
  have hrefund : t = .refund → o.state = .captured ∧ p.amount ≤ o.amount - o.refundedAmount :=
    fun ht => (hnames (.inl ht)).refund ht
  obtain ⟨hcaptured, hreleased⟩ := recordOperation_state p.amount hsettles
  have hamount := h.amount
  have hnonneg := ho.refunded_nonneg
  have hle := ho.refunded_le
  have hclosed := ho.refunded_captured
  refine ⟨?_, ?_, ?_, ?_, ?_, ?_, ?_, ?_⟩
  · rw [recordOperation_amount]
    exact ho.amount_pos
  · rw [recordOperation_id, h.countOf_named hop, if_neg (h.not_hold hop ho), ho.holds]
  · rw [recordOperation_id, h.countOf_named hop, ho.confirms, hcaptured]
  · rw [recordOperation_id, h.countOf_named hop, ho.releases, hreleased]
  · rw [recordOperation_id, recordOperation_refunded, h.refunds_named hop, ho.refunded]
  · rw [recordOperation_refunded]
    split
    · omega
    · omega
  · rw [recordOperation_refunded, recordOperation_amount]
    split
    · rename_i ht
      have hroom := (hrefund ht).2
      omega
    · omega
  · rw [recordOperation_refunded]
    intro hpos
    cases t with
    | refund => exact (hrefund rfl).1
    | bookingConfirm => rfl
    | deposit | bookingHold | manualCredit | manualDebit => exact hclosed (by simpa using hpos)
    | holdRelease =>
      have hstate := hsettles rfl
      rw [hclosed (by simpa using hpos)] at hstate
      cases hstate

/-- A posting on tables in step leaves them in step. -/
theorem sound (h : Posted subjects db p a t e db') (hs : Sound db) : Sound db' where
  keyed := h.keyed hs.keyed
  accounts := by
    intro x hx
    refine h.account_sound hs.keyed
      (fun x hx => ⟨(hs.accounts x hx).available_nonneg, (hs.accounts x hx).hold_nonneg⟩)
      (fun x hx => (hs.accounts x hx).journal) ?_ hx
    intro x hx
    have hnow : heldNow t p.amount = 0 := by
      by_cases ht : t = .bookingHold
      · obtain ⟨o, ho⟩ := h.names (by rw [ht]; exact .inr rfl)
        exact absurd ht (h.not_hold ho.named (hs.operations o ho.mem))
      · cases t with
        | bookingHold => exact absurd rfl ht
        | deposit | bookingConfirm | holdRelease | refund | manualCredit | manualDebit => rfl
    rw [hnow, ite_self, Int.add_zero]
    exact (hs.accounts x hx).held
  operations := by
    intro o ho
    rw [h.operations] at ho
    rcases updateOperation_cases ho with ⟨hmem, hne⟩ | ⟨o₀, hmem, hop, rfl⟩
    · exact h.operation_sound_of_ne hne (hs.operations o hmem)
    · exact h.operation_sound_named hs.keyed hmem hop (hs.operations o₀ hmem)

end Posted

/-! ## Reservations -/

/-- The operation `reserve` inserts is open, unrefunded and named by no entry. -/
structure Fresh (db : WalletDb) (row : WalletOperation) : Prop where
  new : ∀ o ∈ db.operations, o.id ≠ row.id
  account : ∃ a ∈ db.accounts, a.id = row.walletAccountId
  state : row.state = .reserved
  refunded : row.refundedAmount = 0

theorem Fresh.unnamed {row : WalletOperation} (hf : Fresh db row) (hk : Keyed db) :
    ∀ e ∈ db.entries, e.operationId ≠ some row.id := by
  intro e he hop
  obtain ⟨o, ho, hid⟩ := hk.entryOperation e he row.id (by rw [hop]; rfl)
  exact hf.new o ho hid

theorem Fresh.keyed {row : WalletOperation} (hf : Fresh db row) (hk : Keyed db) :
    Keyed { db with operations := db.operations ++ [row] } where
  accounts := hk.accounts
  operations := keyUnique_concat.mpr ⟨hk.operations, hf.new⟩
  entryAccount := hk.entryAccount
  entryOperation := by
    intro e he id hid
    obtain ⟨o, ho, heq⟩ := hk.entryOperation e he id hid
    exact ⟨o, List.mem_append_left _ ho, heq⟩
  entryAfter := hk.entryAfter
  operationAccount := by
    intro o ho
    rw [List.mem_append, List.mem_singleton] at ho
    rcases ho with ho | rfl
    · exact hk.operationAccount o ho
    · exact hf.account

/-- The hold makes a fresh operation sound. -/
theorem Posted.fresh_sound {row : WalletOperation}
    (h : Posted subjects { db with operations := db.operations ++ [row] } p a .bookingHold e db')
    (hk : Keyed db) (hf : Fresh db row) (hop : p.operation = some row.id)
    (hamount : p.amount = row.amount) : OperationSound db'.entries row := by
  have hcount : ∀ t, countOf t row.id db'.entries = if .bookingHold = t then 1 else 0 := by
    intro t
    rw [h.countOf_named hop, countOf_of_unnamed (hf.unnamed hk), Nat.zero_add]
  have hrefunds : refunds row.id db'.entries = 0 := by
    rw [h.refunds_named hop, refunds_of_unnamed (hf.unnamed hk)]
    rfl
  have hpos : 0 < row.amount := by
    rw [← hamount]
    exact h.amount
  refine ⟨hpos, ?_, ?_, ?_, ?_, ?_, ?_, ?_⟩
  · rw [hcount]; rfl
  · rw [hcount, hf.state]; rfl
  · rw [hcount, hf.state]; rfl
  · rw [hrefunds, hf.refunded]
  · rw [hf.refunded]
  · rw [hf.refunded]; exact Int.le_of_lt hpos
  · rw [hf.refunded]; intro hlt; exact absurd hlt (Int.lt_irrefl 0)

/-- Posting the hold of a fresh operation brings the tables in step again. -/
theorem Posted.sound_of_fresh {row : WalletOperation}
    (h : Posted subjects { db with operations := db.operations ++ [row] } p a .bookingHold e db')
    (hs : Sound db) (hf : Fresh db row) (hop : p.operation = some row.id)
    (hamount : p.amount = row.amount) (haccount : p.account = row.walletAccountId) :
    Sound db' := by
  have hk := hf.keyed hs.keyed
  refine ⟨h.keyed hk, ?_, ?_⟩
  · intro x hx
    refine h.account_sound hk
      (fun x hx => ⟨(hs.accounts x hx).available_nonneg, (hs.accounts x hx).hold_nonneg⟩)
      (fun x hx => (hs.accounts x hx).journal) ?_ hx
    intro x hx
    have hheld := (hs.accounts x hx).held
    have hrow : heldAmount x.id row = if p.account = x.id then p.amount else 0 := by
      simp [heldAmount, hf.state, haccount, hamount]
    simp only [held] at hheld ⊢
    rw [sum_concat, hrow, hheld]
    rfl
  · intro o ho
    rw [h.operations] at ho
    rcases updateOperation_cases ho with ⟨hmem, hne⟩ | ⟨o₀, hmem, hop₀, heq⟩
    · rw [List.mem_append, List.mem_singleton] at hmem
      rcases hmem with hmem | rfl
      · exact h.operation_sound_of_ne hne (hs.operations o hmem)
      · exact absurd hop hne
    · have hrow : o₀ = row :=
        hk.operations.eq_of_key hmem (List.mem_append_right _ (List.mem_singleton_self _))
          (Option.some.inj (hop₀.symm.trans hop))
      rw [show o = o₀ from heq, hrow]
      exact h.fresh_sound hs.keyed hf hop hamount

end ShaponTravels.Wallet
