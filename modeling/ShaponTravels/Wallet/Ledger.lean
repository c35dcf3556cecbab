import ShaponTravels.Library.Transition
import ShaponTravels.Wallet.Preservation

/-!
# Ledger — the wallet over whole runs

The wallet as a transition system whose steps are the calls of the application, each of which
may also fail and leave everything as it was.
-/

namespace ShaponTravels.Wallet

open Library

variable {pf : Platform} {subjects : List FinancialSubject} {db db' : WalletDb} {draw : Draw}
  {o : WalletOperation}

/-! ## The calls keep the invariant -/

theorem Sound.posting {p : PostingArgs} {e : LedgerEntry} (hs : Sound db)
    (h : walletApplyPosting subjects db p = .ok (e, db')) : Sound db' := by
  rcases walletApplyPosting_ok h with ⟨rfl, -⟩ | ⟨a, t, hposted⟩
  · exact hs
  · exact hposted.sound hs

/-- What a new reservation did: its hold is the posting of a fresh operation. -/
theorem reserve_fresh {r : Reservation} {kind : SubjectKind} {c : Currency} {e : LedgerEntry}
    (hs : Keyed db) (hnew : ∀ o' ∈ db.operations, o'.id ≠ r.id)
    (haccount : ∃ a ∈ db.accounts, a.id = r.account ∧ a.currency = c)
    (h : walletApplyPosting subjects
      { db with operations := db.operations ++ [r.row kind c (r.hash pf)] }
      (r.posting.args pf draw) = .ok (e, db')) :
    Fresh db (r.row kind c (r.hash pf)) ∧ ∃ a,
      Posted subjects { db with operations := db.operations ++ [r.row kind c (r.hash pf)] }
        (r.posting.args pf draw) a .bookingHold e db' := by
  obtain ⟨a₀, ha₀, hid₀, -⟩ := haccount
  have hfresh : Fresh db (r.row kind c (r.hash pf)) := ⟨hnew, ⟨a₀, ha₀, hid₀⟩, rfl, rfl⟩
  refine ⟨hfresh, ?_⟩
  rcases walletApplyPosting_ok h with ⟨-, he, -, -, -, -, -, hop, -⟩ | ⟨a, t, hposted⟩
  · exact absurd hop (hfresh.unnamed hs e he)
  · have ht : t = .bookingHold := TransactionType.text_inj hposted.type.symm
    subst ht
    exact ⟨a, hposted⟩

theorem Sound.reserve {r : Reservation} (hs : Sound db)
    (h : reserve pf subjects db r draw = .ok (o, db')) : Sound db' := by
  obtain ⟨kind, c, -, -, -, ⟨rfl, -⟩ | ⟨hnew, -, haccount, ⟨e, hpost⟩, -⟩⟩ := reserve_ok h
  · exact hs
  · obtain ⟨hfresh, a, hposted⟩ := reserve_fresh hs.keyed hnew haccount hpost
    exact hposted.sound_of_fresh hs hfresh rfl rfl rfl

theorem Sound.settle {id : Uuid} {capture : Bool} {actor role : String} (hs : Sound db)
    (h : settle pf subjects db id capture actor role draw = .ok (o, db')) : Sound db' := by
  obtain ⟨current, -, -, -, -, ⟨rfl, -⟩ | ⟨-, e, hpost⟩⟩ := settle_ok h
  · exact hs
  · exact hs.posting hpost

/-- Rewriting operations in a way that keeps the open amounts and the closed states. -/
theorem Sound.markReconciliation (hs : Sound db) (id : Uuid) : Sound (markReconciliation db id) := by
  have hopen : ∀ (o : WalletOperation) (account : Uuid), heldAmount account
      (if o.state = .reserved then { o with state := .reconciliation } else o) =
        heldAmount account o := by
    intro o account
    split
    · rename_i hstate
      simp [heldAmount, hstate]
    · rfl
  have hheld : ∀ account, held account (Wallet.markReconciliation db id).operations =
      held account db.operations := by
    intro account
    exact sum_modify_eq (fun o _ _ => hopen o account)
  refine ⟨⟨hs.keyed.accounts, ?_, hs.keyed.entryAccount, ?_, hs.keyed.entryAfter, ?_⟩, ?_, ?_⟩
  · refine hs.keyed.operations.modify (fun o => ?_)
    split <;> rfl
  · intro e he id' hid'
    obtain ⟨o, ho, rfl⟩ := hs.keyed.entryOperation e he id' hid'
    have hmem : o.id ∈ (Wallet.markReconciliation db id).operations.map WalletOperation.id := by
      rw [Wallet.markReconciliation, map_modify]
      · exact List.mem_map_of_mem ho
      · intro o; split <;> rfl
    simpa using hmem
  · intro o ho
    rcases modify_cases ho with ⟨ho, -⟩ | ⟨o₀, ho₀, -, rfl⟩
    · exact hs.keyed.operationAccount o ho
    · obtain ⟨a, ha, hid⟩ := hs.keyed.operationAccount o₀ ho₀
      refine ⟨a, ha, ?_⟩
      rw [hid]
      split <;> rfl
  · intro a ha
    have hsound := hs.accounts a ha
    exact ⟨hsound.available_nonneg, hsound.hold_nonneg, hsound.journal, by
      rw [hheld]; exact hsound.held⟩
  · intro o ho
    rcases modify_cases ho with ⟨ho, -⟩ | ⟨o₀, ho₀, -, rfl⟩
    · exact hs.operations o ho
    · have hsound := hs.operations o₀ ho₀
      split
      · rename_i hstate
        have hconfirms := hsound.confirms
        have hreleases := hsound.releases
        rw [hstate] at hconfirms hreleases
        refine ⟨hsound.amount_pos, hsound.holds, hconfirms, hreleases, hsound.refunded,
          hsound.refunded_nonneg, hsound.refunded_le, ?_⟩
        intro hpos
        have hcaptured := hsound.refunded_captured hpos
        rw [hstate] at hcaptured
        cases hcaptured
      · exact hsound

/-- Tables that differ in owners, links and audit only are equally in step. -/
theorem Sound.of_same_money {db db' : WalletDb} (hs : Sound db)
    (haccounts : db'.accounts = db.accounts) (hoperations : db'.operations = db.operations)
    (hentries : db'.entries = db.entries) : Sound db' := by
  obtain ⟨owners, links, accounts, operations, entries, audit⟩ := db
  obtain ⟨owners', links', accounts', operations', entries', audit'⟩ := db'
  subst haccounts hoperations hentries
  obtain ⟨⟨h₁, h₂, h₃, h₄, h₅, h₆⟩, haccounts, hoperations⟩ := hs
  exact ⟨⟨h₁, h₂, h₃, h₄, h₅, h₆⟩, fun a ha => ⟨(haccounts a ha).1, (haccounts a ha).2,
    (haccounts a ha).3, (haccounts a ha).4⟩, hoperations⟩

/-- A new account starts with no entries, no operations and nothing in its balances. -/
theorem Sound.newAccount {account owner : Uuid} {c : Currency} (hs : Sound db)
    (hnew : ∀ a ∈ db.accounts, a.id ≠ account) :
    Sound { db with accounts := db.accounts ++ [⟨account, owner, c, 0, 0, 0⟩] } := by
  refine ⟨⟨keyUnique_concat.mpr ⟨hs.keyed.accounts, hnew⟩, hs.keyed.operations, ?_,
    hs.keyed.entryOperation, hs.keyed.entryAfter, ?_⟩, ?_, hs.operations⟩
  · intro e he
    obtain ⟨a, ha, hid⟩ := hs.keyed.entryAccount e he
    exact ⟨a, List.mem_append_left _ ha, hid⟩
  · intro o ho
    obtain ⟨a, ha, hid⟩ := hs.keyed.operationAccount o ho
    exact ⟨a, List.mem_append_left _ ha, hid⟩
  · intro a ha
    rw [List.mem_append, List.mem_singleton] at ha
    rcases ha with ha | rfl
    · have hsound := hs.accounts a ha
      exact ⟨hsound.available_nonneg, hsound.hold_nonneg, hsound.journal, hsound.held⟩
    · have hentries : entriesOf account db.entries = [] := by
        rw [entriesOf, List.filter_eq_nil_iff]
        intro e he
        obtain ⟨a, ha, hid⟩ := hs.keyed.entryAccount e he
        simpa [← hid] using hnew a ha
      have hheld : held account db.operations = 0 := by
        apply sum_zero
        intro o ho
        obtain ⟨a, ha, hid⟩ := hs.keyed.operationAccount o ho
        rw [heldAmount, if_neg]
        rintro ⟨hacc, -⟩
        exact hnew a ha (hid.trans hacc)
      refine ⟨Int.le_refl 0, Int.le_refl 0, ?_, hheld.symm⟩
      show Journal _ _ _ (entriesOf account db.entries) _
      rw [hentries]
      exact .nil _

theorem Sound.provision {owner : Owner} {currencyText : String} {display : Value}
    {ownerId accountId account : Uuid} (hs : Sound db)
    (h : provision db owner currencyText display ownerId accountId = .ok (account, db')) :
    Sound db' := by
  simp only [Wallet.provision, bind_eq_ok, ensure_eq_ok, mapError_eq_ok, exists_const] at h
  obtain ⟨type, -, c, -, -, ⟨saved, db₁⟩, howner, haccount⟩ := h
  have hs₁ : Sound db₁ := by
    unfold upsertOwner at howner
    split at howner
    · cases howner
      exact hs.of_same_money rfl rfl rfl
    · simp only [bind_eq_ok, ensure_eq_ok, pure_eq_ok, Prod.mk.injEq, exists_const] at howner
      obtain ⟨-, -, rfl⟩ := howner
      exact hs.of_same_money rfl rfl rfl
  unfold upsertAccount at haccount
  split at haccount
  · cases haccount
    exact hs₁
  · simp only [bind_eq_ok, ensure_eq_ok, pure_eq_ok, Prod.mk.injEq, exists_const] at haccount
    obtain ⟨hnew, -, rfl⟩ := haccount
    exact hs₁.newAccount hnew

end ShaponTravels.Wallet
