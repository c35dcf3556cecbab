import ShaponTravels.Wallet.History

/-!
# Changes — what a call does to the operations

The operations after a call, row by row: a reservation adds one, a settlement rewrites one state,
everything else keeps the rows as they were inserted.
-/

namespace ShaponTravels.Wallet

open Library

variable {pf : Platform} {subjects : List FinancialSubject} {db db' : WalletDb} {draw : Draw}
  {o : WalletOperation}

/-- The operations as they were inserted. -/
def WalletDb.identities (db : WalletDb) : List WalletOperation :=
  db.operations.map WalletOperation.identity

@[simp] theorem identity_recordOperation (t : TransactionType) (amount : Int)
    (o : WalletOperation) : (recordOperation t amount o).identity = o.identity := by
  cases t <;> rfl

theorem identities_updateOperation (t : TransactionType) (amount : Int) (operation : Option Uuid)
    (operations : List WalletOperation) :
    (updateOperation t amount operation operations).map WalletOperation.identity =
      operations.map WalletOperation.identity := by
  cases operation with
  | none => rfl
  | some id => exact map_modify (identity_recordOperation t amount) operations

/-! ## Postings -/

theorem posting_operations {p : PostingArgs} {e : LedgerEntry}
    (h : walletApplyPosting subjects db p = .ok (e, db')) :
    db' = db ∨ ∃ t, p.type = t.text ∧
      db'.operations = updateOperation t p.amount p.operation db.operations := by
  rcases walletApplyPosting_ok h with ⟨rfl, -⟩ | ⟨a, t, hposted⟩
  · exact .inl rfl
  · exact .inr ⟨t, hposted.type, hposted.operations⟩

theorem posting_identities {p : PostingArgs} {e : LedgerEntry}
    (h : walletApplyPosting subjects db p = .ok (e, db')) : db'.identities = db.identities := by
  rcases posting_operations h with rfl | ⟨t, -, hoperations⟩
  · rfl
  · rw [WalletDb.identities, hoperations, identities_updateOperation]
    rfl

theorem posting_audit {p : PostingArgs} {e : LedgerEntry}
    (h : walletApplyPosting subjects db p = .ok (e, db')) : db.audit <+: db'.audit := by
  rcases walletApplyPosting_ok h with ⟨rfl, -⟩ | ⟨a, t, hposted⟩
  · exact List.prefix_refl _
  · rw [hposted.audit]
    exact List.prefix_append _ _

/-! ## Reservations and settlements -/

/-- A reservation repeats an operation of its subject or adds one of a new subject. -/
theorem reserve_operations {r : Reservation} (hk : Keyed db)
    (h : reserve pf subjects db r draw = .ok (o, db')) :
    ∃ kind c, SubjectKind.ofText? r.kind = some kind ∧ r.currency = c.text ∧ 0 < r.amount ∧
      ((db' = db ∧ o ∈ db.operations ∧ o.subjectKind = kind ∧ o.subjectId = r.subject) ∨
        ((∀ o' ∈ db.operations, o'.id ≠ r.id) ∧
          (∀ o' ∈ db.operations, ¬ (o'.subjectKind = kind ∧ o'.subjectId = r.subject)) ∧
          db'.operations = db.operations ++ [r.row kind c (r.hash pf)] ∧
          db.audit <+: db'.audit)) := by
  obtain ⟨kind, c, hkind, hc, hamount, hcases⟩ := reserve_ok h
  refine ⟨kind, c, hkind, hc, hamount, ?_⟩
  rcases hcases with ⟨rfl, hmem, hsame, hsubject, -⟩ | ⟨hnew, hsubject, haccount, ⟨e, hpost⟩, -⟩
  · exact .inl ⟨rfl, hmem, hsame, hsubject⟩
  · obtain ⟨-, a, hposted⟩ := reserve_fresh hk hnew haccount hpost
    refine .inr ⟨hnew, hsubject, ?_, by rw [hposted.audit]; exact List.prefix_append _ _⟩
    rw [hposted.operations]
    -- a hold records nothing on the operation it names
    show Library.modify WalletOperation.id r.id (fun o => o) (db.operations ++ [_]) = _
    simp [Library.modify]

/-- An open operation has no entry that settles it. -/
theorem OperationSound.unsettled {entries : List LedgerEntry} (h : OperationSound entries o)
    (hopen : o.state.isOpen) {e : LedgerEntry} (he : e ∈ entries)
    (hid : e.operationId = some o.id) :
    e.transactionType ≠ .bookingConfirm ∧ e.transactionType ≠ .holdRelease := by
  have hcount : ∀ t, e.transactionType = t → 0 < countOf t o.id entries := by
    intro t ht
    exact List.countP_pos_iff.mpr ⟨e, he, by simp [hid, ht]⟩
  have hconfirms := h.confirms
  have hreleases := h.releases
  constructor
  · intro ht
    have hpos := hcount _ ht
    rw [hconfirms] at hpos
    split at hpos
    · rename_i hstate
      rw [hstate] at hopen
      cases hopen
    · omega
  · intro ht
    have hpos := hcount _ ht
    rw [hreleases] at hpos
    split at hpos
    · rename_i hstate
      rw [hstate] at hopen
      cases hopen
    · omega

/-- A settlement finds its operation in the target state or rewrites its state. -/
theorem settle_operations {id : Uuid} {capture : Bool} {actor role : String} (hs : Sound db)
    (h : settle pf subjects db id capture actor role draw = .ok (o, db')) :
    ∃ current ∈ db.operations, current.id = id ∧ db.audit <+: db'.audit ∧
      ((db' = db ∧ current.state = if capture then .captured else .released) ∨
        (current.state.isOpen ∧ db'.operations = modify WalletOperation.id id
          (fun o => { o with state := if capture then .captured else .released })
          db.operations)) := by
  obtain ⟨current, hmem, hid, -, -, ⟨rfl, -, hstate⟩ | ⟨hopen, e, hpost⟩⟩ := settle_ok h
  · exact ⟨current, hmem, hid, List.prefix_refl _, .inl ⟨rfl, hstate⟩⟩
  · refine ⟨current, hmem, hid, posting_audit hpost, .inr ⟨hopen, ?_⟩⟩
    rcases walletApplyPosting_ok hpost with ⟨rfl, he, -, -, -, htype, -, hop, -⟩ | ⟨a, t, hposted⟩
    · -- an entry of that type would have closed the operation
      have hunsettled := (hs.operations current hmem).unsettled hopen he hop
      cases capture with
      | false =>
        have ht : _ = TransactionType.holdRelease := TransactionType.text_inj htype
        exact absurd ht hunsettled.2
      | true =>
        have ht : _ = TransactionType.bookingConfirm := TransactionType.text_inj htype
        exact absurd ht hunsettled.1
    · cases capture with
      | false =>
        have ht : t = .holdRelease := TransactionType.text_inj hposted.type.symm
        rw [hposted.operations, ht, ← hid]
        rfl
      | true =>
        have ht : t = .bookingConfirm := TransactionType.text_inj hposted.type.symm
        rw [hposted.operations, ht, ← hid]
        rfl

theorem settle_identities {id : Uuid} {capture : Bool} {actor role : String} (hs : Sound db)
    (h : settle pf subjects db id capture actor role draw = .ok (o, db')) :
    db'.identities = db.identities := by
  obtain ⟨current, -, -, -, ⟨rfl, -⟩ | ⟨-, hoperations⟩⟩ := settle_operations hs h
  · rfl
  · unfold WalletDb.identities
    rw [hoperations]
    refine map_modify (fun o => ?_) _
    rfl

theorem markReconciliation_identities (db : WalletDb) (id : Uuid) :
    (markReconciliation db id).identities = db.identities := by
  refine map_modify (fun o => ?_) _
  split <;> rfl

theorem provision_operations {owner : Owner} {currencyText : String} {display : Value}
    {ownerId accountId account : Uuid}
    (h : provision db owner currencyText display ownerId accountId = .ok (account, db')) :
    db'.operations = db.operations ∧ db'.entries = db.entries ∧ db'.audit = db.audit := by
  simp only [Wallet.provision, bind_eq_ok, ensure_eq_ok, mapError_eq_ok, exists_const] at h
  obtain ⟨type, -, c, -, -, ⟨saved, db₁⟩, howner, haccount⟩ := h
  have h₁ : db₁.operations = db.operations ∧ db₁.entries = db.entries ∧
      db₁.audit = db.audit := by
    unfold upsertOwner at howner
    split at howner
    · cases howner
      exact ⟨rfl, rfl, rfl⟩
    · simp only [bind_eq_ok, ensure_eq_ok, pure_eq_ok, Prod.mk.injEq, exists_const] at howner
      obtain ⟨-, -, rfl⟩ := howner
      exact ⟨rfl, rfl, rfl⟩
  unfold upsertAccount at haccount
  split at haccount
  · cases haccount
    exact h₁
  · simp only [bind_eq_ok, ensure_eq_ok, pure_eq_ok, Prod.mk.injEq, exists_const] at haccount
    obtain ⟨-, -, rfl⟩ := haccount
    exact h₁

theorem linkClient_ok {client account : Uuid} (h : linkClient db client account = .ok db') :
    ∃ links, db' = { db with links := links } := by
  simp only [linkClient, bind_eq_ok, fetch_eq_ok] at h
  obtain ⟨a, -, h⟩ := h
  split at h
  · simp only [bind_eq_ok, ensure_eq_ok, exists_const, pure_eq_ok] at h
    exact ⟨db.links, h.2.symm⟩
  · simp only [pure_eq_ok] at h
    exact ⟨_, h.symm⟩

/-! ## Amounts -/

/-- An entry that holds, confirms or releases an operation has its amount. -/
def AmountsAgree (db : WalletDb) : Prop :=
  ∀ e ∈ db.entries, e.transactionType.oncePerReservation → ∀ o ∈ db.operations,
    e.operationId = some o.id → e.amount = o.amount

/-- Operations that were inserted alike agree in every column but their state and their refunds. -/
theorem WalletOperation.of_identity {o o' : WalletOperation} (h : o.identity = o'.identity) :
    o' = { o with state := o'.state, refundedAmount := o'.refundedAmount } := by
  obtain ⟨id, account, kind, subject, booking, amount, currency, state, refunded, hash, actor,
    role⟩ := o
  obtain ⟨id', account', kind', subject', booking', amount', currency', state', refunded', hash',
    actor', role'⟩ := o'
  simp only [WalletOperation.identity, WalletOperation.mk.injEq] at h
  obtain ⟨rfl, rfl, rfl, rfl, rfl, rfl, rfl, -, -, rfl, rfl, rfl⟩ := h
  rfl

theorem mem_identities {o' : WalletOperation} (h : db'.identities = db.identities)
    (ho : o' ∈ db'.operations) : ∃ o ∈ db.operations, o.identity = o'.identity := by
  have hmem : o'.identity ∈ db'.identities := List.mem_map_of_mem ho
  rw [h] at hmem
  exact List.mem_map.mp hmem

theorem AmountsAgree.of_identities (h : AmountsAgree db) (hentries : db'.entries = db.entries)
    (hidentities : db'.identities = db.identities) : AmountsAgree db' := by
  intro e he honce o' ho' hop
  rw [hentries] at he
  obtain ⟨o, ho, hsame⟩ := mem_identities hidentities ho'
  have hid : o.id = o'.id := by rw [WalletOperation.of_identity hsame]
  have hamount : o.amount = o'.amount := by rw [WalletOperation.of_identity hsame]
  rw [h e he honce o ho (hop.trans (by rw [hid])), hamount]

theorem Posted.amountsAgree {p : PostingArgs} {a : WalletAccount} {t : TransactionType}
    {e : LedgerEntry} (hp : Posted subjects db p a t e db') (hk : Keyed db)
    (h : AmountsAgree db) : AmountsAgree db' := by
  intro e' he' honce o' ho' hop
  have hidentities : db'.identities = db.identities := by
    rw [WalletDb.identities, hp.operations, identities_updateOperation]
    rfl
  obtain ⟨o, ho, hsame⟩ := mem_identities hidentities ho'
  have hid : o.id = o'.id := by rw [WalletOperation.of_identity hsame]
  have hamount : o.amount = o'.amount := by rw [WalletOperation.of_identity hsame]
  rw [hp.entries, List.mem_append, List.mem_singleton] at he'
  rcases he' with he' | rfl
  · rw [h e' he' honce o ho (hop.trans (by rw [hid])), hamount]
  · -- the new entry names an operation of its own amount
    rw [hp.entry_type] at honce
    obtain ⟨o₁, hnames⟩ := hp.names (.inr honce)
    have hid₁ : o₁.id = o.id := by
      have hsome := hnames.named.symm.trans (hp.entry_operation.symm.trans hop)
      exact (Option.some.inj hsome).trans hid.symm
    have ho₁ := hk.operations.eq_of_key hnames.mem ho hid₁
    have hsettles := (hnames.settles (by rintro rfl; cases honce)).1
    rw [hp.entry_amount, ← hsettles, ho₁, hamount]

/-- The wallet invariant, and entries in the amounts of their operations. -/
structure Faithful (db : WalletDb) : Prop extends Sound db where
  amounts : AmountsAgree db

/-- `db'` is a faithful database at a later time. -/
structure Advanced (db db' : WalletDb) : Prop where
  faithful : Faithful db'
  history : Extends db db'
  audit : db.audit <+: db'.audit

namespace Faithful

theorem empty : Faithful .empty :=
  ⟨sound_empty, fun _ he => absurd he (List.not_mem_nil)⟩

/-- Owners, links and further events change nothing. -/
theorem of_same_money (hf : Faithful db) (haccounts : db'.accounts = db.accounts)
    (hoperations : db'.operations = db.operations) (hentries : db'.entries = db.entries)
    (haudit : db.audit <+: db'.audit) : Advanced db db' :=
  ⟨⟨hf.toSound.of_same_money haccounts hoperations hentries,
    hf.amounts.of_identities hentries (by rw [WalletDb.identities, hoperations]; rfl)⟩,
    .of_same_money hoperations hentries, haudit⟩

theorem logged (hf : Faithful db) (events : List AuditEvent) :
    Advanced db { db with audit := db.audit ++ events } :=
  hf.of_same_money rfl rfl rfl (List.prefix_append _ _)

theorem posting {p : PostingArgs} {e : LedgerEntry} (hf : Faithful db)
    (h : walletApplyPosting subjects db p = .ok (e, db')) : Advanced db db' := by
  refine ⟨⟨hf.toSound.posting h, ?_⟩, .posting hf.keyed h, posting_audit h⟩
  rcases walletApplyPosting_ok h with ⟨rfl, -⟩ | ⟨a, t, hposted⟩
  · exact hf.amounts
  · exact hposted.amountsAgree hf.keyed hf.amounts

theorem reserve {r : Reservation} (hf : Faithful db)
    (h : reserve pf subjects db r draw = .ok (o, db')) : Advanced db db' := by
  obtain ⟨kind, c, -, -, -, ⟨rfl, -⟩ | ⟨hnew, -, haccount, ⟨e, hpost⟩, -⟩⟩ := reserve_ok h
  · exact ⟨hf, .refl _, List.prefix_refl _⟩
  · obtain ⟨hfresh, a, hposted⟩ := reserve_fresh hf.keyed hnew haccount hpost
    refine ⟨⟨hf.toSound.reserve h, hposted.amountsAgree (hfresh.keyed hf.keyed) ?_⟩,
      .reserve hf.keyed h, by rw [hposted.audit]; exact List.prefix_append _ _⟩
    intro e' he' honce o' ho' hop
    rcases List.mem_append.mp ho' with ho' | ho'
    · exact hf.amounts e' he' honce o' ho' hop
    · rw [List.mem_singleton.mp ho'] at hop
      exact absurd hop (hfresh.unnamed hf.keyed e' he')

theorem settle {id : Uuid} {capture : Bool} {actor role : String} (hf : Faithful db)
    (h : settle pf subjects db id capture actor role draw = .ok (o, db')) : Advanced db db' := by
  obtain ⟨current, -, -, -, -, ⟨rfl, -⟩ | ⟨-, e, hpost⟩⟩ := settle_ok h
  · exact ⟨hf, .refl _, List.prefix_refl _⟩
  · exact hf.posting hpost

theorem markReconciliation (hf : Faithful db) (id : Uuid) :
    Advanced db (markReconciliation db id) :=
  ⟨⟨hf.toSound.markReconciliation id,
    hf.amounts.of_identities rfl (markReconciliation_identities db id)⟩,
    .markReconciliation db id, List.prefix_refl _⟩

theorem linkClient {client account : Uuid} (hf : Faithful db)
    (h : linkClient db client account = .ok db') : Advanced db db' := by
  obtain ⟨links, rfl⟩ := linkClient_ok h
  exact hf.of_same_money rfl rfl rfl (List.prefix_refl _)

theorem run {call : Call} (hf : Faithful db) (h : call.run pf subjects db = .ok db') :
    Advanced db db' := by
  obtain ⟨hsound, hextends⟩ := Call.run_keeps hf.toSound h
  cases call with
  | provision owner currency display ownerId accountId =>
    obtain ⟨⟨account, db₁⟩, hcall, rfl⟩ := map_eq_ok.mp h
    obtain ⟨hoperations, hentries, haudit⟩ := provision_operations hcall
    exact ⟨⟨hsound, hf.amounts.of_identities hentries
      (by simp only [WalletDb.identities, hoperations])⟩, hextends,
      by simp only [haudit, List.prefix_refl]⟩
  | posting p =>
    obtain ⟨⟨e, db₁⟩, hcall, rfl⟩ := map_eq_ok.mp h
    rw [mapError_eq_ok] at hcall
    exact hf.posting hcall
  | reserve r draw =>
    obtain ⟨⟨o, db₁⟩, hcall, rfl⟩ := map_eq_ok.mp h
    exact hf.reserve hcall
  | settle id capture actor role draw =>
    obtain ⟨⟨o, db₁⟩, hcall, rfl⟩ := map_eq_ok.mp h
    exact hf.settle hcall
  | markReconciliation id =>
    cases h
    exact hf.markReconciliation id

end Faithful

end ShaponTravels.Wallet
