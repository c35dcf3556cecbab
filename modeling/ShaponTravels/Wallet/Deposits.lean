import ShaponTravels.Wallet.Workflows

/-!
# Deposits — every review is final and every credit is spent once

`Moved` says once what an event does to the requests, the payment claims and the ledger.  The
invariant ties the three together: an approved request has its posting and no other request has one,
a payment belongs to one claim, and the approved reversals of a deposit stay within its credit.
-/

namespace ShaponTravels.Wallet.Workflows

open Library
open Nonissuance (Actor)

variable {desk : Desk} {db db' : Db} {actor : Actor} {draw : RequestDraw} {r row : WalletRequest}

/-! ## Keys of postings -/

theorem requestKey_inj {id id' : Uuid} (h : requestKey id = requestKey id') : id = id' := by
  have hlist := congrArg String.toList h
  simp only [requestKey, String.toList_append, List.append_cancel_left_eq] at hlist
  exact Uuid.text_inj (String.toList_inj.mp hlist)

/-- A key that does not start with `r`, `e`, `q` is the key of no request. -/
theorem ne_requestKey {key : String} {id : Uuid}
    (h : ¬ ['r', 'e', 'q'] <+: key.toList) : key ≠ requestKey id := by
  rintro rfl
  apply h
  simp only [requestKey, String.toList_append]
  exact ⟨_, rfl⟩

/-- The ledger after a call that settles no request. -/
def Undecided (entries entries' : List LedgerEntry) : Prop :=
  entries' = entries ∨ ∃ e, entries' = entries ++ [e] ∧ (∀ e' ∈ entries, e'.id ≠ e.id) ∧
    ∀ id, e.idempotencyKey ≠ requestKey id

theorem undecided_posting {subjects : List FinancialSubject} {db db' : WalletDb} {p : PostingArgs}
    {e : LedgerEntry} (hkey : ∀ id, p.key ≠ requestKey id)
    (h : walletApplyPosting subjects db p = .ok (e, db')) : Undecided db.entries db'.entries := by
  rcases walletApplyPosting_ok h with ⟨rfl, -⟩ | ⟨a, t, hposted⟩
  · exact .inl rfl
  · refine .inr ⟨e, hposted.entries, ?_, ?_⟩
    · rw [hposted.entry]
      exact hposted.new_id
    · rw [hposted.entry]
      exact hkey

theorem undecided_run {pf : Platform} {subjects : List FinancialSubject} {db db' : WalletDb}
    {call : Call} (hown : ownKey call) (h : call.run pf subjects db = .ok db') :
    Undecided db.entries db'.entries := by
  cases call with
  | provision owner currency display ownerId accountId =>
    obtain ⟨⟨account, db₁⟩, hcall, rfl⟩ := map_eq_ok.mp h
    exact .inl (provision_operations hcall).2.1
  | posting p =>
    obtain ⟨⟨e, db₁⟩, hcall, rfl⟩ := map_eq_ok.mp h
    rw [mapError_eq_ok] at hcall
    refine undecided_posting (fun id => ne_requestKey ?_) hcall
    intro hreq
    have hstart : "ticket-management:".toList <+: p.key.toList := by
      simpa [ownKey, startsWith] using hown
    have hboth := List.prefix_of_prefix_length_le hreq hstart (by decide)
    exact absurd hboth (by decide)
  | reserve r draw =>
    obtain ⟨⟨o, db₁⟩, hcall, rfl⟩ := map_eq_ok.mp h
    obtain ⟨kind, c, -, -, -, ⟨rfl, -⟩ | ⟨-, -, -, ⟨e, hpost⟩, -⟩⟩ := reserve_ok hcall
    · exact .inl rfl
    · have hkey : ∀ id, (r.posting.args pf draw).key ≠ requestKey id := by
        refine fun id => ne_requestKey ?_
        simp [Posting.args, Reservation.posting, String.toList_append]
      exact (undecided_posting hkey hpost :)
  | settle id capture actor role draw =>
    obtain ⟨⟨o, db₁⟩, hcall, rfl⟩ := map_eq_ok.mp h
    obtain ⟨current, -, -, -, -, ⟨rfl, -⟩ | ⟨-, e, hpost⟩⟩ := settle_ok hcall
    · exact .inl rfl
    · refine undecided_posting (fun id => ne_requestKey ?_) hpost
      cases capture with
      | false => simp [Posting.args, settlePosting, String.toList_append]
      | true => simp [Posting.args, settlePosting, String.toList_append]
  | markReconciliation id =>
    cases h
    exact .inl rfl

/-! ## What an event changes -/

/-- A new request `r`. -/
structure Requested (db : Db) (r : WalletRequest) (db' : Db) : Prop where
  pending : r.status = .pending
  unreviewed : r.reviewedByUserId = none
  amount : 0 < r.amount
  new : ∀ r' ∈ db.requests, r'.id ≠ r.id
  source : ∀ d, r.reversalOf = some d → ∃ original ∈ db.requests, original.id = d ∧
    original.kind = .deposit ∧ original.status = .approved
  requests : db'.requests = db.requests ++ [r]
  claims : db'.claims = db.claims
  wallet : db'.wallet.entries = db.wallet.entries

/-- A decision about the pending request `r`. -/
structure Decided (desk : Desk) (db : Db) (r : WalletRequest) (status : RequestStatus)
    (by_ note : String) (entry : Option Uuid) (now : Int) (db' : Db) : Prop where
  mem : r ∈ db.requests
  pending : r.status = .pending
  reviewer : by_ ≠ r.requestedByUserId
  reversal : checkReversal db.requests (r.reviewed status by_ note entry now) = .ok ()
  claims : claimPayment db.claims ((r.reviewed status by_ note entry now).credits desk.lower) r.id =
    .ok db'.claims
  requests : db'.requests = modify WalletRequest.id r.id
    (fun r => r.reviewed status by_ note entry now) db.requests
  wallet : (status = .rejected ∧ entry = none ∧ db'.wallet.entries = db.wallet.entries) ∨
    (status = .approved ∧ ∃ e, entry = some e.id ∧
      db'.wallet.entries = db.wallet.entries ++ [e] ∧ (∀ e' ∈ db.wallet.entries, e'.id ≠ e.id) ∧
        posts r e)

/-- What an event does. -/
inductive Moved (desk : Desk) (db db' : Db) : Prop where
  | outside (requests : db'.requests = db.requests) (claims : db'.claims = db.claims)
      (wallet : Undecided db.wallet.entries db'.wallet.entries)
  | requested (r : WalletRequest) (h : Requested db r db')
  | decided (r : WalletRequest) (status : RequestStatus) (by_ note : String) (entry : Option Uuid)
      (now : Int) (h : Decided desk db r status by_ note entry now db')

theorem Moved.refl (db : Db) : Moved desk db db := .outside rfl rfl (.inl rfl)

/-! ### Requests -/

theorem reference_ok {kind : RequestKind} {now : Int} {publicRef : String}
    (h : reference desk db kind now = .ok (publicRef, db')) :
    ∃ counters, db' = { db with counters := counters } := by
  unfold reference at h
  cases kind
  all_goals
    simp only [bind_eq_ok, ensure_eq_ok, exists_const, pure_eq_ok, Prod.mk.injEq] at h
    obtain ⟨start, -, -, -, rfl⟩ := h
    exact ⟨_, rfl⟩

theorem enqueue_ok {request : Uuid} {event : String} (h : enqueue db request event draw = .ok db') :
    ∃ notifications, db' = { db with notifications := notifications } := by
  simp only [enqueue, bind_eq_ok, pure_eq_ok] at h
  obtain ⟨notifications, -, rfl⟩ := h
  exact ⟨_, rfl⟩

theorem commit_ok (h : commit db r = .ok (row, db')) :
    requestIntegrity db r ∧ row = r ∧ db' = db := by
  simp only [commit, bind_eq_ok, ensure_eq_ok, exists_const, pure_eq_ok, Prod.mk.injEq] at h
  exact ⟨h.1, h.2.1.symm, h.2.2.symm⟩

theorem checkReversal_source (h : checkReversal db.requests r = .ok ()) :
    ∀ d, r.reversalOf = some d → ∃ original ∈ db.requests, original.id = d ∧
      original.kind = .deposit ∧ original.status = .approved ∧
        (r.status ≠ .rejected → r.amount ≤ original.amount - reversed db.requests d r.id) := by
  intro d hd
  simp only [checkReversal, hd, bind_eq_ok, fetch_eq_ok, ensure_eq_ok, exists_const] at h
  obtain ⟨original, hlookup, ⟨hkind, hstatus, -⟩, hbound⟩ := h
  exact ⟨original, lookup_mem hlookup, lookup_key hlookup, hkind, hstatus, hbound⟩

theorem insertRequest_ok (hpending : r.status = .pending) (hunreviewed : r.reviewedByUserId = none)
    (h : insertRequest desk db r = .ok db') :
    Requested db r db' ∧ db'.wallet = db.wallet := by
  simp only [insertRequest, financialControls, bind_eq_ok, ensure_eq_ok, exists_const,
    pure_eq_ok] at h
  obtain ⟨claims, ⟨claims', hclaims, _, hreversal, rfl⟩, hamount, -, hnew, -, -, -, rfl⟩ := h
  have hcredits : r.credits desk.lower = none := by
    simp [WalletRequest.credits, hpending]
  rw [hcredits] at hclaims
  cases hclaims
  refine ⟨⟨hpending, hunreviewed, hamount, hnew, ?_, rfl, rfl, rfl⟩, rfl⟩
  intro d hd
  obtain ⟨original, hmem, hid, hkind, hstatus, -⟩ := checkReversal_source hreversal d hd
  exact ⟨original, hmem, hid, hkind, hstatus⟩

/-- Whatever else a request writes: counters before it, notices and an audit event after it. -/
theorem Requested.around {db₁ db₂ : Db} {counters : List (Tally (RequestKind × Int))}
    (hbefore : db₁ = { db with counters := counters }) (h : Requested db₁ r db₂)
    (hrequests : db'.requests = db₂.requests) (hclaims : db'.claims = db₂.claims)
    (hwallet : db'.wallet.entries = db₂.wallet.entries) : Requested db r db' := by
  subst hbefore
  exact ⟨h.pending, h.unreviewed, h.amount, h.new, h.source, hrequests.trans h.requests,
    hclaims.trans h.claims, hwallet.trans h.wallet⟩

theorem deposit_moved {id account owner : Uuid} {input : Deposit} {gross : Int}
    (h : deposit desk db actor id input account owner gross draw = .ok (row, db')) :
    Moved desk db db' := by
  simp only [deposit, bind_eq_ok] at h
  obtain ⟨old, -, h⟩ := h
  split at h
  · cases h
    exact .refl db
  · simp only [bind_eq_ok, mapError_eq_ok, Prod.exists] at h
    obtain ⟨extra, net, -, publicRef, db₁, href, c, -, db₂, hinsert, db₃, henqueue, hcommit⟩ := h
    obtain ⟨counters, hbefore⟩ := reference_ok href
    obtain ⟨hrequested, -⟩ := insertRequest_ok rfl rfl hinsert
    obtain ⟨notifications, rfl⟩ := enqueue_ok henqueue
    obtain ⟨-, -, rfl⟩ := commit_ok hcommit
    exact .requested _ (hrequested.around hbefore rfl rfl rfl)

theorem adjustment_moved {id account : Uuid} {amount : Int} {kind reason : String}
    (h : adjustment desk db actor id account amount kind reason draw = .ok (row, db')) :
    Moved desk db db' := by
  simp only [adjustment, bind_eq_ok] at h
  obtain ⟨old, -, h⟩ := h
  split at h
  · cases h
    exact .refl db
  · simp only [bind_eq_ok, mapError_eq_ok, Prod.exists] at h
    obtain ⟨publicRef, db₁, href, a, -, db₂, hinsert, hcommit⟩ := h
    obtain ⟨counters, hbefore⟩ := reference_ok href
    obtain ⟨hrequested, -⟩ := insertRequest_ok rfl rfl hinsert
    obtain ⟨-, -, rfl⟩ := commit_ok hcommit
    exact .requested _ (hrequested.around hbefore rfl rfl rfl)

theorem reverseDeposit_moved {id source : Uuid} {amount reason : String}
    (h : reverseDeposit desk db actor id source amount reason draw = .ok (row, db')) :
    Moved desk db db' := by
  simp only [reverseDeposit, bind_eq_ok] at h
  obtain ⟨-, -, -, -, minor, -, old, -, h⟩ := h
  split at h
  · cases h
    exact .refl db
  · simp only [bind_eq_ok, mapError_eq_ok, Prod.exists] at h
    obtain ⟨original, -, publicRef, db₁, href, db₂, hinsert, hcommit⟩ := h
    obtain ⟨counters, hbefore⟩ := reference_ok href
    obtain ⟨hrequested, -⟩ := insertRequest_ok rfl rfl hinsert
    obtain ⟨-, -, rfl⟩ := commit_ok hcommit
    exact .requested _ (hrequested.around hbefore rfl rfl rfl)

/-! ### Reviews -/

theorem updateRequest_ok {status : RequestStatus} {by_ note : String} {entry : Option Uuid}
    {now : Int} (h : updateRequest desk db r status by_ note entry now = .ok db') :
    r.status = .pending ∧ by_ ≠ r.requestedByUserId ∧
      checkReversal db.requests (r.reviewed status by_ note entry now) = .ok () ∧
      claimPayment db.claims ((r.reviewed status by_ note entry now).credits desk.lower) r.id =
        .ok db'.claims ∧
      db'.requests = modify WalletRequest.id r.id (fun r => r.reviewed status by_ note entry now)
        db.requests ∧ db'.wallet = db.wallet := by
  simp only [updateRequest, financialControls, bind_eq_ok, ensure_eq_ok, exists_const,
    pure_eq_ok] at h
  obtain ⟨claims, ⟨claims', hclaims, _, hreversal, rfl⟩, hpending, -, hreviewer, -, -, -, rfl⟩ := h
  exact ⟨hpending, hreviewer, hreversal, hclaims, rfl, rfl⟩

/-- The posting of a request nothing was posted for yet is a new entry. -/
theorem postRequest_ok {subjects : List FinancialSubject} {note : String} {entry : Uuid}
    (hunposted : ∀ e ∈ db.wallet.entries, e.idempotencyKey ≠ requestKey r.id)
    (h : postRequest desk subjects db r actor note draw = .ok (entry, db')) :
    ∃ e wallet, entry = e.id ∧ db' = { db with wallet := wallet } ∧
      wallet.entries = db.wallet.entries ++ [e] ∧ ∀ e' ∈ db.wallet.entries, e'.id ≠ e.id := by
  simp only [postRequest, bind_eq_ok, fetch_eq_ok, pure_eq_ok, Prod.exists, Prod.mk.injEq] at h
  obtain ⟨type, -, extra, -, e, wallet, hpost, rfl, rfl⟩ := h
  rcases walletApplyPosting_ok (post_ok hpost) with ⟨-, he, -, hkey, -⟩ | ⟨a, t, hposted⟩
  · exact absurd hkey (hunposted e he)
  · refine ⟨e, wallet, rfl, rfl, hposted.entries, ?_⟩
    rw [hposted.entry]
    exact hposted.new_id

/-- The entry an approved request names is the last one, and the deferred trigger compared them. -/
theorem posts_of_integrity {e : LedgerEntry} {entries : List LedgerEntry}
    (hledger : row.ledgerEntryId = some e.id) (hstatus : row.status = .approved)
    (hentries : db.wallet.entries = entries ++ [e]) (hnew : ∀ e' ∈ entries, e'.id ≠ e.id)
    (h : requestIntegrity db row) : posts row e := by
  have habsent : lookup LedgerEntry.id e.id entries = none := lookup_eq_none.mpr hnew
  have hlookup : lookup LedgerEntry.id e.id (entries ++ [e]) = some e := by
    rw [lookup_concat, habsent, if_pos rfl, Option.none_or]
  simpa [requestIntegrity, hstatus, hledger, hentries, hlookup] using h

/-- What happened to the ledger before a review is recorded. -/
def Settled (status : RequestStatus) (ledger : Option Uuid) (entries entries' : List LedgerEntry) :
    Prop :=
  (status = .rejected ∧ ledger = none ∧ entries' = entries) ∨
    (status = .approved ∧ ∃ e, ledger = some e.id ∧ entries' = entries ++ [e] ∧
      ∀ e' ∈ entries, e'.id ≠ e.id)

theorem recordReview_ok {wallet : WalletDb} {status : RequestStatus} {note : String}
    {ledger : Option Uuid} (hr : r ∈ db.requests)
    (hsettled : Settled status ledger db.wallet.entries wallet.entries)
    (h : recordReview desk { db with wallet := wallet } r actor status note ledger draw =
      .ok (row, db')) :
    Decided desk db r status actor.externalUserId note ledger draw.now db' ∧
      row = r.reviewed status actor.externalUserId note ledger draw.now := by
  simp only [recordReview, bind_eq_ok, mapError_eq_ok] at h
  obtain ⟨db₁, hupdate, h⟩ := h
  obtain ⟨hpending, hreviewer, hreversal, hclaims, hrequests, hwallet⟩ := updateRequest_ok hupdate
  have hcommit : ∃ notifications, commit (audit { db₁ with notifications := notifications } actor
      (r.kind.text ++ "." ++ status.text) r.id (.object [("ledgerEntryId", idOrNull ledger)]))
      (r.reviewed status actor.externalUserId note ledger draw.now) = .ok (row, db') := by
    split at h
    · obtain ⟨db₂, hnotice, h⟩ := bind_eq_ok.mp h
      obtain ⟨notifications, rfl⟩ := enqueue_ok hnotice
      exact ⟨notifications, h⟩
    · exact ⟨_, h⟩
  obtain ⟨notifications, hcommit⟩ := hcommit
  obtain ⟨hintegrity, rfl, rfl⟩ := commit_ok hcommit
  refine ⟨⟨hr, hpending, hreviewer, hreversal, hclaims, hrequests, ?_⟩, rfl⟩
  have hentries : db₁.wallet.entries = wallet.entries := by rw [hwallet]
  rcases hsettled with ⟨hst, hledger, hsame⟩ | ⟨hst, e, hledger, hnew, hids⟩
  · exact .inl ⟨hst, hledger, hentries.trans hsame⟩
  · refine .inr ⟨hst, e, hledger, hentries.trans hnew, hids, ?_⟩
    have hposts : posts (r.reviewed status actor.externalUserId note ledger draw.now) e :=
      posts_of_integrity hledger hst (hentries.trans hnew) hids hintegrity
    exact hposts

theorem decideRequest_ok {subjects : List FinancialSubject} {status : RequestStatus} {note : String}
    (hr : r ∈ db.requests) (hstatus : status = .approved ∨ status = .rejected)
    (hunposted : ∀ e ∈ db.wallet.entries, e.idempotencyKey ≠ requestKey r.id)
    (h : decideRequest desk subjects db r actor status note draw = .ok (row, db')) :
    ∃ entry, Decided desk db r status actor.externalUserId note entry draw.now db' ∧
      row = r.reviewed status actor.externalUserId note entry draw.now := by
  simp only [decideRequest, bind_eq_ok, ensure_eq_ok, exists_const] at h
  obtain ⟨-, h⟩ := h
  rcases hstatus with rfl | rfl
  · simp only [if_true, bind_eq_ok, Prod.exists] at h
    obtain ⟨entry, db₁, hpost, hrecord⟩ := h
    obtain ⟨e, wallet, rfl, rfl, hentries, hnew⟩ := postRequest_ok hunposted hpost
    exact ⟨_, recordReview_ok hr (.inr ⟨rfl, e, rfl, hentries, hnew⟩) hrecord⟩
  · exact ⟨_, recordReview_ok hr (.inl ⟨rfl, rfl, rfl⟩) h⟩

/-- A review answers for a request that was reviewed in the same way, or decides a pending one. -/
theorem review_ok {subjects : List FinancialSubject} {id : Uuid} {decision note : String}
    (hunposted : ∀ r ∈ db.requests, r.status = .pending → ∀ e ∈ db.wallet.entries,
      e.idempotencyKey ≠ requestKey r.id)
    (h : review desk subjects db actor id decision note draw = .ok (row, db')) :
    ∃ r ∈ db.requests, r.id = id ∧ row.id = id ∧ r.requestedByUserId ≠ actor.externalUserId ∧
      row.status.text = decision ∧ row.reviewRemarks = some note ∧
      ((db' = db ∧ row = r) ∨ ∃ status entry,
        Decided desk db r status actor.externalUserId note entry draw.now db' ∧
          row = r.reviewed status actor.externalUserId note entry draw.now) := by
  simp only [review, bind_eq_ok, ensure_eq_ok, fetch_eq_ok, exists_const] at h
  obtain ⟨-, -, hdecision, -, -, r, hlookup, hself, h⟩ := h
  have hmem := lookup_mem hlookup
  have hid : r.id = id := lookup_key hlookup
  refine ⟨r, hmem, hid, ?_⟩
  split at h
  · rename_i hpending
    have hstatus : (if decision = "approved" then RequestStatus.approved else .rejected) = .approved ∨
        (if decision = "approved" then RequestStatus.approved else .rejected) = .rejected := by
      split
      · exact .inl rfl
      · exact .inr rfl
    obtain ⟨entry, hdecided, hrow⟩ := decideRequest_ok hmem hstatus (hunposted r hmem hpending) h
    have htext : (if decision = "approved" then RequestStatus.approved else .rejected).text =
        decision := by
      rcases List.mem_pair.mp hdecision with rfl | rfl
      · rfl
      · rfl
    rw [hrow]
    exact ⟨hid, hself, htext, rfl, .inr ⟨_, entry, hdecided, rfl⟩⟩
  · simp only [bind_eq_ok, ensure_eq_ok, exists_const, pure_eq_ok, Prod.mk.injEq] at h
    obtain ⟨⟨htext, hnote⟩, rfl, rfl⟩ := h
    exact ⟨hid, hself, htext, hnote, .inl ⟨rfl, rfl⟩⟩

theorem claimPayment_ok {claims claims' : List PaymentClaim} {identity : Option String}
    {request : Uuid} (hu : KeyUnique PaymentClaim.paymentIdentity claims)
    (h : claimPayment claims identity request = .ok claims') :
    KeyUnique PaymentClaim.paymentIdentity claims' ∧ claims <+: claims' ∧
      ∀ i, identity = some i → ⟨i, request⟩ ∈ claims' := by
  unfold claimPayment at h
  split at h
  · cases h
    exact ⟨hu, List.prefix_refl _, fun i hi => by cases hi⟩
  · rename_i identity
    split at h
    · rename_i hnone
      cases h
      refine ⟨keyUnique_concat.mpr ⟨hu, lookup_eq_none.mp hnone⟩, List.prefix_append _ _, ?_⟩
      rintro i ⟨⟩
      exact List.mem_append_right _ List.mem_cons_self
    · rename_i c hsome
      split at h
      · rename_i hclaimant
        cases h
        refine ⟨hu, List.prefix_refl _, ?_⟩
        rintro i ⟨⟩
        have hkey : c.paymentIdentity = identity := lookup_key hsome
        rw [← hkey, ← hclaimant]
        exact lookup_mem hsome
      · cases h

/-! ## The invariant -/

/-- What a request takes from the credit of the deposit `d`. -/
def drawn (d : Uuid) (r : WalletRequest) : Int :=
  if r.reversalOf = some d ∧ r.status = .approved then r.amount else 0

/-- The approved reversals of the deposit `d`. -/
def reversedTotal (requests : List WalletRequest) (d : Uuid) : Int :=
  (requests.map (drawn d)).sum

structure Controlled (desk : Desk) (db : Db) : Prop where
  requests : KeyUnique WalletRequest.id db.requests
  entries : KeyUnique LedgerEntry.id db.wallet.entries
  claims : KeyUnique PaymentClaim.paymentIdentity db.claims
  amounts : ∀ r ∈ db.requests, 0 < r.amount
  reviewers : ∀ r ∈ db.requests, r.reviewedByUserId ≠ some r.requestedByUserId
  posted : ∀ r ∈ db.requests, r.status = .approved →
    ∃ e ∈ db.wallet.entries, r.ledgerEntryId = some e.id ∧ posts r e
  keyed : ∀ e ∈ db.wallet.entries, ∀ id, e.idempotencyKey = requestKey id →
    ∃ r ∈ db.requests, r.id = id ∧ r.status = .approved ∧ r.ledgerEntryId = some e.id
  claimed : ∀ r ∈ db.requests, ∀ i, r.credits desk.lower = some i → ⟨i, r.id⟩ ∈ db.claims
  sources : ∀ r ∈ db.requests, ∀ d, r.reversalOf = some d → ∃ original ∈ db.requests,
    original.id = d ∧ original.kind = .deposit ∧ original.status = .approved
  bound : ∀ d ∈ db.requests, reversedTotal db.requests d.id ≤ d.amount

theorem controlled_fresh : Controlled desk .fresh := by
  constructor
  all_goals first
    | exact List.nodup_nil
    | exact fun _ h => absurd h List.not_mem_nil

/-- Nothing is posted for a pending request. -/
theorem Controlled.unposted (hc : Controlled desk db) (hr : r ∈ db.requests)
    (hpending : r.status = .pending) : ∀ e ∈ db.wallet.entries, e.idempotencyKey ≠ requestKey r.id := by
  intro e he hkey
  obtain ⟨r', hr', hid, hstatus, -⟩ := hc.keyed e he r.id hkey
  rw [hc.requests.eq_of_key hr' hr hid, hpending] at hstatus
  cases hstatus

/-- The reversals of a deposit that is not there, or not approved, are none. -/
theorem Controlled.undrawn (hc : Controlled desk db) {d : Uuid}
    (h : ∀ original ∈ db.requests, original.id = d → original.status ≠ .approved) :
    reversedTotal db.requests d = 0 := by
  apply sum_zero
  intro r hr
  rw [drawn, if_neg]
  rintro ⟨hreversal, -⟩
  obtain ⟨original, hmem, hid, -, hstatus⟩ := hc.sources r hr d hreversal
  exact h original hmem hid hstatus

theorem Controlled.outside (hc : Controlled desk db) (hrequests : db'.requests = db.requests)
    (hclaims : db'.claims = db.claims) (hwallet : Undecided db.wallet.entries db'.wallet.entries) :
    Controlled desk db' := by
  have hsub : ∀ e ∈ db.wallet.entries, e ∈ db'.wallet.entries := by
    intro e he
    rcases hwallet with h | ⟨e', h, -, -⟩
    · rw [h]; exact he
    · rw [h]; exact List.mem_append_left _ he
  refine ⟨by rw [hrequests]; exact hc.requests, ?_, by rw [hclaims]; exact hc.claims,
    by rw [hrequests]; exact hc.amounts, by rw [hrequests]; exact hc.reviewers, ?_, ?_,
    by rw [hrequests, hclaims]; exact hc.claimed, by rw [hrequests]; exact hc.sources,
    by rw [hrequests]; exact hc.bound⟩
  · rcases hwallet with h | ⟨e, h, hnew, -⟩
    · rw [h]; exact hc.entries
    · rw [h]; exact keyUnique_concat.mpr ⟨hc.entries, hnew⟩
  · rw [hrequests]
    intro r hr hstatus
    obtain ⟨e, he, hledger, hposts⟩ := hc.posted r hr hstatus
    exact ⟨e, hsub e he, hledger, hposts⟩
  · rw [hrequests]
    intro e he id hkey
    rcases hwallet with h | ⟨e', h, -, hother⟩
    · rw [h] at he; exact hc.keyed e he id hkey
    · rw [h, List.mem_append, List.mem_singleton] at he
      rcases he with he | rfl
      · exact hc.keyed e he id hkey
      · exact absurd hkey (hother id)

theorem Controlled.requested (hc : Controlled desk db) (h : Requested db r db') :
    Controlled desk db' := by
  have hmem : ∀ {r'}, r' ∈ db'.requests → r' ∈ db.requests ∨ r' = r := by
    intro r' hr'
    rw [h.requests, List.mem_append, List.mem_singleton] at hr'
    exact hr'
  have hsub : ∀ {r'}, r' ∈ db.requests → r' ∈ db'.requests := by
    intro r' hr'
    rw [h.requests]
    exact List.mem_append_left _ hr'
  -- a request that is pending draws nothing
  have htotal : ∀ d, reversedTotal db'.requests d = reversedTotal db.requests d := by
    intro d
    rw [reversedTotal, h.requests, sum_concat, drawn, if_neg, add_zero, reversedTotal]
    rintro ⟨-, hstatus⟩
    rw [h.pending] at hstatus
    cases hstatus
  constructor
  case requests =>
    rw [h.requests]
    exact keyUnique_concat.mpr ⟨hc.requests, h.new⟩
  case entries => rw [h.wallet]; exact hc.entries
  case claims => rw [h.claims]; exact hc.claims
  case amounts =>
    intro r' hr'
    rcases hmem hr' with hr' | rfl
    · exact hc.amounts r' hr'
    · exact h.amount
  case reviewers =>
    intro r' hr'
    rcases hmem hr' with hr' | rfl
    · exact hc.reviewers r' hr'
    · rw [h.unreviewed]
      simp
  case posted =>
    intro r' hr' hstatus
    rw [h.wallet]
    rcases hmem hr' with hr' | rfl
    · exact hc.posted r' hr' hstatus
    · rw [h.pending] at hstatus
      cases hstatus
  case keyed =>
    intro e he id hkey
    rw [h.wallet] at he
    obtain ⟨r', hr', hfound⟩ := hc.keyed e he id hkey
    exact ⟨r', hsub hr', hfound⟩
  case claimed =>
    intro r' hr' i hi
    rw [h.claims]
    rcases hmem hr' with hr' | rfl
    · exact hc.claimed r' hr' i hi
    · simp [WalletRequest.credits, h.pending] at hi
  case sources =>
    intro r' hr' d hd
    have hsource : ∃ original ∈ db.requests, original.id = d ∧ original.kind = .deposit ∧
        original.status = .approved := by
      rcases hmem hr' with hr' | rfl
      · exact hc.sources r' hr' d hd
      · exact h.source d hd
    obtain ⟨original, horiginal, hfound⟩ := hsource
    exact ⟨original, hsub horiginal, hfound⟩
  case bound =>
    intro d hd
    rw [htotal]
    rcases hmem hd with hd | rfl
    · exact hc.bound d hd
    · rw [hc.undrawn (fun original horiginal hid => absurd hid (h.new original horiginal))]
      exact Int.le_of_lt h.amount

section Decisions

variable {status : RequestStatus} {by_ note : String} {entry : Option Uuid} {now : Int}

theorem Decided.mem_cases (hc : Controlled desk db) (h : Decided desk db r status by_ note entry now db')
    {r' : WalletRequest} (hr' : r' ∈ db'.requests) :
    (r' ∈ db.requests ∧ r'.id ≠ r.id) ∨ r' = r.reviewed status by_ note entry now := by
  rw [h.requests] at hr'
  rcases modify_cases hr' with hold | ⟨r₀, hr₀, hid, rfl⟩
  · exact .inl hold
  · rw [hc.requests.eq_of_key hr₀ h.mem hid]
    exact .inr rfl

theorem Decided.mem_of_ne (h : Decided desk db r status by_ note entry now db') {r' : WalletRequest}
    (hr' : r' ∈ db.requests) (hne : r'.id ≠ r.id) : r' ∈ db'.requests := by
  rw [h.requests]
  exact mem_modify_of_ne hr' hne

theorem Decided.mem_row (h : Decided desk db r status by_ note entry now db') :
    r.reviewed status by_ note entry now ∈ db'.requests := by
  rw [h.requests]
  exact mem_modify.mpr ⟨r, h.mem, if_pos rfl⟩

/-- A request that is no longer pending is not the one a decision is about. -/
theorem Decided.mem_of_reviewed (hc : Controlled desk db)
    (h : Decided desk db r status by_ note entry now db') {r' : WalletRequest}
    (hr' : r' ∈ db.requests) (hreviewed : r'.status ≠ .pending) : r' ∈ db'.requests := by
  refine h.mem_of_ne hr' (fun hid => hreviewed ?_)
  rw [hc.requests.eq_of_key hr' h.mem hid]
  exact h.pending

theorem Decided.entries_subset (h : Decided desk db r status by_ note entry now db') :
    ∀ e ∈ db.wallet.entries, e ∈ db'.wallet.entries := by
  intro e he
  rcases h.wallet with ⟨-, -, hsame⟩ | ⟨-, e', -, hnew, -⟩
  · rw [hsame]; exact he
  · rw [hnew]; exact List.mem_append_left _ he

/-- The sum the trigger reads is the whole of the approved reversals while `r` is pending. -/
theorem Controlled.reversed_eq (hc : Controlled desk db) (hr : r ∈ db.requests)
    (hpending : r.status = .pending) (d : Uuid) :
    reversed db.requests d r.id = reversedTotal db.requests d := by
  have hfilter := sum_filter_map (fun r' : WalletRequest => r'.reversalOf = some d ∧
    r'.status = .approved ∧ r'.id ≠ r.id) WalletRequest.amount db.requests
  rw [reversed, reversedTotal]
  refine hfilter.trans (sum_congr ?_)
  intro r' hr'
  by_cases hid : r'.id = r.id
  · have hsame := hc.requests.eq_of_key hr' hr hid
    simp [drawn, hsame, hpending]
  · simp [drawn, hid]

/-- A decision keeps the reversals of every deposit within its credit. -/
theorem Decided.bound (hc : Controlled desk db) (h : Decided desk db r status by_ note entry now db')
    {d : WalletRequest} (hd : d ∈ db.requests) : reversedTotal db'.requests d.id ≤ d.amount := by
  have htotal : reversedTotal db'.requests d.id = reversedTotal db.requests d.id - drawn d.id r +
      drawn d.id (r.reviewed status by_ note entry now) := by
    rw [reversedTotal, h.requests]
    exact sum_modify hc.requests h.mem (fun r => r.reviewed status by_ note entry now) (drawn d.id)
  have hbefore : drawn d.id r = 0 := by
    simp [drawn, h.pending]
  have hbound := hc.bound d hd
  by_cases hdraws : r.reversalOf = some d.id ∧ status = .approved
  · obtain ⟨hreversal, hstatus⟩ := hdraws
    obtain ⟨original, horiginal, hid, -, -, hcheck⟩ :=
      checkReversal_source h.reversal d.id hreversal
    have hamount : r.amount ≤ original.amount - reversed db.requests d.id r.id :=
      hcheck (by rw [WalletRequest.reviewed, hstatus]; exact RequestStatus.noConfusion)
    rw [hc.requests.eq_of_key horiginal hd hid, hc.reversed_eq h.mem h.pending] at hamount
    have hafter : drawn d.id (r.reviewed status by_ note entry now) = r.amount :=
      if_pos ⟨hreversal, hstatus⟩
    omega
  · have hafter : drawn d.id (r.reviewed status by_ note entry now) = 0 := if_neg hdraws
    omega

theorem Controlled.decided (hc : Controlled desk db)
    (h : Decided desk db r status by_ note entry now db') : Controlled desk db' := by
  obtain ⟨hclaims, hleading, hclaimed⟩ := claimPayment_ok hc.claims h.claims
  constructor
  case requests =>
    rw [h.requests]
    exact hc.requests.modify (fun _ => rfl)
  case entries =>
    rcases h.wallet with ⟨-, -, hsame⟩ | ⟨-, e, -, hnew, hids, -⟩
    · rw [hsame]; exact hc.entries
    · rw [hnew]; exact keyUnique_concat.mpr ⟨hc.entries, hids⟩
  case claims => exact hclaims
  case amounts =>
    intro r' hr'
    rcases h.mem_cases hc hr' with ⟨hr', -⟩ | rfl
    · exact hc.amounts r' hr'
    · exact hc.amounts r h.mem
  case reviewers =>
    intro r' hr'
    rcases h.mem_cases hc hr' with ⟨hr', -⟩ | rfl
    · exact hc.reviewers r' hr'
    · exact fun hsame => h.reviewer (Option.some.inj hsame)
  case posted =>
    intro r' hr' hstatus
    rcases h.mem_cases hc hr' with ⟨hr', -⟩ | rfl
    · obtain ⟨e, he, hledger, hposts⟩ := hc.posted r' hr' hstatus
      exact ⟨e, h.entries_subset e he, hledger, hposts⟩
    · rcases h.wallet with ⟨hrejected, -⟩ | ⟨-, e, hledger, hnew, -, hposts⟩
      · rw [WalletRequest.reviewed, hrejected] at hstatus
        cases hstatus
      · refine ⟨e, ?_, hledger, hposts⟩
        rw [hnew]
        exact List.mem_append_right _ List.mem_cons_self
  case keyed =>
    have hold : ∀ e ∈ db.wallet.entries, ∀ id, e.idempotencyKey = requestKey id →
        ∃ r' ∈ db'.requests, r'.id = id ∧ r'.status = .approved ∧ r'.ledgerEntryId = some e.id := by
      intro e he id hkey
      obtain ⟨r', hr', hid, hstatus, hledger⟩ := hc.keyed e he id hkey
      have hreviewed : r'.status ≠ .pending := by rw [hstatus]; exact RequestStatus.noConfusion
      exact ⟨r', h.mem_of_reviewed hc hr' hreviewed, hid, hstatus, hledger⟩
    intro e he id hkey
    rcases h.wallet with ⟨-, -, hsame⟩ | ⟨hstatus, e', hledger, hnew, -, hposts⟩
    · rw [hsame] at he
      exact hold e he id hkey
    · rw [hnew, List.mem_append, List.mem_singleton] at he
      rcases he with he | rfl
      · exact hold e he id hkey
      · simp only [posts, Bool.and_eq_true, decide_eq_true_eq] at hposts
        have hid : r.id = id := requestKey_inj (hposts.1.2.symm.trans hkey)
        exact ⟨_, h.mem_row, hid, hstatus, hledger⟩
  case claimed =>
    intro r' hr' i hi
    rcases h.mem_cases hc hr' with ⟨hr', -⟩ | rfl
    · exact hleading.subset (hc.claimed r' hr' i hi)
    · exact hclaimed i hi
  case sources =>
    have hold : ∀ r' ∈ db.requests, ∀ d, r'.reversalOf = some d → ∃ original ∈ db'.requests,
        original.id = d ∧ original.kind = .deposit ∧ original.status = .approved := by
      intro r' hr' d hd
      obtain ⟨original, horiginal, hid, hkind, hstatus⟩ := hc.sources r' hr' d hd
      have hreviewed : original.status ≠ .pending := by
        rw [hstatus]; exact RequestStatus.noConfusion
      exact ⟨original, h.mem_of_reviewed hc horiginal hreviewed, hid, hkind, hstatus⟩
    intro r' hr' d hd
    rcases h.mem_cases hc hr' with ⟨hr', -⟩ | rfl
    · exact hold r' hr' d hd
    · exact hold r h.mem d hd
  case bound =>
    intro d hd
    rcases h.mem_cases hc hd with ⟨hd, -⟩ | rfl
    · exact h.bound hc hd
    · have hbound : reversedTotal db'.requests r.id ≤ r.amount := h.bound hc h.mem
      exact hbound

end Decisions

theorem Controlled.moved (hc : Controlled desk db) (h : Moved desk db db') : Controlled desk db' := by
  cases h with
  | outside hrequests hclaims hwallet => exact hc.outside hrequests hclaims hwallet
  | requested r h => exact hc.requested h
  | decided r status by_ note entry now h => exact hc.decided h

/-- A reviewed request stays as it is. -/
theorem Controlled.kept (hc : Controlled desk db) (h : Moved desk db db') (hr : r ∈ db.requests)
    (hreviewed : r.status ≠ .pending) : r ∈ db'.requests := by
  cases h with
  | outside hrequests hclaims hwallet => rw [hrequests]; exact hr
  | requested r' h => rw [h.requests]; exact List.mem_append_left _ hr
  | decided r' status by_ note entry now h => exact h.mem_of_reviewed hc hr hreviewed

/-! ## Runs -/

theorem step_moved {s s' : System} {e : Event} (hc : Controlled desk s.db)
    (h : s.step desk e = .ok s') : Moved desk s.db s'.db := by
  cases e with
  | deposit actor id input | adjustment actor id account amount kind reason =>
    simp only [System.step, bind_eq_ok, pure_eq_ok] at h
    obtain ⟨-, -, call, -, rfl⟩ := h
    exact .refl s.db
  | write call draw =>
    simp only [System.step, bind_eq_ok, ensure_eq_ok, exists_const, pure_eq_ok, Prod.exists] at h
    obtain ⟨-, row, db', hrun, rfl⟩ := h
    cases call with
    | deposit actor id input account owner gross => exact deposit_moved hrun
    | adjustment actor id account amount kind reason => exact adjustment_moved hrun
  | reverseDeposit actor id source amount reason draw =>
    simp only [System.step, bind_eq_ok, pure_eq_ok, Prod.exists] at h
    obtain ⟨-, -, row, db', hrun, rfl⟩ := h
    exact reverseDeposit_moved hrun
  | review subjects actor id decision note draw =>
    simp only [System.step, bind_eq_ok, pure_eq_ok, Prod.exists] at h
    obtain ⟨-, -, row, db', hrun, rfl⟩ := h
    obtain ⟨r, hr, -, -, -, -, -, ⟨rfl, -⟩ | ⟨status, entry, hdecided, -⟩⟩ :=
      review_ok (fun r hr hpending => hc.unposted hr hpending) hrun
    · exact .refl _
    · exact .decided r status _ note entry draw.now hdecided
  | settings rows =>
    cases h
    exact .outside rfl rfl (.inl rfl)
  | status owner status =>
    cases h
    exact .outside rfl rfl (.inl rfl)
  | wallet subjects call =>
    simp only [System.step, bind_eq_ok, ensure_eq_ok, exists_const, pure_eq_ok] at h
    obtain ⟨hown, wallet, hrun, rfl⟩ := h
    exact .outside rfl rfl (undecided_run hown hrun)

theorem reachable_controlled {s : System} (h : (machine desk).Reachable s) : Controlled desk s.db := by
  refine h.invariant (I := fun s => Controlled desk s.db) ?_ ?_
  · rintro s rfl
    exact controlled_fresh
  · intro s e s' hc hstep
    exact hc.moved (step_moved hc hstep)

theorem run_kept {s s' : System} {t : List (Transition System Event)}
    (h : (machine desk).Reachable s) (hr : (machine desk).Run s t s') :
    ∀ r ∈ s.db.requests, r.status ≠ .pending → r ∈ s'.db.requests := by
  induction hr with
  | nil => exact fun r hr _ => hr
  | snoc hrun hstep ih =>
    intro r hr hreviewed
    have hc := reachable_controlled (h.run hrun)
    exact hc.kept (step_moved hc hstep) (ih r hr hreviewed) hreviewed

/-! ## Repeated reviews -/

/-- The checks of a review that read no table. -/
def reviewable (actor : Actor) (decision note : String) : Prop :=
  actor.finance = .ok () ∧ decision ∈ ["approved", "rejected"] ∧
    checkRemarks note (decision = "rejected") = .ok ()

theorem review_reviewable {subjects : List FinancialSubject} {id : Uuid} {decision note : String}
    (h : review desk subjects db actor id decision note draw = .ok (row, db')) :
    reviewable actor decision note := by
  simp only [review, bind_eq_ok, ensure_eq_ok, exists_const] at h
  obtain ⟨_, hfinance, hdecision, _, hremarks, -⟩ := h
  exact ⟨hfinance, hdecision, hremarks⟩

theorem review_again {subjects : List FinancialSubject} {id : Uuid} {decision note : String}
    (hreviewable : reviewable actor decision note) (hu : KeyUnique WalletRequest.id db.requests)
    (hr : r ∈ db.requests) (hid : r.id = id) (hself : r.requestedByUserId ≠ actor.externalUserId)
    (hreviewed : r.status ≠ .pending) (htext : r.status.text = decision)
    (hnote : r.reviewRemarks = some note) :
    review desk subjects db actor id decision note draw = .ok (r, db) := by
  obtain ⟨hfinance, hdecision, hremarks⟩ := hreviewable
  have hlookup : lookup WalletRequest.id id db.requests = some r := by
    rw [← hid]
    exact hu.lookup hr
  simp only [review, bind_eq_ok, ensure_eq_ok, fetch_eq_ok, exists_const]
  refine ⟨_, hfinance, hdecision, _, hremarks, r, hlookup, hself, ?_⟩
  rw [if_neg hreviewed]
  simp only [bind_eq_ok, ensure_eq_ok, exists_const, pure_eq_ok]
  exact ⟨⟨htext, hnote⟩, trivial⟩

/-- After a review its request is there, reviewed in that way. -/
theorem review_leaves {subjects : List FinancialSubject} {id : Uuid} {decision note : String}
    (hc : Controlled desk db)
    (h : review desk subjects db actor id decision note draw = .ok (row, db')) :
    row ∈ db'.requests ∧ row.id = id ∧ row.requestedByUserId ≠ actor.externalUserId ∧
      row.status ≠ .pending ∧ row.status.text = decision ∧ row.reviewRemarks = some note := by
  obtain ⟨-, hdecision, -⟩ := review_reviewable h
  obtain ⟨r, hr, -, hid, hself, htext, hnote, hcases⟩ :=
    review_ok (fun r hr hpending => hc.unposted hr hpending) h
  have hreviewed : row.status ≠ .pending := by
    intro hpending
    rw [hpending] at htext
    subst htext
    exact absurd hdecision (by decide)
  rcases hcases with ⟨rfl, rfl⟩ | ⟨status, entry, hdecided, rfl⟩
  · exact ⟨hr, hid, hself, hreviewed, htext, hnote⟩
  · exact ⟨hdecided.mem_row, hid, hself, hreviewed, htext, hnote⟩

/-! ## The result -/

/-- What holds of requests and ledger at every moment. -/
structure DepositControls (desk : Desk) (db : Db) : Prop where
  unique : KeyUnique WalletRequest.id db.requests
  /-- the approved reversals of a deposit stay within its net credit -/
  reversals : ∀ d ∈ db.requests, reversedTotal db.requests d.id ≤ d.amount
  /-- and only an approved deposit has any -/
  sources : ∀ r ∈ db.requests, ∀ d, r.reversalOf = some d → ∃ original ∈ db.requests,
    original.id = d ∧ original.kind = .deposit ∧ original.status = .approved
  /-- a payment is credited once -/
  payments : ∀ r ∈ db.requests, ∀ r' ∈ db.requests, ∀ payment,
    r.credits desk.lower = some payment → r'.credits desk.lower = some payment → r = r'
  /-- nobody reviews a request of his own -/
  reviewers : ∀ r ∈ db.requests, r.reviewedByUserId ≠ some r.requestedByUserId
  /-- an approved request has one posting, any other one none -/
  postings : ∀ r ∈ db.requests,
    (db.wallet.entries.filter (posts r)).length = if r.status = .approved then 1 else 0

theorem Controlled.postings (hc : Controlled desk db) (hr : r ∈ db.requests) :
    (db.wallet.entries.filter (posts r)).length = if r.status = .approved then 1 else 0 := by
  -- an entry that posts `r` has its key, so the request it belongs to is `r`
  have hposts : ∀ e ∈ db.wallet.entries, posts r e →
      r.status = .approved ∧ r.ledgerEntryId = some e.id := by
    intro e he hposts
    simp only [posts, Bool.and_eq_true, decide_eq_true_eq] at hposts
    obtain ⟨r', hr', hid, hstatus, hledger⟩ := hc.keyed e he r.id hposts.1.2
    rw [hc.requests.eq_of_key hr' hr hid] at hstatus hledger
    exact ⟨hstatus, hledger⟩
  split
  · rename_i hstatus
    obtain ⟨e, he, hledger, hpost⟩ := hc.posted r hr hstatus
    rw [hc.entries.filter_eq he hpost, List.length_singleton]
    intro e' he' hpost'
    have hledger' := (hposts e' he' hpost').2
    rw [hledger] at hledger'
    exact (Option.some.inj hledger').symm
  · rename_i hstatus
    rw [List.filter_eq_nil_iff.mpr, List.length_nil]
    intro e he hpost
    exact hstatus (hposts e he hpost).1

theorem Controlled.payments (hc : Controlled desk db) {r' : WalletRequest} {payment : String}
    (hr : r ∈ db.requests) (hr' : r' ∈ db.requests) (h : r.credits desk.lower = some payment)
    (h' : r'.credits desk.lower = some payment) : r = r' := by
  have hclaim := hc.claims.eq_of_key (hc.claimed r hr payment h) (hc.claimed r' hr' payment h') rfl
  rw [PaymentClaim.mk.injEq] at hclaim
  exact hc.requests.eq_of_key hr hr' hclaim.2

theorem Controlled.depositControls (hc : Controlled desk db) : DepositControls desk db where
  unique := hc.requests
  reversals := hc.bound
  sources := hc.sources
  payments := fun _ hr _ hr' _ => hc.payments hr hr'
  reviewers := hc.reviewers
  postings := fun _ => hc.postings

/-- In every order of requests and reviews the controls hold, a reviewed request stays as it is, and a
review that is repeated changes nothing. -/
theorem deposit_controls {s₀ s : System} {t : List (Transition System Event)}
    (h₀ : (machine desk).init s₀) (hr : (machine desk).Run s₀ t s) :
    DepositControls desk s.db ∧
      (∀ x ∈ t, ∀ r ∈ x.before.db.requests, r.status ≠ .pending → r ∈ s.db.requests) ∧
      ∀ x ∈ t, ∀ subjects actor id decision note draw,
        x.label = .review subjects actor id decision note draw →
        ∀ subjects' draw', ∃ r ∈ s.db.requests, r.id = id ∧
          review desk subjects' s.db actor id decision note draw' = .ok (r, s.db) := by
  have hreach : (machine desk).Reachable s := ⟨s₀, t, h₀, hr⟩
  refine ⟨(reachable_controlled hreach).depositControls, ?_, ?_⟩
  · intro x hx r hmem hreviewed
    obtain ⟨t₁, t₂, -, hbefore, hstep, hafter⟩ := hr.split hx
    exact run_kept ⟨s₀, t₁, h₀, hbefore⟩ (hafter.cons hstep) r hmem hreviewed
  · intro x hx subjects actor id decision note draw hlabel subjects' draw'
    obtain ⟨t₁, t₂, -, hbefore, hstep, hafter⟩ := hr.split hx
    have hreach₁ : (machine desk).Reachable x.before := ⟨s₀, t₁, h₀, hbefore⟩
    have hreach₂ := hreach₁.step hstep
    rw [hlabel] at hstep
    simp only [machine, System.step, bind_eq_ok, pure_eq_ok, Prod.exists] at hstep
    obtain ⟨-, -, row, db', hreview, hdb⟩ := hstep
    obtain ⟨hmem, hid, hself, hreviewed, htext, hnote⟩ :=
      review_leaves (reachable_controlled hreach₁) hreview
    have hkept : row ∈ s.db.requests := by
      refine run_kept hreach₂ hafter row ?_ hreviewed
      rw [← hdb]
      exact hmem
    exact ⟨row, hkept, hid, review_again (review_reviewable hreview)
      (reachable_controlled hreach).requests hkept hid hself hreviewed htext hnote⟩

/-! ## A deposit that is credited and reversed in part -/

def sampleDesk : Desk where
  pf := ⟨fun _ => 0, fun s => s, fun s => s, fun s => s⟩
  lower := fun s => s
  dateText := fun _ => "2026-01-01"
  day := fun _ => 0
  dayText := fun _ => "260101"

def sampleCustomer : Actor := ⟨"user_c", "customer", some ⟨"user", "user_c"⟩, .obj []⟩

def sampleStaff (id : String) : Actor := ⟨id, "staff_account", none, .obj []⟩

def sampleDeposit : Deposit where
  currency := "BDT"
  amount := "10.00"
  remarks := ""
  attachment := none
  attachmentDigest := none
  payment := .cash headOffice.id ⟨"user_s", "Sadia", "staff_account"⟩

def sampleEvents : List Event :=
  [.wallet [] (.provision ⟨"user", "user_c"⟩ "BDT" (.obj []) 1 2),
    .deposit sampleCustomer 10 sampleDeposit,
    .write (.deposit sampleCustomer 10 sampleDeposit 2 1 1000) ⟨0, 20, 30, 31⟩,
    .review [] (sampleStaff "user_s") 10 "approved" "" ⟨0, 20, 32, 33⟩,
    .reverseDeposit (sampleStaff "user_s") 11 10 "4.00" "counted twice" ⟨0, 21, 34, 35⟩,
    .review [] (sampleStaff "user_t") 11 "approved" "" ⟨0, 21, 36, 37⟩]

theorem deposit_controls_reversed : ∃ t s, (machine sampleDesk).Run ⟨.fresh, []⟩ t s ∧
    s.db.requests.map (fun r => (r.id, r.status)) = [(10, .approved), (11, .approved)] ∧
    reversedTotal s.db.requests 10 = 400 ∧ DepositControls sampleDesk s.db := by
  have hend : (sampleEvents.foldlM (System.step sampleDesk) ⟨.fresh, []⟩).map (fun s =>
      (s.db.requests.map (fun r => (r.id, r.status)), reversedTotal s.db.requests 10)) =
        .ok ([(10, .approved), (11, .approved)], 400) := by
    decide +kernel
  obtain ⟨s, hfold, hs⟩ := map_eq_ok.mp hend
  obtain ⟨t, hr⟩ := (Machine.Run.nil _).foldlM (M := machine sampleDesk)
    (fun _ _ _ hstep => hstep) hfold
  rw [Prod.mk.injEq] at hs
  exact ⟨t, s, hr, hs.1, hs.2, (deposit_controls rfl hr).1⟩

end ShaponTravels.Wallet.Workflows
