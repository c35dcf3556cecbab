import ShaponTravels.TextLengths
import ShaponTravels.Wallet.TicketConserved

/-!
# TicketEffects — what a request does to the money of its customer

A hold moves money inside an account, so an account is worth the same before and after it.  A settlement
changes the worth once, by the amount of the quote, and no other change of a request does.
-/

namespace ShaponTravels.Wallet

open Library

variable {pf : Platform} {subjects : List FinancialSubject} {w w' : WalletDb} {p : PostingArgs} {e : LedgerEntry}
  {o o' : WalletOperation} {draw : Draw}

/-- What an account is worth: what is available and what is held. -/
def worth (account : Uuid) (w : WalletDb) : Int :=
  ((lookup WalletAccount.id account w.accounts).map fun a => a.availableBalance + a.holdBalance).getD 0

/-- A new entry changes what its account is worth, and no other account. -/
theorem Posted.worth_eq {a : WalletAccount} {t : TransactionType} (h : Posted subjects w p a t e w') (account : Uuid) :
    worth account w' = worth account w +
      if account = p.account then t.availableDelta p.amount + t.holdDelta p.amount else 0 := by
  have hid : ∀ a' : WalletAccount, ({ a' with
      availableBalance := e.availableAfter, holdBalance := e.holdAfter, version := e.sequence } : WalletAccount).id =
      a'.id := fun _ => rfl
  unfold worth
  rw [h.accounts]
  split
  · rename_i heq
    rw [heq, lookup_modify_self hid, h.account, h.entry]
    show a.availableBalance + _ + (a.holdBalance + _) = a.availableBalance + a.holdBalance + _
    omega
  · rename_i hne
    rw [lookup_modify_ne hid hne, Int.add_zero]

/-- A hold stays in its account. -/
theorem reserve_worth {r : Reservation} (h : reserve pf subjects w r draw = .ok (o, w')) (account : Uuid) :
    worth account w' = worth account w := by
  obtain ⟨kind, c, -, -, -, ⟨rfl, -⟩ | ⟨-, -, -, ⟨e, hpost⟩, -⟩⟩ := reserve_ok h
  · rfl
  rcases walletApplyPosting_ok hpost with ⟨rfl, -⟩ | ⟨a, t, hposted⟩
  · rfl
  · obtain rfl : TransactionType.bookingHold = t := TransactionType.text_inj hposted.type
    rw [hposted.worth_eq account]
    show worth account w + (if account = r.account then -r.amount + r.amount else 0) = worth account w
    split <;> omega

end ShaponTravels.Wallet

namespace ShaponTravels.Wallet.Tickets

open Library
open TicketManagement (Quote)
open Nonissuance (Actor)

variable {desk : Desk} {db db' db₁ : Db} {actor : Actor} {r r' r₁ saved : Request} {input : Mutation} {draw : Draw}
  {row : QuoteRow} {o : WalletOperation} {w w' : WalletDb} {subjects : List FinancialSubject}

/-- Closing a reserved operation: a capture takes its amount from its account, a release puts it back. -/
theorem settle_worth {pf : Platform} {o' : WalletOperation} {capture : Bool} {actor role : String} {draw : Wallet.Draw}
    (hs : Sound w) (ho : o ∈ w.operations) (hstate : o.state = .reserved)
    (h : Wallet.settle pf subjects w o.id capture actor role draw = .ok (o', w')) (account : Uuid) :
    worth account w' = worth account w - if capture ∧ account = o.walletAccountId then o.amount else 0 := by
  have hoperations := settle_reserved hs ho hstate h
  obtain ⟨current, hmem, hid, -, -, ⟨-, -, hdone⟩ | ⟨-, e, hpost⟩⟩ := Wallet.settle_ok h
  · obtain rfl := hs.keyed.operations.eq_of_key hmem ho hid
    rw [hstate] at hdone
    cases capture <;> cases hdone
  obtain rfl := hs.keyed.operations.eq_of_key hmem ho hid
  rcases walletApplyPosting_ok hpost with ⟨rfl, -⟩ | ⟨a, t, hposted⟩
  · -- a repeated posting would leave the operation reserved
    rw [hoperations] at ho
    rcases modify_cases ho with ⟨-, hne⟩ | ⟨o₁, -, -, heq⟩
    · exact absurd rfl hne
    · rw [heq] at hstate
      cases capture <;> cases hstate
  · rw [hposted.worth_eq account]
    cases capture with
    | true =>
      obtain rfl : TransactionType.bookingConfirm = t := TransactionType.text_inj hposted.type
      show _ + (if account = current.walletAccountId then 0 + -current.amount else 0) = _
      simp only [true_and]
      split <;> omega
    | false =>
      obtain rfl : TransactionType.holdRelease = t := TransactionType.text_inj hposted.type
      show _ + (if account = current.walletAccountId then current.amount + -current.amount else 0) = _
      simp only [Bool.false_eq_true, false_and, if_false]
      split <;> omega

/-! ## The keys of the refunds -/

/-- The key under which a request refunds an operation. -/
def refundKey (request operation : Uuid) : String := "ticket-management:" ++ request.text ++ ":" ++ operation.text

theorem refundKey_inj {request request' operation operation' : Uuid}
    (h : refundKey request operation = refundKey request' operation') :
    request = request' ∧ operation = operation' := by
  obtain ⟨start, hstart⟩ : ∃ start, start = "ticket-management:" := ⟨_, rfl⟩
  obtain ⟨colon, hcolon⟩ : ∃ colon, colon = ":" := ⟨_, rfl⟩
  unfold refundKey at h
  rw [← hstart, ← hcolon] at h
  have hlist := congrArg String.toList h
  simp only [String.toList_append, List.append_assoc] at hlist
  have hrest := List.append_cancel_left hlist
  -- the texts of identifiers have one length
  have hlength : request.text.toList.length = request'.text.toList.length := by
    rw [Uuid.length_text, Uuid.length_text]
  obtain ⟨hfirst, hlast⟩ := List.append_inj hrest hlength
  have hsecond := List.append_cancel_left hlast
  exact ⟨Uuid.text_inj (String.toList_inj.mp hfirst), Uuid.text_inj (String.toList_inj.mp hsecond)⟩

/-- Every refund was made by a request that has ended since. -/
def Refunds (db : Db) : Prop :=
  ∀ e ∈ db.wallet.entries, e.transactionType = .refund →
    ∃ r ∈ db.requests, r.terminalOutcome ≠ none ∧ ∃ operation, e.idempotencyKey = refundKey r.id operation

/-- What one refund of a request writes and changes, when it is the first under its key. -/
theorem refundOf_worth {c : Uuid × Int} {e : LedgerEntry} {draw : Wallet.Draw}
    (hfresh : ∀ e ∈ w.entries, e.transactionType = .refund → e.idempotencyKey ≠ refundKey r.id c.1)
    (h : Wallet.post desk.pf subjects w (refundOf actor r c) draw = .ok (e, w')) :
    w'.entries = w.entries ++ [e] ∧ e.idempotencyKey = refundKey r.id c.1 ∧
      ∀ account, worth account w' = worth account w + if account = r.walletAccountId then c.2 else 0 := by
  rcases walletApplyPosting_ok (Wallet.post_ok h) with ⟨-, hmem, -, hkey, -, htype, -⟩ | ⟨a, t, hposted⟩
  · exact absurd hkey (hfresh e hmem (TransactionType.text_inj htype))
  · obtain rfl : TransactionType.refund = t := TransactionType.text_inj hposted.type
    refine ⟨hposted.entries, ?_, fun account => ?_⟩
    · rw [hposted.entry]
      rfl
    · rw [hposted.worth_eq account]
      show _ + (if account = r.walletAccountId then c.2 + 0 else 0) = _
      rw [Int.add_zero]

/-- The loop over the credits: their sum goes to the account, under the keys of the request. -/
theorem postCredits_worth {cs : List (Uuid × Int)} {entries : List Uuid} (hkeys : KeyUnique Prod.fst cs)
    (hfresh : ∀ e ∈ w.entries, e.transactionType = .refund → ∀ operation, e.idempotencyKey ≠ refundKey r.id operation)
    (h : postCredits desk subjects w actor r cs draw = .ok (entries, w')) :
    (∀ e ∈ w'.entries, e ∈ w.entries ∨ ∃ operation, e.idempotencyKey = refundKey r.id operation) ∧
      ∀ account, worth account w' = worth account w +
        if account = r.walletAccountId then (cs.map Prod.snd).sum else 0 := by
  have hloop : ∀ (numbered : List ((Uuid × Int) × Nat)) (s s' : List Uuid × WalletDb),
      KeyUnique Prod.fst (numbered.map Prod.fst) →
      (∀ c ∈ numbered.map Prod.fst, ∀ e ∈ s.2.entries, e.transactionType = .refund →
        e.idempotencyKey ≠ refundKey r.id c.1) →
      numbered.foldlM (fun s c => do
        let posted ← Wallet.post desk.pf subjects s.2 (refundOf actor r c.1) (draw.entry c.2)
        return (s.1 ++ [posted.1.id], posted.2)) s = (.ok s' : Except ApiError _) →
      (∀ e ∈ s'.2.entries, e ∈ s.2.entries ∨ ∃ operation, e.idempotencyKey = refundKey r.id operation) ∧
        ∀ account, worth account s'.2 = worth account s.2 +
          if account = r.walletAccountId then ((numbered.map Prod.fst).map Prod.snd).sum else 0 := by
    intro numbered
    induction numbered with
    | nil =>
      intro s s' _ _ h
      obtain rfl := pure_eq_ok.mp h
      refine ⟨fun e he => .inl he, fun account => ?_⟩
      simp only [List.map_nil, List.sum_nil, ite_self, Int.add_zero]
    | cons c numbered ih =>
      intro s s' hkeys hfresh h
      simp only [List.foldlM_cons, bind_eq_ok, pure_eq_ok] at h
      obtain ⟨_, ⟨⟨e, next⟩, hpost, rfl⟩, hrest⟩ := h
      rw [List.map_cons] at hkeys
      obtain ⟨hother, hkeys⟩ := keyUnique_cons.mp hkeys
      obtain ⟨hentries, hkey, hworth⟩ := refundOf_worth (hfresh c.1 List.mem_cons_self) hpost
      have hfresh' : ∀ c' ∈ numbered.map Prod.fst, ∀ e ∈ next.entries, e.transactionType = .refund →
          e.idempotencyKey ≠ refundKey r.id c'.1 := by
        intro c' hc' e' he' hrefund
        rw [hentries] at he'
        rcases List.mem_append.mp he' with hold | hnew
        · exact hfresh c' (List.mem_cons_of_mem _ hc') e' hold hrefund
        · -- the entry that was just written is for another operation
          rw [List.mem_singleton.mp hnew, hkey]
          exact fun heq => hother c' hc' (refundKey_inj heq).2.symm
      obtain ⟨hmem, htotal⟩ := ih _ _ hkeys hfresh' hrest
      refine ⟨fun e' he' => ?_, fun account => ?_⟩
      · rcases hmem e' he' with hold | hnew
        · replace hold : e' ∈ next.entries := hold
          rw [hentries] at hold
          rcases List.mem_append.mp hold with hold | hlast
          · exact .inl hold
          · exact .inr ⟨c.1.1, by rw [List.mem_singleton.mp hlast, hkey]⟩
        · exact .inr hnew
      · rw [htotal account, hworth account, List.map_cons, List.map_cons, List.sum_cons]
        split <;> omega
  have hnumbered : cs.zipIdx.map Prod.fst = cs := List.zipIdx_map_fst 0 cs
  have hresult := hloop cs.zipIdx ([], w) (entries, w') (hnumbered.symm ▸ hkeys)
    (fun c _ e he hrefund => hfresh e he hrefund c.1) h
  rw [hnumbered] at hresult
  exact hresult

end ShaponTravels.Wallet.Tickets
