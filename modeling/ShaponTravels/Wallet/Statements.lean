import ShaponTravels.Library.Pages
import ShaponTravels.Wallet.Integrity

/-!
# Statements — the ledger of an account, page by page

`wallet/reads.rs`.  A statement fixes the version of the account at its first page; the cursor of a page
names that version, the last entry shown and a digest of the filters.
-/

namespace ShaponTravels.Wallet

open Library

/-! ## Queries -/

/-- `reads::ReadQuery`. -/
structure ReadQuery where
  currency : String
  fromAt : Option Int
  toAt : Option Int
  limit : Option Int
  cursor : Option String
  transactionType : Option String

def transactionTypes : List String :=
  ["deposit", "booking_hold", "booking_confirm", "hold_release", "refund", "manual_credit", "manual_debit"]

/-- `ReadQuery::validate`. -/
def ReadQuery.validate (q : ReadQuery) : Except ApiError Unit := do
  let _ ← Wallet.currency q.currency
  ensure (¬ (q.limit.any (fun n => ¬ (1 ≤ n ∧ n ≤ 100)) ∨
    q.fromAt.any (fun a => q.toAt.any fun b => b ≤ a) ∨
    q.cursor.any (fun s => 2048 < s.utf8ByteSize) ∨
    q.transactionType.any (fun s => s ∉ transactionTypes))) (invalid "INVALID_WALLET_QUERY")

/-- `reads::Cursor`. -/
structure Cursor where
  account : Uuid
  ceiling : Int
  before : Int
  filters : Digest
  deriving DecidableEq

/-- What a statement takes from its libraries and from the database: how times are written in the filters
and in a row, the text of a cursor, and the reference of an imported booking. -/
structure Rendering where
  moment : Int → Value
  timestamp : Int → Value
  encode : Cursor → String
  decode : String → Option Cursor
  imported : Uuid → Option String

/-- The digest of the filters. -/
def ReadQuery.filters (pf : Platform) (r : Rendering) (q : ReadQuery) : Digest :=
  pf.digest (Value.arr [.str q.currency, (q.fromAt.map r.moment).getD .null, (q.toAt.map r.moment).getD .null,
    .ofOption q.transactionType]).text

/-! ## Rows -/

/-- The entries of an account up to a sequence. -/
def upTo (account : Uuid) (ceiling : Int) (entries : List LedgerEntry) : List LedgerEntry :=
  entries.filter fun e => e.walletAccountId = account ∧ e.sequence ≤ ceiling

/-- An entry passes the filters. -/
def ReadQuery.selects (q : ReadQuery) (e : LedgerEntry) : Bool :=
  q.fromAt.all (fun a => a ≤ e.createdAt) && q.toAt.all (fun b => e.createdAt < b) &&
    q.transactionType.all (fun s => e.transactionType.text = s)

/-- The rows below a sequence, the latest first. -/
def ReadQuery.rows (q : ReadQuery) (before : Option Int) (entries : List LedgerEntry) : List LedgerEntry :=
  (entries.filter fun e => before.all (fun s => e.sequence < s) && q.selects e).insertionSort
    fun e e' => e'.sequence ≤ e.sequence

structure Balance where
  available : Int
  hold : Int
  deriving DecidableEq

/-- The balances after the latest entry before a time, of all entries without one. -/
def balanceAt (entries : List LedgerEntry) (bound : Option Int) : Balance :=
  match latest (entries.filter fun e => bound.all fun t => e.createdAt < t) with
  | some e => ⟨e.availableAfter, e.holdAfter⟩
  | none => ⟨0, 0⟩

/-- The balances a statement opens with. -/
def ReadQuery.opening (q : ReadQuery) (entries : List LedgerEntry) : Balance :=
  match q.fromAt with
  | none => ⟨0, 0⟩
  | some t => balanceAt entries (some t)

/-! ## Pages -/

/-- What a page of a statement tells. -/
structure Page where
  currency : Currency
  ceiling : Int
  opening : Balance
  closing : Balance
  entries : List LedgerEntry
  nextCursor : Option String

def badCursor : ApiError := invalid "INVALID_WALLET_CURSOR"

/-- The version a page reads up to, and the sequence it reads below. -/
def ReadQuery.position (r : Rendering) (q : ReadQuery) (account : Uuid) (version : Int) (filters : Digest) :
    Except ApiError (Int × Option Int) :=
  match q.cursor with
  | some raw => do
    let c ← fetch (r.decode raw) badCursor
    ensure (¬ (c.account ≠ account ∨ c.filters ≠ filters ∨ c.ceiling < 0 ∨ version < c.ceiling ∨ c.before ≤ 0 ∨
      c.ceiling < c.before)) badCursor
    return (c.ceiling, some c.before)
  | none => .ok (version, none)

/-- The page of the entries up to a sequence. -/
def ReadQuery.page (r : Rendering) (q : ReadQuery) (a : WalletAccount) (ceiling : Int) (before : Option Int)
    (filters : Digest) (entries : List LedgerEntry) : Page :=
  let limit := (q.limit.getD 50).toNat
  let rows := (q.rows before entries).take (limit + 1)
  { currency := a.currency
    ceiling := ceiling
    opening := q.opening entries
    closing := balanceAt entries q.toAt
    entries := rows.take limit
    nextCursor := if limit < rows.length then
        (rows[limit - 1]?).map fun e => r.encode ⟨a.id, ceiling, e.sequence, filters⟩
      else none }

/-- The page of a statement, before it is written as JSON. -/
def readPage (pf : Platform) (r : Rendering) (db : WalletDb) (account : Uuid) (q : ReadQuery) :
    Except ApiError Page := do
  q.validate
  let a ← fetch (lookup WalletAccount.id account db.accounts) missing
  ensure (a.currency.text = q.currency) (invalid "WALLET_CURRENCY_MISMATCH")
  let (ceiling, before) ← q.position r account a.version (q.filters pf r)
  return q.page r a ceiling before (q.filters pf r) (upTo account ceiling db.entries)

/-! ## The response -/

def minorText (n : Int) : Value := .str (toString n)

def Balance.value (b : Balance) : Value :=
  .object [("availableMinor", minorText b.available), ("holdMinor", minorText b.hold)]

/-- The reference of the imported booking an entry was issued for. -/
def importedReference (r : Rendering) (db : WalletDb) (e : LedgerEntry) : Option String := do
  let id ← e.operationId
  let o ← lookup WalletOperation.id id db.operations
  guard (o.subjectKind = .manualIssue)
  r.imported o.subjectId

/-- An entry as a statement shows it. -/
def LedgerEntry.value (r : Rendering) (db : WalletDb) (e : LedgerEntry) : Value :=
  .object [("id", .str e.id.text), ("sequence", minorText e.sequence), ("type", .str e.transactionType.text),
    ("amountMinor", minorText e.amount), ("currency", .str e.currency.text), ("scale", .ofInt 2),
    ("availableBeforeMinor", minorText e.availableBefore), ("availableAfterMinor", minorText e.availableAfter),
    ("holdBeforeMinor", minorText e.holdBefore), ("holdAfterMinor", minorText e.holdAfter),
    ("availableDeltaMinor", minorText (e.availableAfter - e.availableBefore)),
    ("holdDeltaMinor", minorText (e.holdAfter - e.holdBefore)),
    ("bookingId", .ofOption (e.bookingId.map Uuid.text)),
    ("bookingReference", .ofOption (e.bookingReference.or (importedReference r db e))),
    ("createdAt", r.timestamp e.createdAt)]

def Page.value (r : Rendering) (db : WalletDb) (p : Page) : Value :=
  .object [("currency", .str p.currency.text), ("scale", .ofInt 2), ("snapshotVersion", minorText p.ceiling),
    ("opening", p.opening.value), ("closing", p.closing.value),
    ("transactions", .arr (p.entries.map (LedgerEntry.value r db))), ("nextCursor", .ofOption p.nextCursor)]

/-- `reads::statement`. -/
def statement (pf : Platform) (r : Rendering) (db : WalletDb) (account : Uuid) (q : ReadQuery) :
    Except ApiError Value :=
  (readPage pf r db account q).map (Page.value r db)

/-! ## What a version freezes -/

variable {pf : Platform} {r : Rendering} {db db' : WalletDb} {a : WalletAccount} {account : Uuid} {q : ReadQuery}
  {p : Page}

/-- The sequences of a journal ascend from the first version to the last. -/
theorem ascending_of_journal {es : List LedgerEntry} {b b' : Balances}
    (h : Journal LedgerEntry.before LedgerEntry.after b es b') :
    b.version ≤ b'.version ∧ (∀ e ∈ es, b.version < e.sequence ∧ e.sequence ≤ b'.version) ∧
      es.Pairwise fun e e' => e.sequence < e'.sequence := by
  induction h with
  | nil => exact ⟨Int.le_refl _, fun e he => absurd he List.not_mem_nil, .nil⟩
  | @snoc b' es e _ hbefore ih =>
    obtain ⟨hle, hwithin, hpairs⟩ := ih
    have hversion : e.sequence - 1 = b'.version := congrArg Balances.version hbefore
    refine ⟨?_, ?_, ?_⟩
    · show b.version ≤ e.sequence
      omega
    · intro e' he'
      show b.version < e'.sequence ∧ e'.sequence ≤ e.sequence
      rcases List.mem_append.mp he' with he' | he'
      · have hbounds := hwithin e' he'
        omega
      · rw [List.mem_singleton.mp he']
        omega
    · refine List.pairwise_append.mpr ⟨hpairs, List.pairwise_singleton _ _, ?_⟩
      intro e' he' last hlast
      rw [List.mem_singleton.mp hlast]
      have hbounds := hwithin e' he'
      omega

theorem upTo_eq (entries : List LedgerEntry) (ceiling : Int) :
    upTo account ceiling entries = (entriesOf account entries).filter fun e => e.sequence ≤ ceiling := by
  rw [upTo, entriesOf, List.filter_filter]
  exact List.filter_congr fun e _ => by simp [Bool.and_comm]

/-- What was in the ledger at a version stays what is in it up to that version. -/
theorem upTo_frozen (hs : Sound db) (hs' : Sound db') (he : Extends db db') (ha : a ∈ db.accounts)
    {a' : WalletAccount} (ha' : a' ∈ db'.accounts) (hid : a'.id = a.id) :
    upTo a.id a.version db'.entries = entriesOf a.id db.entries ∧ a.version ≤ a'.version := by
  obtain ⟨more, hmore⟩ := he.entries
  have hjournal := (hs.accounts a ha).journal
  have hjournal' := (hs'.accounts a' ha').journal
  rw [hid, ← hmore, entriesOf, List.filter_append] at hjournal'
  obtain ⟨m, hfirst, hrest⟩ := hjournal'.split
  rw [hfirst.unique hjournal] at hrest
  obtain ⟨-, hwithin, -⟩ := ascending_of_journal hjournal
  obtain ⟨hle, hlater, -⟩ := ascending_of_journal hrest
  refine ⟨?_, hle⟩
  rw [upTo_eq, ← hmore, entriesOf, List.filter_append, List.filter_append]
  have hkept : (entriesOf a.id db.entries).filter (fun e => e.sequence ≤ a.version) = entriesOf a.id db.entries :=
    List.filter_eq_self.mpr fun e he => decide_eq_true (hwithin e he).2
  have hdropped : (more.filter fun e => e.walletAccountId = a.id).filter (fun e => e.sequence ≤ a.version) = [] := by
    rw [List.filter_eq_nil_iff]
    intro e he hle
    have hgt := (hlater e he).1
    exact absurd (of_decide_eq_true hle) (Int.not_le.mpr hgt)
  rw [hdropped, List.append_nil]
  exact hkept

/-! ## Rows -/

/-- The rows are the entries that pass the filters, in descending order. -/
theorem rows_descending {es : List LedgerEntry} (h : es.Pairwise fun e e' => e.sequence < e'.sequence)
    (before : Option Int) : Descending LedgerEntry.sequence (q.rows before es) := by
  have hfiltered := h.sublist (List.filter_sublist (p := fun e => before.all (fun s => e.sequence < s) && q.selects e))
  exact .sorted (List.pairwise_map.mpr (hfiltered.imp fun hlt => ne_of_lt hlt))

theorem mem_rows {es : List LedgerEntry} {before : Option Int} {e : LedgerEntry} :
    e ∈ q.rows before es ↔ e ∈ es ∧ (∀ s ∈ before, e.sequence < s) ∧ q.selects e = true := by
  rw [ReadQuery.rows, List.mem_insertionSort, List.mem_filter, Bool.and_eq_true]
  cases before with
  | none => simp
  | some s => simp

/-- The rows below a sequence are the rows of the whole statement that lie below it. -/
theorem rows_below {es : List LedgerEntry} (h : es.Pairwise fun e e' => e.sequence < e'.sequence)
    (before : Option Int) : q.rows before es = below LedgerEntry.sequence before (q.rows none es) := by
  refine (rows_descending h before).ext ((rows_descending h none).filter _) ?_
  intro e
  show _ ↔ e ∈ below _ before _
  rw [mem_below, mem_rows, mem_rows]
  simp only [Option.not_mem_none, false_imp_iff, implies_true, true_and]
  tauto

/-! ## Balances -/

/-- A list whose elements before one with a property have it begins with the ones that have it. -/
theorem filter_leading {α : Type} {p : α → Bool} {xs : List α} (h : xs.Pairwise fun x y => p y = true → p x = true) :
    xs = xs.filter p ++ xs.filter fun x => !p x := by
  induction xs with
  | nil => rfl
  | cons x xs ih =>
    rw [List.pairwise_cons] at h
    by_cases hx : p x = true
    · simp only [List.filter_cons, hx, if_true, Bool.not_true, Bool.false_eq_true, if_false, List.cons_append]
      exact congrArg (x :: ·) (ih h.2)
    · have hnone : xs.filter p = [] :=
        List.filter_eq_nil_iff.mpr fun y hy hpy => hx (h.1 y hy hpy)
      have hall : xs.filter (fun x => !p x) = xs :=
        List.filter_eq_self.mpr fun y hy => by simpa using fun hpy => hx (h.1 y hy hpy)
      simp [hx, hnone, hall]

def Balances.shown (b : Balances) : Balance := ⟨b.available, b.hold⟩

/-- The balances after a journal are the ones of its latest entry. -/
theorem balance_of_journal {es : List LedgerEntry} {b : Balances}
    (h : Journal LedgerEntry.before LedgerEntry.after .zero es b) :
    (match latest es with
      | some e => (⟨e.availableAfter, e.holdAfter⟩ : Balance)
      | none => ⟨0, 0⟩) = b.shown := by
  have hlast := latest_of_journal h
  cases hlatest : latest es with
  | some e =>
    rw [hlatest] at hlast
    rw [← hlast]
    rfl
  | none =>
    rw [hlatest] at hlast
    rw [hlast]
    rfl

/-- The entries before a time are the first ones, and the balances then are the ones they lead to. -/
theorem balanceAt_of_journal {es : List LedgerEntry} {b : Balances} (bound : Option Int)
    (h : Journal LedgerEntry.before LedgerEntry.after .zero es b)
    (hordered : es.Pairwise fun e e' => e.createdAt ≤ e'.createdAt) :
    ∃ m, Journal LedgerEntry.before LedgerEntry.after .zero (es.filter fun e => bound.all fun t => e.createdAt < t) m ∧
      balanceAt es bound = m.shown := by
  have hleading := @filter_leading _ (fun e : LedgerEntry => bound.all fun t => e.createdAt < t) es
    (hordered.imp fun hle hlater => by
      cases bound with
      | none => rfl
      | some t =>
        simp only [Option.all_some, decide_eq_true_eq] at hlater ⊢
        omega)
  rw [hleading] at h
  obtain ⟨m, hm, -⟩ := h.split
  exact ⟨m, hm, balance_of_journal hm⟩

def LedgerEntry.availableDelta (e : LedgerEntry) : Int := e.availableAfter - e.availableBefore

def LedgerEntry.holdDelta (e : LedgerEntry) : Int := e.holdAfter - e.holdBefore

/-- The change of a list of entries. -/
def change (entries : List LedgerEntry) : Balance :=
  ⟨(entries.map LedgerEntry.availableDelta).sum, (entries.map LedgerEntry.holdDelta).sum⟩

def Balance.add (b b' : Balance) : Balance := ⟨b.available + b'.available, b.hold + b'.hold⟩

theorem change_perm {es es' : List LedgerEntry} (h : es.Perm es') : change es = change es' := by
  rw [change, change, (h.map _).sum_eq, (h.map _).sum_eq]

theorem change_of_journal {es : List LedgerEntry} {b b' : Balances}
    (h : Journal LedgerEntry.before LedgerEntry.after b es b') : b.shown.add (change es) = b'.shown := by
  have havailable := h.telescope Balances.available
  have hhold := h.telescope Balances.hold
  exact Balance.mk.injEq .. ▸ ⟨havailable, hhold⟩

/-- Entries of every type between two times take the opening balances to the closing ones. -/
theorem reconciles_of_journal {es : List LedgerEntry} {b : Balances}
    (h : Journal LedgerEntry.before LedgerEntry.after .zero es b)
    (hordered : es.Pairwise fun e e' => e.createdAt ≤ e'.createdAt)
    (hrange : ∀ t ∈ q.fromAt, ∀ t' ∈ q.toAt, t ≤ t') (htype : q.transactionType = none) :
    (q.opening es).add (change (q.rows none es)) = balanceAt es q.toAt := by
  obtain ⟨c, hc, hclosing⟩ := balanceAt_of_journal q.toAt h hordered
  let early (e : LedgerEntry) : Bool := q.fromAt.any fun t => e.createdAt < t
  -- times ascend with the sequence, so what is early is an initial part of what is before the end
  have hleading := @filter_leading _ early (es.filter fun e => q.toAt.all fun t => e.createdAt < t)
    ((hordered.sublist List.filter_sublist).imp fun hle hlater => by
      simp only [early, Option.any_eq_true, decide_eq_true_eq] at hlater ⊢
      obtain ⟨t, ht, hlt⟩ := hlater
      exact ⟨t, ht, by omega⟩)
  have hearly : (es.filter fun e => q.toAt.all fun t => e.createdAt < t).filter early = es.filter early := by
    rw [List.filter_filter]
    apply List.filter_congr
    intro e _
    by_cases he : early e = true
    · rw [he, Bool.true_and]
      simp only [early, Option.any_eq_true, decide_eq_true_eq] at he
      obtain ⟨t, ht, hlt⟩ := he
      cases hto : q.toAt with
      | none => rfl
      | some t' =>
        have hle := hrange t ht t' hto
        exact decide_eq_true (by omega)
    · rw [Bool.not_eq_true] at he
      rw [he, Bool.false_and]
  have hbetween : ((es.filter fun e => q.toAt.all fun t => e.createdAt < t).filter fun e => !early e) =
      es.filter q.selects := by
    rw [List.filter_filter]
    apply List.filter_congr
    intro e _
    have hnot : (!early e) = q.fromAt.all fun t => t ≤ e.createdAt := by
      cases hfrom : q.fromAt with
      | none => simp [early, hfrom]
      | some t =>
        simp only [early, hfrom, Option.any_some, Option.all_some]
        rw [← decide_not, decide_eq_decide]
        omega
    rw [hnot, ReadQuery.selects, htype, Option.all_none, Bool.and_true]
  rw [hearly, hbetween] at hleading
  rw [hleading] at hc
  obtain ⟨m, hm, hrest⟩ := hc.split
  -- the balances after the early part are the ones the statement opens with
  have hopening : q.opening es = m.shown := by
    cases hfrom : q.fromAt with
    | none =>
      have hnone : es.filter early = [] := List.filter_eq_nil_iff.mpr fun e _ he => by
        simp [early, hfrom] at he
      rw [hnone] at hm
      rw [ReadQuery.opening, hfrom, ← (Journal.nil _).unique hm]
      rfl
    | some t =>
      obtain ⟨m', hm', hshown⟩ := balanceAt_of_journal (some t) h hordered
      have hsame : (es.filter fun e => (some t).all fun t => e.createdAt < t) = es.filter early :=
        List.filter_congr fun e _ => by simp [early, hfrom]
      rw [hsame] at hm'
      rw [ReadQuery.opening, hfrom, hm.unique hm']
      exact hshown
  have hrows : (q.rows none es).Perm (es.filter q.selects) := by
    have hall : (es.filter fun e => (none : Option Int).all (fun s => e.sequence < s) && q.selects e) =
        es.filter q.selects := List.filter_congr fun e _ => Bool.true_and _
    rw [ReadQuery.rows, hall]
    exact List.perm_insertionSort _ _
  rw [hopening, change_perm hrows, change_of_journal hrest, hclosing]

/-! ## Accounts stay -/

/-- Every account is still there, in its currency. -/
def Stays (db db' : WalletDb) : Prop :=
  ∀ a ∈ db.accounts, ∃ a' ∈ db'.accounts, a'.id = a.id ∧ a'.currency = a.currency

variable {subjects : List FinancialSubject}

theorem Stays.refl (db : WalletDb) : Stays db db := fun a ha => ⟨a, ha, rfl, rfl⟩

theorem Stays.trans {db'' : WalletDb} (h : Stays db db') (h' : Stays db' db'') : Stays db db'' := by
  intro a ha
  obtain ⟨a', ha', hid, hcurrency⟩ := h a ha
  obtain ⟨a'', ha'', hid', hcurrency'⟩ := h' a' ha'
  exact ⟨a'', ha'', hid'.trans hid, hcurrency'.trans hcurrency⟩

theorem Stays.posting {args : PostingArgs} {e : LedgerEntry}
    (h : walletApplyPosting subjects db args = .ok (e, db')) : Stays db db' := by
  rcases walletApplyPosting_ok h with ⟨rfl, -⟩ | ⟨a, t, hposted⟩
  · exact .refl db'
  · intro a₀ ha₀
    rw [hposted.accounts]
    by_cases hid : a₀.id = args.account
    · exact ⟨_, mem_modify_of_mem ha₀ hid, rfl, rfl⟩
    · exact ⟨a₀, mem_modify_of_ne ha₀ hid, rfl, rfl⟩

theorem Stays.provision {owner : Owner} {currencyText : String} {display : Value} {ownerId accountId account : Uuid}
    (h : provision db owner currencyText display ownerId accountId = .ok (account, db')) : Stays db db' := by
  simp only [Wallet.provision, bind_eq_ok, ensure_eq_ok, mapError_eq_ok, exists_const] at h
  obtain ⟨type, -, c, -, -, ⟨saved, db₁⟩, howner, haccount⟩ := h
  have haccounts : db₁.accounts = db.accounts := by
    unfold upsertOwner at howner
    split at howner
    · cases howner
      rfl
    · simp only [bind_eq_ok, ensure_eq_ok, pure_eq_ok, Prod.mk.injEq, exists_const] at howner
      obtain ⟨-, -, rfl⟩ := howner
      rfl
  unfold upsertAccount at haccount
  split at haccount
  · cases haccount
    exact fun a ha => ⟨a, haccounts ▸ ha, rfl, rfl⟩
  · simp only [bind_eq_ok, ensure_eq_ok, pure_eq_ok, Prod.mk.injEq, exists_const] at haccount
    obtain ⟨-, -, rfl⟩ := haccount
    exact fun a ha => ⟨a, List.mem_append_left _ (haccounts ▸ ha), rfl, rfl⟩

/-- The step: a call keeps every account. -/
theorem machine_stays (db : WalletDb) (call : List FinancialSubject × Call) (db' : WalletDb)
    (h : (machine pf).step db call db') : Stays db db' := by
  rcases h with h | rfl
  · obtain ⟨subjects, call⟩ := call
    cases call with
    | provision owner currency display ownerId accountId =>
      obtain ⟨⟨account, db₁⟩, hcall, rfl⟩ := map_eq_ok.mp h
      exact .provision hcall
    | posting args =>
      obtain ⟨⟨e, db₁⟩, hcall, rfl⟩ := map_eq_ok.mp h
      rw [mapError_eq_ok] at hcall
      exact .posting hcall
    | reserve reservation draw =>
      obtain ⟨⟨o, db₁⟩, hcall, rfl⟩ := map_eq_ok.mp h
      obtain ⟨kind, c, -, -, -, ⟨rfl, -⟩ | ⟨-, -, -, ⟨e, hpost⟩, -⟩⟩ := reserve_ok hcall
      · exact .refl _
      · intro a ha
        exact Stays.posting hpost a ha
    | settle id capture actor role draw =>
      obtain ⟨⟨o, db₁⟩, hcall, rfl⟩ := map_eq_ok.mp h
      obtain ⟨current, -, -, -, -, ⟨rfl, -⟩ | ⟨-, e, hpost⟩⟩ := settle_ok hcall
      · exact .refl _
      · exact .posting hpost
    | markReconciliation id =>
      cases h
      exact .refl db
  · exact .refl db'

/-- What a run leaves of a ledger. -/
theorem run_keeps (hs : Sound db) {t : List (Transition WalletDb (List FinancialSubject × Call))}
    (hr : (machine pf).Run db t db') : Sound db' ∧ Extends db db' ∧ Stays db db' := by
  refine ⟨?_, ?_, ?_⟩
  · exact Machine.Run.invariant (I := Sound) (fun s i s' hs h => (machine_keeps s i s' hs h).1) hr hs
  · exact hr.relates Extends.refl (fun _ _ _ => Extends.trans)
      (fun s i s' hs h => (machine_keeps s i s' hs h).1) (fun s i s' hs h => (machine_keeps s i s' hs h).2) hs
  · exact hr.relates Stays.refl (fun _ _ _ => Stays.trans)
      (fun s i s' hs h => (machine_keeps s i s' hs h).1) (fun s i s' _ h => machine_stays s i s' h) hs

/-! ## Reading a page -/

theorem readPage_ok (h : readPage pf r db account q = .ok p) : ∃ a ceiling before, a ∈ db.accounts ∧
    a.id = account ∧ a.currency.text = q.currency ∧ q.validate = .ok () ∧
    q.position r account a.version (q.filters pf r) = .ok (ceiling, before) ∧
    p = q.page r a ceiling before (q.filters pf r) (upTo account ceiling db.entries) := by
  simp only [readPage, bind_eq_ok, fetch_eq_ok, ensure_eq_ok, pure_eq_ok, exists_const] at h
  obtain ⟨_, hvalid, a, ha, hcurrency, ⟨ceiling, before⟩, hposition, rfl⟩ := h
  exact ⟨a, ceiling, before, lookup_mem ha, lookup_key ha, hcurrency, hvalid, hposition, rfl⟩

theorem validate_iff : q.validate = .ok () ↔ (∃ c : Currency, q.currency = c.text) ∧
    (∀ n ∈ q.limit, 1 ≤ n ∧ n ≤ 100) ∧ (∀ t ∈ q.fromAt, ∀ t' ∈ q.toAt, t < t') ∧
    (∀ s ∈ q.cursor, s.utf8ByteSize ≤ 2048) ∧ ∀ s ∈ q.transactionType, s ∈ transactionTypes := by
  have hlimit : ∀ n : Int, ¬ (1 ≤ n → 100 < n) ↔ 1 ≤ n ∧ n ≤ 100 := by
    intro n
    omega
  simp only [ReadQuery.validate, bind_eq_ok, ensure_eq_ok, currency_eq_ok, not_or, Option.any_eq_true, not_exists,
    not_and, decide_eq_true_eq, not_not, Int.not_le, Nat.not_lt, exists_and_right, hlimit]
  exact Iff.rfl

theorem limit_pos (h : q.validate = .ok ()) : 0 < (q.limit.getD 50).toNat := by
  obtain ⟨-, hlimit, -⟩ := validate_iff.mp h
  cases hq : q.limit with
  | none => decide
  | some n =>
    have hn := (hlimit n hq).1
    show 0 < n.toNat
    omega

/-- The page of the rows below a bound, its cursor and what is left. -/
theorem page_sheet (a : WalletAccount) (ceiling : Int) (before : Option Int) (filters : Digest)
    (es : List LedgerEntry) : ∃ next : Option Int,
      (q.page r a ceiling before filters es).nextCursor = next.map (fun s => r.encode ⟨a.id, ceiling, s, filters⟩) ∧
      Sheet LedgerEntry.sequence (q.limit.getD 50).toNat
        ((q.rows before es).take ((q.limit.getD 50).toNat + 1)) (q.page r a ceiling before filters es).entries next := by
  generalize hrows : (q.rows before es).take ((q.limit.getD 50).toNat + 1) = rows
  refine ⟨if (q.limit.getD 50).toNat < rows.length then (rows[(q.limit.getD 50).toNat - 1]?).map LedgerEntry.sequence
    else none, ?_, ?_, rfl⟩
  · simp only [ReadQuery.page, hrows]
    split
    · rw [Option.map_map]
      rfl
    · rfl
  · simp only [ReadQuery.page, hrows]

/-! ## Following the cursors -/

/-- The cursors that statements of an account hand out at a version are read back as they were written, and
are no longer than a query takes. -/
def Rendering.Faithful (r : Rendering) (account : Uuid) (version : Int) (filters : Digest) : Prop :=
  ∀ s, 0 < s → s ≤ version → r.decode (r.encode ⟨account, version, s, filters⟩) = some ⟨account, version, s, filters⟩ ∧
    (r.encode ⟨account, version, s, filters⟩).utf8ByteSize ≤ 2048

/-- The query of one page. -/
def ReadQuery.at (q : ReadQuery) (limit : Option Int) (cursor : Option String) : ReadQuery :=
  { q with limit := limit, cursor := cursor }

/-- `Walk pf r q account db ps p db'`: the pages `ps` and then `p`, each read with the cursor of the one
before, the first in `db` and the last in `db'`, while the wallet goes on in between. -/
inductive Walk (pf : Platform) (r : Rendering) (q : ReadQuery) (account : Uuid) (db : WalletDb) :
    List Page → Page → WalletDb → Prop where
  | first {limit : Option Int} {p : Page} :
      readPage pf r db account (q.at limit none) = .ok p → Walk pf r q account db [] p db
  | next {ps : List Page} {p p' : Page} {db' db'' : WalletDb} {limit : Option Int} {raw : String}
      {t : List (Transition WalletDb (List FinancialSubject × Call))} :
      Walk pf r q account db ps p db' → (machine pf).Run db' t db'' → p.nextCursor = some raw →
      readPage pf r db'' account (q.at limit (some raw)) = .ok p' → Walk pf r q account db (ps ++ [p]) p' db''

/-- What is left below a bound, nothing without one. -/
def remaining (q : ReadQuery) (es : List LedgerEntry) (next : Option Int) : List LedgerEntry :=
  next.elim [] fun s => below LedgerEntry.sequence (some s) (q.rows none es)

/-- What the pages of a walk are of the statement at its first version. -/
structure Walked (pf : Platform) (r : Rendering) (q : ReadQuery) (db : WalletDb) (a : WalletAccount)
    (ps : List Page) (p : Page) (db' : WalletDb) : Prop where
  run : ∃ t, (machine pf).Run db t db'
  valid : ∃ limit cursor, (q.at limit cursor).validate = .ok ()
  currency : a.currency.text = q.currency
  same : ∀ page ∈ ps ++ [p], page.ceiling = a.version ∧
    page.opening = q.opening (entriesOf a.id db.entries) ∧
    page.closing = balanceAt (entriesOf a.id db.entries) q.toAt
  progress : ∀ page ∈ ps, page.entries ≠ []
  rest : ∃ next : Option Int,
    p.nextCursor = next.map (fun s => r.encode ⟨a.id, a.version, s, q.filters pf r⟩) ∧
    q.rows none (entriesOf a.id db.entries) =
      (ps ++ [p]).flatMap Page.entries ++ remaining q (entriesOf a.id db.entries) next ∧
    ∀ s ∈ next, 0 < s ∧ s ≤ a.version ∧ p.entries ≠ []

/-- A page of the entries frozen at a version. -/
theorem page_walked {es : List LedgerEntry} {limit : Option Int} {cursor : Option String} {a' : WalletAccount}
    (hascending : es.Pairwise fun e e' => e.sequence < e'.sequence)
    (hwithin : ∀ e ∈ es, 0 < e.sequence ∧ e.sequence ≤ a.version)
    (hvalid : (q.at limit cursor).validate = .ok ()) (hid : a'.id = a.id) (before : Option Int)
    (hp : p = (q.at limit cursor).page r a' a.version before (q.filters pf r) es) :
    (p.ceiling = a.version ∧ p.opening = q.opening es ∧ p.closing = balanceAt es q.toAt) ∧ ∃ next : Option Int,
      p.nextCursor = next.map (fun s => r.encode ⟨a.id, a.version, s, q.filters pf r⟩) ∧
      below LedgerEntry.sequence before (q.rows none es) = p.entries ++ remaining q es next ∧
      ∀ s ∈ next, 0 < s ∧ s ≤ a.version ∧ p.entries ≠ [] := by
  obtain ⟨next, hnext, hsheet⟩ := page_sheet (q := q.at limit cursor) (r := r) a' a.version before (q.filters pf r) es
  have hrows : (q.at limit cursor).rows before es = below LedgerEntry.sequence before (q.rows none es) :=
    rows_below (q := q) hascending before
  rw [hrows] at hsheet
  rw [← hp, hid] at hnext
  rw [← hp] at hsheet
  obtain ⟨hsplit, hbounds⟩ := hsheet.split (rows_descending hascending none) (limit_pos hvalid)
  refine ⟨by rw [hp]; exact ⟨rfl, rfl, rfl⟩, next, hnext, hsplit, ?_⟩
  intro s hs
  obtain ⟨hpage, -, e, he, rfl⟩ := hbounds s hs
  have hmem := (mem_rows.mp he).1
  exact ⟨(hwithin e hmem).1, (hwithin e hmem).2, hpage⟩

/-- The entries of an account ascend from the first sequence to its version. -/
theorem entries_ascending (hs : Sound db) (ha : a ∈ db.accounts) :
    (∀ e ∈ entriesOf a.id db.entries, 0 < e.sequence ∧ e.sequence ≤ a.version) ∧
      (entriesOf a.id db.entries).Pairwise fun e e' => e.sequence < e'.sequence := by
  obtain ⟨-, hwithin, hpairs⟩ := ascending_of_journal (hs.accounts a ha).journal
  exact ⟨hwithin, hpairs⟩

theorem walked_first {limit : Option Int} (hs : Sound db) (ha : a ∈ db.accounts)
    (h : readPage pf r db a.id (q.at limit none) = .ok p) : Walked pf r q db a [] p db := by
  obtain ⟨a', ceiling, before, ha', hid, hcurrency, hvalid, hposition, hp⟩ := readPage_ok h
  obtain rfl : a' = a := hs.keyed.accounts.eq_of_key ha' ha hid
  have hstart : (a'.version, none) = (ceiling, before) := Except.ok.inj hposition
  cases hstart
  obtain ⟨hwithin, hascending⟩ := entries_ascending hs ha
  have hfrozen := (upTo_frozen hs hs (.refl db) ha ha rfl).1
  rw [hfrozen] at hp
  obtain ⟨hsame, next, hnext, hsplit, hbounds⟩ := page_walked hascending hwithin hvalid rfl none hp
  rw [below_none] at hsplit
  refine ⟨⟨[], .nil db⟩, ⟨limit, none, hvalid⟩, hcurrency, ?_, fun _ h => absurd h List.not_mem_nil, next, hnext, ?_,
    hbounds⟩
  · intro page hpage
    rw [List.nil_append, List.mem_singleton] at hpage
    rw [hpage]
    exact hsame
  · rw [hsplit, List.nil_append, List.flatMap_singleton]

/-- The step: the page behind a cursor continues the statement where the page before it ended. -/
theorem walked_next {ps : List Page} {p' : Page} {db'' : WalletDb} {limit : Option Int} {raw : String}
    {t : List (Transition WalletDb (List FinancialSubject × Call))} (hs : Sound db) (ha : a ∈ db.accounts)
    (hfaithful : r.Faithful a.id a.version (q.filters pf r)) (hw : Walked pf r q db a ps p db')
    (hr : (machine pf).Run db' t db'') (hraw : p.nextCursor = some raw)
    (h : readPage pf r db'' a.id (q.at limit (some raw)) = .ok p') : Walked pf r q db a (ps ++ [p]) p' db'' := by
  obtain ⟨t₀, hrun⟩ := hw.run
  have hrun' := hrun.trans hr
  obtain ⟨hs'', hextends, -⟩ := run_keeps hs hrun'
  obtain ⟨next, hnext, hrows, hbounds⟩ := hw.rest
  obtain ⟨s, rfl, rfl⟩ := Option.map_eq_some_iff.mp (hnext.symm.trans hraw)
  obtain ⟨hpositive, hle, hpage⟩ := hbounds s rfl
  obtain ⟨a', ceiling, before, ha', hid, -, hvalid, hposition, hp⟩ := readPage_ok h
  simp only [ReadQuery.position, ReadQuery.at, (hfaithful s hpositive hle).1, bind_eq_ok, fetch_eq_ok,
    pure_eq_ok, Option.some.injEq, exists_eq_left', Prod.mk.injEq] at hposition
  obtain ⟨-, -, rfl, rfl⟩ := hposition
  obtain ⟨hwithin, hascending⟩ := entries_ascending hs ha
  rw [(upTo_frozen hs hs'' hextends ha ha' hid).1] at hp
  obtain ⟨hsame, next', hnext', hsplit, hbounds'⟩ := page_walked hascending hwithin hvalid hid (some s) hp
  refine ⟨⟨_, hrun'⟩, hw.valid, hw.currency, ?_, ?_, next', hnext', ?_, hbounds'⟩
  · intro page hpage
    rcases List.mem_append.mp hpage with hpage | hpage
    · exact hw.same page hpage
    · rw [List.mem_singleton.mp hpage]
      exact hsame
  · intro page hmem
    rcases List.mem_append.mp hmem with hmem | hmem
    · exact hw.progress page hmem
    · rw [List.mem_singleton.mp hmem]
      exact hpage
  · rw [hrows, remaining, Option.elim_some, hsplit]
    simp

/-- The run: every walk is a statement so far. -/
theorem walk_walked {ps : List Page} (hs : Sound db) (ha : a ∈ db.accounts)
    (hfaithful : r.Faithful a.id a.version (q.filters pf r)) (hw : Walk pf r q a.id db ps p db') :
    Walked pf r q db a ps p db' := by
  induction hw with
  | first h => exact walked_first hs ha h
  | next _ hr hraw h ih => exact walked_next hs ha hfaithful ih hr hraw h

/-! ## Statements -/

/-- The entries of an account that a query is about, up to a version. -/
def ReadQuery.About (q : ReadQuery) (account : Uuid) (version : Int) (db : WalletDb) (e : LedgerEntry) : Prop :=
  e ∈ db.entries ∧ e.walletAccountId = account ∧ e.sequence ≤ version ∧ q.selects e = true

/-- What the pages of a walk tell of the account as the first of them saw it. -/
structure Stated (pf : Platform) (r : Rendering) (q : ReadQuery) (db : WalletDb) (a : WalletAccount)
    (ps : List Page) (p : Page) (db' : WalletDb) : Prop where
  version : ∀ page ∈ ps ++ [p], page.ceiling = a.version
  balances : ∀ page ∈ ps ++ [p], page.opening = p.opening ∧ page.closing = p.closing
  descending : Descending LedgerEntry.sequence ((ps ++ [p]).flatMap Page.entries)
  sound : ∀ e ∈ (ps ++ [p]).flatMap Page.entries, q.About a.id a.version db' e
  /-- Every page but the last shows something, so that there are no more pages than entries. -/
  progress : ∀ page ∈ ps, page.entries ≠ []
  /-- Whatever is posted meanwhile, the page behind a cursor can be read. -/
  continues : ∀ raw, p.nextCursor = some raw → ∀ t db'', (machine pf).Run db' t db'' →
    ∀ limit : Option Int, (∀ n ∈ limit, 1 ≤ n ∧ n ≤ 100) →
      ∃ p', readPage pf r db'' a.id (q.at limit (some raw)) = .ok p'
  complete : p.nextCursor = none → ∀ e, q.About a.id a.version db' e →
    e ∈ (ps ++ [p]).flatMap Page.entries
  /-- Entries of every type add up, where times do not go back from one entry to the next. -/
  reconciles : p.nextCursor = none → q.transactionType = none →
    (∀ e ∈ entriesOf a.id db.entries, ∀ e' ∈ entriesOf a.id db.entries,
      e.sequence ≤ e'.sequence → e.createdAt ≤ e'.createdAt) →
    p.opening.add (change ((ps ++ [p]).flatMap Page.entries)) = p.closing

/-- The rows of a statement are the entries it is about, however much was posted since. -/
theorem mem_rows_iff {e : LedgerEntry} (hs : Sound db) (hs' : Sound db') (he : Extends db db') (ha : a ∈ db.accounts)
    (hstays : Stays db db') : e ∈ q.rows none (entriesOf a.id db.entries) ↔ q.About a.id a.version db' e := by
  obtain ⟨a', ha', hid, -⟩ := hstays a ha
  rw [mem_rows, ← (upTo_frozen hs hs' he ha ha' hid).1, upTo, List.mem_filter, decide_eq_true_eq]
  constructor
  · rintro ⟨⟨hmem, haccount, hle⟩, -, hselects⟩
    exact ⟨hmem, haccount, hle, hselects⟩
  · rintro ⟨hmem, haccount, hle, hselects⟩
    exact ⟨⟨hmem, haccount, hle⟩, fun s hs => absurd hs (Option.not_mem_none s), hselects⟩

/-- A cursor a page handed out is taken later. -/
theorem readPage_next {db'' : WalletDb} {limit : Option Int} {s : Int} (hs : Sound db) (hs'' : Sound db'')
    (he : Extends db db'') (hstays : Stays db db'') (ha : a ∈ db.accounts) (hcurrency : a.currency.text = q.currency)
    (hvalid : ∃ limit cursor, (q.at limit cursor).validate = .ok ()) (hlimit : ∀ n ∈ limit, 1 ≤ n ∧ n ≤ 100)
    (hpositive : 0 < s) (hle : s ≤ a.version) (hfaithful : r.Faithful a.id a.version (q.filters pf r)) :
    ∃ p', readPage pf r db'' a.id
      (q.at limit (some (r.encode ⟨a.id, a.version, s, q.filters pf r⟩))) = .ok p' := by
  obtain ⟨a', ha', hid, hsame⟩ := hstays a ha
  obtain ⟨hdecode, hshort⟩ := hfaithful s hpositive hle
  have hversion := (upTo_frozen hs hs'' he ha ha' hid).2
  have hlookup : lookup WalletAccount.id a.id db''.accounts = some a' :=
    hs''.keyed.accounts.lookup_iff.mpr ⟨ha', hid⟩
  have hnext : (q.at limit (some (r.encode ⟨a.id, a.version, s, q.filters pf r⟩))).validate = .ok () := by
    obtain ⟨limit', cursor, hvalid⟩ := hvalid
    obtain ⟨hknown, -, hrange, -, htypes⟩ := validate_iff.mp hvalid
    refine validate_iff.mpr ⟨hknown, hlimit, hrange, ?_, htypes⟩
    intro raw hraw
    rw [← Option.mem_some_iff.mp hraw]
    exact hshort
  have hposition : (q.at limit (some (r.encode ⟨a.id, a.version, s, q.filters pf r⟩))).position r a.id a'.version
      (q.filters pf r) = .ok (a.version, some s) := by
    simp only [ReadQuery.position, ReadQuery.at, hdecode, bind_eq_ok, fetch_eq_ok, ensure_eq_ok, pure_eq_ok,
      Option.some.injEq, exists_eq_left', exists_const, and_true, ne_eq, not_true_eq_false, false_or]
    omega
  refine ⟨(q.at limit (some (r.encode ⟨a.id, a.version, s, q.filters pf r⟩))).page r a' a.version (some s)
    (q.filters pf r) (upTo a.id a.version db''.entries), ?_⟩
  rw [readPage, bind_eq_ok]
  refine ⟨(), hnext, ?_⟩
  rw [bind_eq_ok]
  refine ⟨a', fetch_eq_ok.mpr hlookup, ?_⟩
  rw [bind_eq_ok]
  refine ⟨(), ensure_eq_ok.mpr (by rw [hsame]; exact hcurrency), ?_⟩
  rw [bind_eq_ok]
  exact ⟨_, hposition, rfl⟩

/-- A statement pages exactly: the pages together are the entries of the account up to the version of the
first page that pass the filters, latest first, with one opening and closing balance that they reconcile. -/
theorem statement_pages {ps : List Page} (h : (machine pf).Reachable db) (ha : a ∈ db.accounts)
    (hfaithful : r.Faithful a.id a.version (q.filters pf r)) (hw : Walk pf r q a.id db ps p db') :
    Stated pf r q db a ps p db' := by
  have hs := machine_sound h
  have hwalked := walk_walked hs ha hfaithful hw
  obtain ⟨t, hrun⟩ := hwalked.run
  obtain ⟨hs', hextends, hstays⟩ := run_keeps hs hrun
  obtain ⟨hwithin, hascending⟩ := entries_ascending hs ha
  obtain ⟨next, hnext, hrows, hbounds⟩ := hwalked.rest
  have hlast := hwalked.same p (List.mem_append_right _ (List.mem_singleton_self p))
  have hsub : ((ps ++ [p]).flatMap Page.entries).Sublist (q.rows none (entriesOf a.id db.entries)) := by
    rw [hrows]
    exact List.sublist_append_left _ _
  have hcomplete : p.nextCursor = none → (ps ++ [p]).flatMap Page.entries = q.rows none (entriesOf a.id db.entries) := by
    intro hnone
    rw [hnext, Option.map_eq_none_iff] at hnone
    rw [hrows, hnone, remaining, Option.elim_none, List.append_nil]
  refine ⟨fun page hpage => (hwalked.same page hpage).1, ?_, (rows_descending hascending none).sublist hsub, ?_,
    hwalked.progress, ?_, ?_, ?_⟩
  · intro page hpage
    obtain ⟨-, hopening, hclosing⟩ := hwalked.same page hpage
    exact ⟨hopening.trans hlast.2.1.symm, hclosing.trans hlast.2.2.symm⟩
  · intro e he
    exact (mem_rows_iff hs hs' hextends ha hstays).mp (hsub.mem he)
  · intro raw hraw t' db'' hrun' limit hlimit
    obtain ⟨hs'', hextends', hstays'⟩ := run_keeps hs (hrun.trans hrun')
    obtain ⟨s, rfl, rfl⟩ := Option.map_eq_some_iff.mp (hnext.symm.trans hraw)
    obtain ⟨hpositive, hle, -⟩ := hbounds s rfl
    exact readPage_next hs hs'' hextends' hstays' ha hwalked.currency hwalked.valid hlimit hpositive hle hfaithful
  · intro hnone e habout
    rw [hcomplete hnone]
    exact (mem_rows_iff hs hs' hextends ha hstays).mpr habout
  · intro hnone htype hordered
    obtain ⟨limit, cursor, hvalid⟩ := hwalked.valid
    obtain ⟨-, -, hrange, -⟩ := validate_iff.mp hvalid
    have hpairs := hascending.imp_of_mem fun he he' hlt => hordered _ he _ he' (Int.le_of_lt hlt)
    rw [hlast.2.1, hlast.2.2, hcomplete hnone]
    exact reconciles_of_journal (hs.accounts a ha).journal hpairs
      (fun t ht t' ht' => Int.le_of_lt (hrange t ht t' ht')) htype

/-! ## A sample -/

/-- The digest of the filters of a statement in BDT. -/
def sampleDigest : Digest := 0xadc4c0d301dcd64d59a518db558705129c568eab3e7c61ca057ce606d5769f1b

def samplePlatform : Platform := ⟨fun _ => sampleDigest, fun s => s, fun s => s, fun s => s⟩

/-- The text of a cursor at version 2, up to the letter of the digit it reads below. -/
def sampleText (letter : String) : String :=
  "eyJhY2NvdW50IjoiMDAwMDAwMDAtMDAwMC0wMDAwLTAwMDAtMDAwMDAwMDAwMDAyIiwiY2VpbGluZyI6MiwiYmVmb3JlIjo" ++ letter ++
  "LCJmaWx0ZXJzIjpbMTczLDE5NiwxOTIsMjExLDEsMjIwLDIxNCw3Nyw4OSwxNjUsMjQsMjE5LDg1LDEzNSw1LDE4LDE1Niw4NiwxNDIs" ++
  "MTcxLDYyLDEyNCw5NywyMDIsNSwxMjQsMjMwLDYsMjEzLDExOCwxNTksMjddfQ"

def sampleRendering : Rendering where
  moment n := .ofInt n
  timestamp n := .ofInt n
  encode c := if c = ⟨2, 2, 1, sampleDigest⟩ then sampleText "x" else
    if c = ⟨2, 2, 2, sampleDigest⟩ then sampleText "y" else ""
  decode raw := if raw = sampleText "x" then some ⟨2, 2, 1, sampleDigest⟩ else
    if raw = sampleText "y" then some ⟨2, 2, 2, sampleDigest⟩ else none
  imported _ := none

def sampleQuery : ReadQuery := ⟨"BDT", none, none, none, none, none⟩

def samplePosting (type key : String) (amount : Int) (id : Uuid) (now : Int) : Call :=
  .posting { id := id, account := 2, type := type, amount := amount, operation := none, booking := none, key := key
             hash := 0, actor := "staff", role := "admin", remarks := "", metadata := .obj [], now := now }

theorem sampleRendering_faithful : sampleRendering.Faithful 2 2 (sampleQuery.filters samplePlatform sampleRendering) := by
  intro s hpositive hle
  obtain rfl | rfl : s = 1 ∨ s = 2 := by omega
  · decide +kernel
  · decide +kernel

/-- A deposit and a debit are read on two pages, with a deposit in between. -/
theorem statement_pages_interleaved : ∃ db a p p' db',
    Walk samplePlatform sampleRendering sampleQuery 2 db [p] p' db' ∧
    ([p, p'].flatMap Page.entries).map LedgerEntry.sequence = [2, 1] ∧ p'.nextCursor = none ∧
    p'.closing = ⟨700, 0⟩ ∧ db'.entries.length = 3 ∧
    Stated samplePlatform sampleRendering sampleQuery db a [p] p' db' := by
  let calls : List Call := [.provision ⟨"agency", "A1"⟩ "BDT" (.obj []) 1 2,
    samplePosting "deposit" "d1" 1000 10 100, samplePosting "manual_debit" "m1" 300 11 200]
  have hwalk : ((do
      let db ← runAll samplePlatform [] calls .empty
      let p ← readPage samplePlatform sampleRendering db 2 (sampleQuery.at (some 1) none)
      let db' ← (samplePosting "deposit" "d2" 50 12 300).run samplePlatform [] db
      let raw ← fetch p.nextCursor missing
      let p' ← readPage samplePlatform sampleRendering db' 2 (sampleQuery.at (some 1) (some raw))
      return (p, p', db') : Except ApiError (Page × Page × WalletDb)).map fun x =>
        (([x.1, x.2.1].flatMap Page.entries).map LedgerEntry.sequence, x.2.1.nextCursor, x.2.1.closing,
          x.2.2.entries.length, x.1.ceiling)) = .ok ([2, 1], none, ⟨700, 0⟩, 3, 2) := by
    decide +kernel
  obtain ⟨⟨p, p', db'⟩, hrun, hread⟩ := map_eq_ok.mp hwalk
  simp only [Prod.mk.injEq] at hread
  obtain ⟨hsequences, hlast, hclosing, hentries, hceiling⟩ := hread
  simp only [bind_eq_ok, pure_eq_ok, fetch_eq_ok, Prod.mk.injEq] at hrun
  obtain ⟨db, hdb, first, hp, later, hdb', raw, hraw, last, hp', rfl, rfl, rfl⟩ := hrun
  have hreachable := reachable_of_runAll (.of_init rfl) hdb
  obtain ⟨a, ceiling, before, ha, hid, -, -, hposition, hpage⟩ := readPage_ok hp
  have hversion : a.version = 2 := by
    have hstart : (a.version, none) = (ceiling, before) := Except.ok.inj hposition
    cases hstart
    rw [hpage] at hceiling
    exact hceiling
  have hstep : (machine samplePlatform).step db ([], samplePosting "deposit" "d2" 50 12 300) later := .inl hdb'
  have hpages := (Walk.first hp).next ((Machine.Run.nil db).snoc hstep) hraw hp'
  refine ⟨db, a, first, last, later, hpages, hsequences, hlast, hclosing, hentries, ?_⟩
  refine statement_pages hreachable ha ?_ (by rw [hid]; exact hpages)
  rw [hid, hversion]
  exact sampleRendering_faithful

end ShaponTravels.Wallet
