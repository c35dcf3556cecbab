import ShaponTravels.Wallet.Changes
import ShaponTravels.Wallet.TicketMoves

/-!
# TicketClaims — keys, claims and the rows they are about

A request holds its entitlements by claims, whose key is the entitlement.  So what one request closes, no
other open request has selected, and its quotes stay in step with its rows.
-/

namespace ShaponTravels.Wallet.Tickets

open Library
open TicketManagement (Action Entitlement)
open Nonissuance (Actor)

variable {desk : Desk} {db db' db₁ : Db} {actor : Actor} {r r' r₁ saved : Request} {input : Mutation} {draw : Draw}

/-! ## The row of a request -/

/-- One row of the requests is replaced by a later one, and its claims go when it ends. -/
structure Replaced (db : Db) (r saved : Request) (db' : Db) : Prop where
  mem : r ∈ db.requests
  unended : r.terminalOutcome = none
  identity : saved.columns r = saved
  version : saved.version = r.version + 1
  requests : db'.requests = Library.modify Request.id r.id saved.columns db.requests
  claims : db'.claims = remaining db.claims saved
  selections : db'.selections = db.selections

theorem Replaced.id (h : Replaced db r saved db') : saved.id = r.id := by
  rw [← h.identity]
  rfl

theorem Replaced.booking (h : Replaced db r saved db') : saved.bookingId = r.bookingId := by
  rw [← h.identity]
  rfl

theorem Replaced.account (h : Replaced db r saved db') : saved.walletAccountId = r.walletAccountId := by
  rw [← h.identity]
  rfl

theorem Replaced.action (h : Replaced db r saved db') : saved.action = r.action := by
  rw [← h.identity]
  rfl

theorem Replaced.saved_mem (h : Replaced db r saved db') : saved ∈ db'.requests := by
  have hmem : saved.columns r ∈ Library.modify Request.id r.id saved.columns db.requests := mem_modify_of_mem h.mem rfl
  rw [h.requests, ← h.identity]
  exact hmem

theorem Replaced.cases (h : Replaced db r saved db') (hkeys : KeyUnique Request.id db.requests)
    (hr' : r' ∈ db'.requests) : (r' ∈ db.requests ∧ r'.id ≠ r.id) ∨ r' = saved := by
  rw [h.requests] at hr'
  rcases modify_cases hr' with hother | ⟨old, hold, hid, rfl⟩
  · exact .inl hother
  · obtain rfl := hkeys.eq_of_key hold h.mem hid
    exact .inr h.identity

theorem Replaced.other (h : Replaced db r saved db') (hr' : r' ∈ db.requests) (hne : r'.id ≠ r.id) :
    r' ∈ db'.requests := by
  rw [h.requests]
  exact mem_modify_of_ne hr' hne

/-- Every request goes on under its id. -/
theorem Replaced.exists (h : Replaced db r saved db') (hr' : r' ∈ db.requests) :
    ∃ r'' ∈ db'.requests, r''.id = r'.id ∧ r''.bookingId = r'.bookingId := by
  rw [h.requests]
  refine ⟨_, mem_modify.mpr ⟨r', hr', rfl⟩, ?_⟩
  split <;> exact ⟨rfl, rfl⟩

theorem Saved.replaced {previous : Status} {now : Int} {start : Option Status} {db₂ : Db}
    (h : Saved db₁ r₁ previous now saved db₂) (hr : r ∈ db.requests) (hsame : r₁.columns r = r₁)
    (htables : db₁.requests = db.requests ∧ db₁.claims = db.claims ∧ db₁.selections = db.selections)
    (hlog : Logged db₂ saved start db') : Replaced db r saved db' := by
  have hid : r.id = r₁.id := by
    show (r₁.columns r).id = r₁.id
    rw [hsame]
  obtain ⟨hunended, hversion⟩ := h.unended r (htables.1 ▸ hr) hid
  have hidentity : saved.columns r = saved := by
    rw [h.row]
    show (r₁.columns r).advanced previous now = r₁.advanced previous now
    rw [hsame]
  obtain ⟨ev, -, -, -, -, rfl⟩ := hlog.event
  refine ⟨hr, hunended, hidentity, hversion, ?_, ?_, ?_⟩
  · show db₂.requests = _
    rw [h.tables, hid, ← htables.1]
  · show db₂.claims = _
    rw [h.tables, ← htables.2.1]
  · show db₂.selections = _
    rw [h.tables, ← htables.2.2]

/-- A change leaves the tables of the requests alone, and what identifies its request. -/
theorem Turn.same (h : Turn desk db actor r input draw db₁ r₁) :
    r₁.columns r = r₁ ∧ db₁.requests = db.requests ∧ db₁.claims = db.claims ∧ db₁.selections = db.selections := by
  cases h <;> exact ⟨rfl, rfl, rfl, rfl⟩

theorem Turned.replaced (h : Turned desk db actor r input draw saved db') : Replaced db r saved db' := by
  obtain ⟨db₁, r₁, db₂, hturn, hsaved, hlog⟩ := h.change
  exact hsaved.replaced h.mem hturn.same.1 hturn.same.2 hlog

theorem Expired.replaced {now : Int} (h : Expired db r now saved db') : Replaced db r saved db' := by
  obtain ⟨db₂, hsaved, hlog⟩ := h.change
  exact hsaved.replaced h.mem rfl ⟨rfl, rfl, rfl⟩ hlog

/-- What a mutation leaves in the tables that `save` does not write. -/
theorem Turned.tables (h : Turned desk db actor r input draw saved db') :
    ∃ db₁ r₁, Turn desk db actor r input draw db₁ r₁ ∧ saved = r₁.advanced r.status draw.now ∧
      (r₁.status = r.status ∨ follows r.status r₁.status) ∧ saved.Staged ∧ db'.wallet = db₁.wallet ∧
      db'.entitlements = db₁.entitlements ∧ db'.quotes = db₁.quotes := by
  obtain ⟨db₁, r₁, db₂, hturn, hsaved, hlog⟩ := h.change
  obtain ⟨ev, -, -, -, -, rfl⟩ := hlog.event
  refine ⟨db₁, r₁, hturn, hsaved.row, hsaved.stage, hsaved.staged, ?_, ?_, ?_⟩
  all_goals
    show _ = _
    rw [hsaved.tables]

theorem Expired.tables {now : Int} (h : Expired db r now saved db') :
    saved = { r with status := .expired, terminalOutcome := some .confirmationExpired }.advanced
      .awaitingConfirmation now ∧ db'.wallet = db.wallet ∧ db'.entitlements = db.entitlements ∧
      db'.quotes = db.quotes := by
  obtain ⟨db₂, hsaved, hlog⟩ := h.change
  obtain ⟨ev, -, -, -, -, rfl⟩ := hlog.event
  refine ⟨hsaved.row, ?_, ?_, ?_⟩
  all_goals
    show _ = _
    rw [hsaved.tables]

/-! ## Keys -/

/-- The keys of the tables, and the wallet in step with its ledger. -/
structure Keys (db : Db) : Prop where
  requests : KeyUnique Request.id db.requests
  entitlements : Rows db.entitlements
  claims : KeyUnique Claim.entitlementId db.claims
  quotes : KeyUnique QuoteRow.id db.quotes
  wallet : Wallet.Faithful db.wallet

theorem Replaced.keyUnique (h : Replaced db r saved db') (hkeys : KeyUnique Request.id db.requests) :
    KeyUnique Request.id db'.requests := by
  rw [h.requests]
  exact hkeys.modify fun _ => rfl

theorem Replaced.claims_sublist (h : Replaced db r saved db') : db'.claims.Sublist db.claims := by
  rw [h.claims]
  unfold remaining
  split
  · exact List.filter_sublist
  · exact .refl _

/-- The refunds of a settlement, one after the other. -/
theorem postCredits_faithful {subjects : List FinancialSubject} {wallet wallet' : WalletDb} {cs : List (Uuid × Int)}
    {entries : List Uuid} (hf : Wallet.Faithful wallet)
    (h : postCredits desk subjects wallet actor r cs draw = .ok (entries, wallet')) : Wallet.Faithful wallet' := by
  refine foldlM_invariant (I := fun s : List Uuid × WalletDb => Wallet.Faithful s.2) (fun s c _ s' hs hstep => ?_) hf h
  simp only [bind_eq_ok, pure_eq_ok] at hstep
  obtain ⟨⟨e, next⟩, hpost, rfl⟩ := hstep
  exact (hs.posting (Wallet.post_ok hpost)).faithful

theorem Turn.faithful (h : Turn desk db actor r input draw db₁ r₁) (hf : Wallet.Faithful db.wallet) :
    Wallet.Faithful db₁.wallet := by
  cases h with
  | moved | published | confirmed | assigned | reopened => exact hf
  | held row note o wallet hinput hrole hoffered hdirection hreserve => exact (hf.reserve hreserve).faithful
  | released row o o' wallet hstatus hholding hsettle => exact (hf.settle hsettle).faithful
  | settled row wallet rows added hsettling hpaid =>
    cases hpaid with
    | debit o o' hholding hsettle => exact (hf.settle hsettle).faithful
    | credit cs entries hdirection hhold hcredits hpost => exact postCredits_faithful hf hpost
    | none hdirection hhold hwallet => exact hwallet ▸ hf

theorem Outside.faithful (h : Outside desk db db') (hf : Wallet.Faithful db.wallet) : Wallet.Faithful db'.wallet := by
  cases h with
  | call call wallet hallowed hrun => exact (hf.run hrun).faithful
  | status owners =>
    have hkept : Wallet.Advanced db.wallet { db.wallet with owners := owners } :=
      hf.of_same_money rfl rfl rfl (List.prefix_refl _)
    exact hkept.faithful

namespace Keys

theorem start (records : Records) : Keys (.start records) where
  requests := .nil
  entitlements := ⟨.nil, fun _ he => (nomatch he), fun _ he => (nomatch he)⟩
  claims := .nil
  quotes := .nil
  wallet := .empty

theorem quiet (hk : Keys db) (h : Quiet desk db db') : Keys db' := by
  cases h with
  | initialized b w draw added hcharged hinitialized =>
    exact { hk with entitlements := hinitialized.keeps hk.entitlements }
  | created r selected hcreated =>
    obtain ⟨ev, -, -, -, -, rfl⟩ := hcreated.log.event
    refine { hk with requests := keyUnique_concat.mpr ⟨hk.requests, hcreated.fresh⟩, claims := ?_ }
    -- the claimed entitlements are distinct, and were free
    show (List.map _ (db.claims ++ selected.map _)).Nodup
    rw [List.map_append, List.map_map, List.nodup_append]
    refine ⟨hk.claims, hcreated.distinct, fun id hid id' hid' heq => ?_⟩
    obtain ⟨c, hc, rfl⟩ := List.mem_map.mp hid
    exact hcreated.free c hc (heq ▸ hid')
  | expired r saved now hexpired =>
    have hreplaced := hexpired.replaced
    obtain ⟨-, hwallet, hentitlements, hquotes⟩ := hexpired.tables
    exact ⟨hreplaced.keyUnique hk.requests, hentitlements ▸ hk.entitlements,
      hk.claims.sublist (hreplaced.claims_sublist.map _), hquotes ▸ hk.quotes, hwallet ▸ hk.wallet⟩
  | remembered rows => exact { hk with }
  | recorded records => exact { hk with }

theorem turned (hk : Keys db) (h : Turned desk db actor r input draw saved db') : Keys db' := by
  have hreplaced := h.replaced
  obtain ⟨db₁, r₁, hturn, -, -, -, hwallet, hentitlements, hquotes⟩ := h.tables
  refine ⟨hreplaced.keyUnique hk.requests, ?_, hk.claims.sublist (hreplaced.claims_sublist.map _), ?_,
    hwallet ▸ hturn.faithful hk.wallet⟩
  · rw [hentitlements]
    cases hturn with
    | settled row wallet rows added hsettling hpaid hrewritten => exact hrewritten.keeps hk.entitlements
    | moved | published | confirmed | held | assigned | reopened | released => exact hk.entitlements
  · rw [hquotes]
    cases hturn with
    | published row hrow hnew => exact keyUnique_concat.mpr ⟨hk.quotes, hnew⟩
    | moved | confirmed | held | assigned | reopened | released | settled => exact hk.quotes

theorem outside (hk : Keys db) (h : Outside desk db db') : Keys db' := by
  have hf := h.faithful hk.wallet
  cases h <;> exact ⟨hk.requests, hk.entitlements, hk.claims, hk.quotes, hf⟩

end Keys

/-! ## Claims -/

/-- What a request has selected. -/
def Selects (db : Db) (r : Request) (id : Uuid) : Prop := (⟨r.id, id⟩ : Selection) ∈ db.selections

/-- An open request claims what it selected, every claim is on an active entitlement of an open request, and
of one action a booking has one open request. -/
structure Claimed (db : Db) : Prop where
  selected : ∀ s ∈ db.selections, ∃ r ∈ db.requests, r.id = s.requestId ∧
    ∃ e ∈ db.entitlements, e.id = s.entitlementId ∧ e.bookingId = r.bookingId
  held : ∀ r ∈ db.requests, r.terminalOutcome = none → ∀ id, (⟨id, r.id⟩ : Claim) ∈ db.claims ↔ Selects db r id
  active : ∀ c ∈ db.claims, ∃ e ∈ db.entitlements, e.id = c.entitlementId ∧ e.state = .active
  unended : ∀ c ∈ db.claims, ∃ r ∈ db.requests, r.id = c.requestId ∧ r.terminalOutcome = none
  actions : ∀ r ∈ db.requests, ∀ r' ∈ db.requests, r.bookingId = r'.bookingId → r.action = r'.action →
    r.terminalOutcome = none → r'.terminalOutcome = none → r.id = r'.id

/-- Two open requests select nothing in common. -/
theorem Claimed.apart (hk : Keys db) (hc : Claimed db) (hr : r ∈ db.requests) (hr' : r' ∈ db.requests)
    (hopen : r.terminalOutcome = none) (hopen' : r'.terminalOutcome = none) {id : Uuid} (h : Selects db r id)
    (h' : Selects db r' id) : r.id = r'.id := by
  have hclaim := (hc.held r hr hopen id).mpr h
  have hclaim' := (hc.held r' hr' hopen' id).mpr h'
  exact congrArg Claim.requestId (hk.claims.eq_of_key hclaim hclaim' rfl)

/-! ### Rows that a request selected -/

theorem mem_selections {e : Entitlement} : e ∈ selections db r ↔ e ∈ db.entitlements ∧ Selects db r e.id := by
  unfold selections
  rw [List.mem_mergeSort, List.mem_filter, decide_eq_true_eq]
  rfl

theorem filter_closeRows {outcome : Outcome} {ids : List Uuid} {p : Uuid → Prop} [DecidablePred p]
    (hp : ∀ id ∈ ids, ¬ p id) (rows : List Entitlement) :
    (closeRows outcome ids rows).filter (fun e => p e.id) = rows.filter fun e => p e.id := by
  induction rows with
  | nil => rfl
  | cons e rows ih =>
    show ((if e.id ∈ ids then _ else e) :: closeRows outcome ids rows).filter _ = _
    by_cases hid : e.id ∈ ids
    · have hnot : ¬ p e.id := hp e.id hid
      rw [if_pos hid, List.filter_cons_of_neg (by simpa using hnot), List.filter_cons_of_neg (by simpa using hnot), ih]
    · rw [if_neg hid, List.filter_cons, List.filter_cons, ih]

/-- The rows of a request whose selections, and whose rows, stay. -/
theorem selections_congr (hid : r'.id = r.id)
    (h : db'.entitlements.filter (fun e => (⟨r.id, e.id⟩ : Selection) ∈ db'.selections) =
      db.entitlements.filter fun e => (⟨r.id, e.id⟩ : Selection) ∈ db.selections) :
    selections db' r' = selections db r := by
  unfold selections
  rw [hid, h]

/-- New rows of other ids are not selected. -/
theorem filter_fresh {rows added : List Entitlement} {p : Uuid → Prop} [DecidablePred p]
    (hfresh : ∀ e ∈ added, ¬ p e.id) : (rows ++ added).filter (fun e => p e.id) = rows.filter fun e => p e.id := by
  have hnone : added.filter (fun e => decide (p e.id)) = [] := by
    rw [List.filter_eq_nil_iff]
    intro e he
    simpa using hfresh e he
  rw [List.filter_append, hnone, List.append_nil]

theorem Claimed.unselected (hc : Claimed db) {added : List Entitlement}
    (hfresh : ∀ e ∈ added, ∀ e' ∈ db.entitlements, e'.id ≠ e.id) :
    ∀ e ∈ added, (⟨r.id, e.id⟩ : Selection) ∉ db.selections := by
  intro e he hmem
  obtain ⟨-, -, -, e', he', hid, -⟩ := hc.selected _ hmem
  exact hfresh e he e' he' hid

theorem Expired.selections_eq {now : Int} (h : Expired db r now saved db') (r' : Request) :
    selections db' r' = selections db r' := by
  refine selections_congr rfl ?_
  rw [h.tables.2.2.1, h.replaced.selections]

theorem Claimed.selections_quiet (hc : Claimed db) (h : Quiet desk db db') (hr : r ∈ db.requests) :
    selections db' r = selections db r := by
  cases h with
  | initialized b w draw added hcharged hinitialized =>
    exact selections_congr rfl (filter_fresh (p := fun id => (⟨r.id, id⟩ : Selection) ∈ db.selections)
      (hc.unselected hinitialized.fresh))
  | created r₁ selected hcreated =>
    obtain ⟨ev, -, -, -, -, rfl⟩ := hcreated.log.event
    refine selections_congr rfl (List.filter_congr fun e _ => ?_)
    -- the new selections are of another request
    have hother : (⟨r.id, e.id⟩ : Selection) ∉ selected.map fun e => ⟨r₁.id, e.id⟩ := by
      intro hmem
      obtain ⟨e', -, heq⟩ := List.mem_map.mp hmem
      exact hcreated.fresh r hr (congrArg Selection.requestId heq).symm
    show decide (_ ∈ db.selections ++ _) = _
    simp only [List.mem_append, hother, or_false]
  | expired r₁ saved now hexpired => exact hexpired.selections_eq r
  | remembered rows => rfl
  | recorded records => rfl

theorem Claimed.selections_turned (hk : Keys db) (hc : Claimed db) (h : Turned desk db actor r input draw saved db')
    (hr' : r' ∈ db.requests) (hopen : r'.terminalOutcome = none)
    (hother : r'.id ≠ r.id ∨ saved.terminalOutcome = none) : selections db' r' = selections db r' := by
  have hreplaced := h.replaced
  obtain ⟨db₁, r₁, hturn, hsaved, -, -, -, hentitlements, -⟩ := h.tables
  refine selections_congr rfl ?_
  rw [hentitlements, hreplaced.selections]
  cases hturn with
  | moved | published | confirmed | held | assigned | reopened | released => rfl
  | settled row wallet rows added hsettling hpaid hrewritten =>
    show rows.filter _ = _
    rw [hrewritten.table, filter_fresh (p := fun id => (⟨r'.id, id⟩ : Selection) ∈ db.selections)
      (hc.unselected hrewritten.fresh)]
    refine filter_closeRows (p := fun id => (⟨r'.id, id⟩ : Selection) ∈ db.selections) (fun id hid hselects => ?_) _
    obtain ⟨e, he, rfl⟩ := List.mem_map.mp hid
    rcases hother with hne | hnone
    · exact hne (hc.apart hk hr' h.mem hopen h.unended hselects (mem_selections.mp he).2)
    · rw [hsaved] at hnone
      cases hnone

/-! ### Preservation -/

/-- What a change of a request may do to the entitlements: the active ones stay, but for those that it selected
and closed as it ended. -/
structure Spared (db : Db) (r saved : Request) (db' : Db) : Prop where
  rows : ∀ e ∈ db.entitlements, ∃ e' ∈ db'.entitlements, e'.id = e.id ∧ e'.bookingId = e.bookingId
  active : ∀ e ∈ db.entitlements, e.state = .active → ¬ (saved.terminalOutcome.isSome ∧ Selects db r e.id) →
    e ∈ db'.entitlements

theorem Spared.of_same (h : db'.entitlements = db.entitlements) : Spared db r saved db' where
  rows e he := ⟨e, h ▸ he, rfl, rfl⟩
  active _ he _ _ := h ▸ he

theorem Turned.spared (h : Turned desk db actor r input draw saved db') : Spared db r saved db' := by
  obtain ⟨db₁, r₁, hturn, hsaved, -, -, -, hentitlements, -⟩ := h.tables
  cases hturn with
  | moved | published | confirmed | held | assigned | reopened | released => exact .of_same hentitlements
  | settled row wallet rows added hsettling hpaid hrewritten =>
    replace hentitlements : db'.entitlements = rows := hentitlements
    have hclosed : ∀ e ∈ db.entitlements, (if e.id ∈ (selections db r).map (·.id) then
        { e with state := closedState (outcomeOf r.action) } else e) ∈ db'.entitlements := by
      intro e he
      rw [hentitlements, hrewritten.table]
      exact List.mem_append_left _ (List.mem_map_of_mem he)
    refine ⟨fun _ he => ⟨_, hclosed _ he, ?_⟩, fun e he hactive hnot => ?_⟩
    · split <;> exact ⟨rfl, rfl⟩
    · have hunselected : e.id ∉ (selections db r).map (·.id) := by
        intro hmem
        obtain ⟨e', he', hid⟩ := List.mem_map.mp hmem
        exact hnot ⟨by rw [hsaved]; rfl, hid ▸ (mem_selections.mp he').2⟩
      have hkept := hclosed e he
      rw [if_neg hunselected] at hkept
      exact hkept

theorem mem_remaining {claims : List Claim} {c : Claim} :
    c ∈ remaining claims saved ↔ c ∈ claims ∧ (saved.terminalOutcome.isSome → c.requestId ≠ saved.id) := by
  unfold remaining
  split
  · rename_i hended
    simp only [List.mem_filter, decide_eq_true_eq, hended, forall_const]
  · rename_i hopen
    rw [and_iff_left fun hended => absurd hended hopen]

namespace Claimed

theorem start (records : Records) : Claimed (.start records) :=
  ⟨fun _ h => (nomatch h), fun _ h => (nomatch h), fun _ h => (nomatch h), fun _ h => (nomatch h),
    fun _ h => (nomatch h)⟩

/-- The claims after one request was replaced. -/
theorem replaced (hk : Keys db) (hc : Claimed db) (h : Replaced db r saved db') (hspared : Spared db r saved db') :
    Claimed db' := by
  have hkept : ∀ c ∈ db'.claims, c ∈ db.claims ∧ (saved.terminalOutcome.isSome → c.requestId ≠ r.id) := by
    intro c hmem
    rw [h.claims] at hmem
    exact h.id ▸ mem_remaining.mp hmem
  constructor
  case selected =>
    intro s hs
    rw [h.selections] at hs
    obtain ⟨r', hr', hid, e, he, heid, hbooking⟩ := hc.selected s hs
    obtain ⟨r'', hr'', hid', hbooking'⟩ := h.exists hr'
    obtain ⟨e', he', heid', hbooking''⟩ := hspared.rows e he
    exact ⟨r'', hr'', hid'.trans hid, e', he', heid'.trans heid, by rw [hbooking'', hbooking, hbooking']⟩
  case held =>
    intro r' hr' hopen id
    show _ ↔ (⟨r'.id, id⟩ : Selection) ∈ db'.selections
    rw [h.selections, h.claims, mem_remaining]
    rcases h.cases hk.requests hr' with ⟨hold, hne⟩ | rfl
    · -- the claims of the other requests are kept
      rw [and_iff_left fun _ => h.id ▸ hne]
      exact hc.held r' hold hopen id
    · rw [and_iff_left fun hended => absurd hended (by rw [hopen]; decide), h.id]
      exact hc.held r h.mem h.unended id
  case active =>
    intro c hmem
    obtain ⟨hold, hnot⟩ := hkept c hmem
    obtain ⟨e, he, hid, hactive⟩ := hc.active c hold
    refine ⟨e, hspared.active e he hactive fun ⟨hended, hselects⟩ => ?_, hid, hactive⟩
    -- the request would claim it, and it is the only one that does
    have hclaim := (hc.held r h.mem h.unended e.id).mpr hselects
    have heq := hk.claims.eq_of_key hclaim hold hid
    exact hnot hended (congrArg Claim.requestId heq).symm
  case unended =>
    intro c hmem
    obtain ⟨hold, hnot⟩ := hkept c hmem
    obtain ⟨r', hr', hid, hopen⟩ := hc.unended c hold
    by_cases hsame : r'.id = r.id
    · refine ⟨saved, h.saved_mem, h.id.trans (hsame.symm.trans hid), ?_⟩
      rw [← Option.not_isSome_iff_eq_none]
      exact fun hended => hnot hended (hid.symm.trans hsame)
    · exact ⟨r', h.other hr' hsame, hid, hopen⟩
  case actions =>
    intro r' hr' r'' hr'' hbooking haction hopen hopen'
    rcases h.cases hk.requests hr' with ⟨hold, hne⟩ | rfl <;> rcases h.cases hk.requests hr'' with ⟨hold', hne'⟩ | rfl
    · exact hc.actions r' hold r'' hold' hbooking haction hopen hopen'
    · rw [h.booking] at hbooking
      rw [h.action] at haction
      exact absurd (hc.actions r' hold r h.mem hbooking haction hopen h.unended) hne
    · rw [h.booking] at hbooking
      rw [h.action] at haction
      exact absurd (hc.actions r h.mem r'' hold' hbooking haction h.unended hopen').symm hne'
    · rfl

theorem created {selected : List Entitlement} (hc : Claimed db) (h : Created db r selected db') : Claimed db' := by
  obtain ⟨ev, -, -, -, -, rfl⟩ := h.log.event
  have hclaims : ∀ c ∈ db.claims, c.requestId ≠ r.id := by
    intro c hmem hid
    obtain ⟨r', hr', hid', -⟩ := hc.unended c hmem
    exact h.fresh r' hr' (hid'.trans hid)
  have hselections : ∀ s ∈ db.selections, s.requestId ≠ r.id := by
    intro s hmem hid
    obtain ⟨r', hr', hid', -⟩ := hc.selected s hmem
    exact h.fresh r' hr' (hid'.trans hid)
  constructor
  case selected =>
    intro s hs
    rcases List.mem_append.mp hs with hold | hnew
    · obtain ⟨r', hr', hid, he⟩ := hc.selected s hold
      exact ⟨r', List.mem_append_left _ hr', hid, he⟩
    · obtain ⟨e, he, rfl⟩ := List.mem_map.mp hnew
      exact ⟨r, List.mem_append_right _ (List.mem_singleton_self r), rfl, e, (h.chosen e he).1, rfl, (h.chosen e he).2.1⟩
  case held =>
    intro r' hr' hopen id
    show (⟨id, r'.id⟩ : Claim) ∈ db.claims ++ _ ↔ (⟨r'.id, id⟩ : Selection) ∈ db.selections ++ _
    rw [List.mem_append, List.mem_append, List.mem_map, List.mem_map]
    rcases List.mem_append.mp hr' with hold | hnew
    · have hne : r.id ≠ r'.id := (h.fresh r' hold).symm
      simp only [Claim.mk.injEq, Selection.mk.injEq, hne, and_false, false_and, exists_false, or_false]
      exact hc.held r' hold hopen id
    · obtain rfl := List.mem_singleton.mp hnew
      have hold : (⟨id, r'.id⟩ : Claim) ∉ db.claims := fun hmem => hclaims _ hmem rfl
      have hold' : (⟨r'.id, id⟩ : Selection) ∉ db.selections := fun hmem => hselections _ hmem rfl
      simp only [hold, hold', Claim.mk.injEq, Selection.mk.injEq, and_true, true_and, false_or]
  case active =>
    intro c hmem
    rcases List.mem_append.mp hmem with hold | hnew
    · exact hc.active c hold
    · obtain ⟨e, he, rfl⟩ := List.mem_map.mp hnew
      exact ⟨e, (h.chosen e he).1, rfl, (h.chosen e he).2.2⟩
  case unended =>
    intro c hmem
    rcases List.mem_append.mp hmem with hold | hnew
    · obtain ⟨r', hr', hid, hopen⟩ := hc.unended c hold
      exact ⟨r', List.mem_append_left _ hr', hid, hopen⟩
    · obtain ⟨e, he, rfl⟩ := List.mem_map.mp hnew
      exact ⟨r, List.mem_append_right _ (List.mem_singleton_self r), rfl, h.blank.2.1⟩
  case actions =>
    intro r' hr' r'' hr'' hbooking haction hopen hopen'
    rcases List.mem_append.mp hr' with hold | hnew <;> rcases List.mem_append.mp hr'' with hold' | hnew'
    · exact hc.actions r' hold r'' hold' hbooking haction hopen hopen'
    · obtain rfl := List.mem_singleton.mp hnew'
      exact absurd ⟨hbooking, haction, hopen⟩ (h.alone r' hold)
    · obtain rfl := List.mem_singleton.mp hnew
      exact absurd ⟨hbooking.symm, haction.symm, hopen'⟩ (h.alone r'' hold')
    · rw [List.mem_singleton.mp hnew, List.mem_singleton.mp hnew']

theorem quiet (hk : Keys db) (hc : Claimed db) (h : Quiet desk db db') : Claimed db' := by
  cases h with
  | initialized b w draw added hcharged hinitialized =>
    refine ⟨fun s hs => ?_, hc.held, fun c hmem => ?_, hc.unended, hc.actions⟩
    · obtain ⟨r, hr, hid, e, he, hrest⟩ := hc.selected s hs
      exact ⟨r, hr, hid, e, List.mem_append_left _ he, hrest⟩
    · obtain ⟨e, he, hrest⟩ := hc.active c hmem
      exact ⟨e, List.mem_append_left _ he, hrest⟩
  | created r selected hcreated => exact hc.created hcreated
  | expired r saved now hexpired => exact hc.replaced hk hexpired.replaced (.of_same hexpired.tables.2.2.1)
  | remembered rows => exact { hc with }
  | recorded records => exact { hc with }

theorem turned (hk : Keys db) (hc : Claimed db) (h : Turned desk db actor r input draw saved db') : Claimed db' :=
  hc.replaced hk h.replaced h.spared

theorem outside (hc : Claimed db) (h : Outside desk db db') : Claimed db' := by
  cases h <;> exact ⟨hc.selected, hc.held, hc.active, hc.unended, hc.actions⟩

end Claimed

end ShaponTravels.Wallet.Tickets
