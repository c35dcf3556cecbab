import ShaponTravels.Wallet.TicketEffects

/-!
# TicketLives — the whole life of a request

Only the mutations of a request change the wallet on its account, and all that they do to it is what the settled
quote says.  An ended request stays as it is, so it is settled once, and from a quote that its customer confirmed.
-/

namespace ShaponTravels.Wallet.Tickets

open Library
open TicketManagement (Quote)
open Nonissuance (Actor)

variable {desk : Desk} {db db' db₁ : Db} {actor : Actor} {r r' r₁ saved : Request} {input : Mutation} {draw : Draw}
  {row : QuoteRow} {o : WalletOperation} {w w' : WalletDb} {subjects : List FinancialSubject}

/-! ## What a request has come to -/

/-- What a request has come to for its customer: once it is settled, what its quote pays or takes. -/
def effectOf (db : Db) (r : Request) : Int :=
  if r.status = .approved ∧ r.terminalOutcome ≠ none then
    ((db.quote r.approvedQuoteId).map fun row => row.data.credit - row.data.debit).getD 0
  else 0

/-- What the request of an id has come to. -/
def effect (db : Db) (id : Uuid) : Int := ((lookup Request.id id db.requests).map (effectOf db)).getD 0

theorem effect_of_mem (hk : Keys db) (hr : r ∈ db.requests) : effect db r.id = effectOf db r := by
  unfold effect
  rw [hk.requests.lookup hr]
  rfl

theorem effect_of_none {id : Uuid} (h : ∀ r ∈ db.requests, r.id ≠ id) : effect db id = 0 := by
  unfold effect
  rw [lookup_eq_none.mpr h]
  rfl

theorem effectOf_open (h : r.terminalOutcome = none) : effectOf db r = 0 := if_neg fun hsettled => hsettled.2 h

theorem effectOf_unapproved (h : r.status ≠ .approved) : effectOf db r = 0 := if_neg fun hsettled => h hsettled.1

/-- The quote of a settled request stays. -/
theorem effectOf_later (hk : Keys db) (hk' : Keys db') (hb : Backed db r) (hquotes : ∀ q ∈ db.quotes, q ∈ db'.quotes) :
    effectOf db' r = effectOf db r := by
  unfold effectOf
  by_cases hsettled : r.status = .approved ∧ r.terminalOutcome ≠ none
  · obtain ⟨row, hrow, happroved, -⟩ := hb.approved hsettled.1
    rw [if_pos hsettled, if_pos hsettled, happroved, quote_of_mem hk hrow, quote_of_mem hk' (hquotes row hrow)]
  · rw [if_neg hsettled, if_neg hsettled]

/-! ## What a change leaves as it is -/

/-- The requests go on: an ended one as it is, and each but the changed one comes to what it came to. -/
structure Kept (db db' : Db) (changed : Option Uuid) : Prop where
  accounts : ∀ r ∈ db.requests, ∃ r' ∈ db'.requests, r'.id = r.id ∧ r'.walletAccountId = r.walletAccountId
  ended : ∀ r ∈ db.requests, r.terminalOutcome ≠ none → r ∈ db'.requests
  effect : ∀ id, changed ≠ some id → effect db' id = effect db id
  approved : ∀ r' ∈ db'.requests, r'.status = .approved → changed ≠ some r'.id → r' ∈ db.requests

theorem Kept.of_same (hrequests : db'.requests = db.requests) (hquotes : db'.quotes = db.quotes) :
    Kept db db' none where
  accounts r hr := ⟨r, hrequests ▸ hr, rfl, rfl⟩
  ended _ hr _ := hrequests ▸ hr
  effect id _ := by
    have hof : effectOf db' = effectOf db := by
      funext r
      unfold effectOf Db.quote
      rw [hquotes]
    unfold Tickets.effect
    rw [hrequests, hof]
  approved _ hr _ _ := hrequests ▸ hr

theorem Kept.trans {db₂ : Db} (h : Kept db db₁ none) (h' : Kept db₁ db₂ none) : Kept db db₂ none where
  accounts r hr := by
    obtain ⟨r₁, hr₁, hid, haccount⟩ := h.accounts r hr
    obtain ⟨r₂, hr₂, hid', haccount'⟩ := h'.accounts r₁ hr₁
    exact ⟨r₂, hr₂, hid'.trans hid, haccount'.trans haccount⟩
  ended r hr hended := h'.ended r (h.ended r hr hended) hended
  effect id hid := (h'.effect id hid).trans (h.effect id hid)
  approved r hr hstatus _ := h.approved r (h'.approved r hr hstatus (by simp)) hstatus (by simp)

theorem Replaced.kept (hk : Keys db) (hk' : Keys db') (hh : Held db) (h : Replaced db r saved db')
    (hquotes : ∀ q ∈ db.quotes, q ∈ db'.quotes) : Kept db db' (some r.id) where
  accounts r' hr' := by
    by_cases hid : r'.id = r.id
    · obtain rfl := hk.requests.eq_of_key hr' h.mem hid
      exact ⟨saved, h.saved_mem, h.id, h.account⟩
    · exact ⟨r', h.other hr' hid, rfl, rfl⟩
  ended r' hr' hended := by
    refine h.other hr' fun hid => ?_
    obtain rfl := hk.requests.eq_of_key hr' h.mem hid
    exact hended h.unended
  effect id hne := by
    by_cases hrow : ∃ r' ∈ db.requests, r'.id = id
    · obtain ⟨r', hr', rfl⟩ := hrow
      have hother : r'.id ≠ r.id := fun hid => hne (congrArg some hid.symm)
      rw [effect_of_mem hk hr', effect_of_mem hk' (h.other hr' hother)]
      exact effectOf_later hk hk' (hh.backed r' hr') hquotes
    · rw [effect_of_none fun r' hr' hid => hrow ⟨r', hr', hid⟩, effect_of_none]
      intro r' hr' hid
      rcases h.cases hk.requests hr' with ⟨hold, -⟩ | rfl
      · exact hrow ⟨r', hold, hid⟩
      · exact hne (congrArg some (h.id.symm.trans hid))
  approved r' hr' _ hne := by
    rcases h.cases hk.requests hr' with ⟨hold, -⟩ | rfl
    · exact hold
    · exact absurd (congrArg some h.id.symm) hne

theorem Expired.kept {now : Int} (hk : Keys db) (hk' : Keys db') (hh : Held db) (h : Expired db r now saved db') :
    Kept db db' none := by
  have hreplaced := h.replaced
  obtain ⟨hsaved, -, -, hquotes⟩ := h.tables
  have hkept := hreplaced.kept hk hk' hh fun q hq => hquotes ▸ hq
  have hstatus : saved.status ≠ .approved := by
    rw [hsaved]
    show Status.expired ≠ .approved
    decide
  refine ⟨hkept.accounts, hkept.ended, fun id _ => ?_, fun r' hr' happroved _ => ?_⟩
  · by_cases hid : id = r.id
    · -- neither an open request nor an expired one has come to anything
      have hafter : effect db' r.id = 0 := by
        rw [← hreplaced.id, effect_of_mem hk' hreplaced.saved_mem, effectOf_unapproved hstatus]
      rw [hid, hafter, effect_of_mem hk h.mem, effectOf_open hreplaced.unended]
    · exact hkept.effect id fun heq => hid (Option.some.inj heq).symm
  · rcases hreplaced.cases hk.requests hr' with ⟨hold, -⟩ | rfl
    · exact hold
    · exact absurd happroved hstatus

theorem Quiet.kept (hk : Keys db) (hh : Held db) (h : Quiet desk db db') : Kept db db' none := by
  have hk' := hk.quiet h
  cases h with
  | initialized => exact .of_same rfl rfl
  | remembered => exact .of_same rfl rfl
  | recorded => exact .of_same rfl rfl
  | expired r saved now hexpired => exact hexpired.kept hk hk' hh
  | created r selected hcreated =>
    have hfresh := hcreated.fresh
    obtain ⟨hstatus, hopen, -⟩ := hcreated.blank
    obtain ⟨ev, -, -, -, -, rfl⟩ := hcreated.log.event
    refine ⟨fun r' hr' => ⟨r', List.mem_append_left _ hr', rfl, rfl⟩, fun r' hr' _ => List.mem_append_left _ hr',
      fun id _ => ?_, fun r' hr' happroved _ => ?_⟩
    · by_cases hrow : ∃ r' ∈ db.requests, r'.id = id
      · obtain ⟨r', hr', rfl⟩ := hrow
        rw [effect_of_mem hk hr', effect_of_mem hk' (List.mem_append_left _ hr')]
        rfl
      · rw [effect_of_none fun r' hr' hid => hrow ⟨r', hr', hid⟩]
        by_cases hid : r.id = id
        · rw [← hid, effect_of_mem hk' (List.mem_append_right _ (List.mem_singleton_self r)), effectOf_open hopen]
        · refine effect_of_none fun r' hr' hsame => ?_
          rcases List.mem_append.mp hr' with hold | hnew
          · exact hrow ⟨r', hold, hsame⟩
          · exact hid (List.mem_singleton.mp hnew ▸ hsame)
    · rcases List.mem_append.mp hr' with hold | hnew
      · exact hold
      · rw [List.mem_singleton.mp hnew, hstatus] at happroved
        cases happroved

theorem Outside.kept (h : Outside desk db db') : Kept db db' none := by
  cases h <;> exact .of_same rfl rfl

/-! ## What a mutation does to the wallet -/

/-- A reservation and a settlement of an operation refund nothing. -/
theorem reserve_refunds {pf : Platform} {reservation : Reservation} {draw : Wallet.Draw}
    (h : Wallet.reserve pf subjects w reservation draw = .ok (o, w')) :
    ∀ e ∈ w'.entries, e.transactionType = .refund → e ∈ w.entries := by
  obtain ⟨kind, c, -, -, -, ⟨rfl, -⟩ | ⟨-, -, -, ⟨e, hpost⟩, -⟩⟩ := reserve_ok h
  · exact fun e he _ => he
  · have hentries := posting_entries hpost (show ("booking_hold" : String) ≠ "refund" by decide)
    exact hentries

theorem settle_refunds {pf : Platform} {id : Uuid} {capture : Bool} {actor role : String} {draw : Wallet.Draw}
    (h : Wallet.settle pf subjects w id capture actor role draw = .ok (o, w')) :
    ∀ e ∈ w'.entries, e.transactionType = .refund → e ∈ w.entries := by
  obtain ⟨current, -, -, -, -, ⟨rfl, -⟩ | ⟨-, e, hpost⟩⟩ := Wallet.settle_ok h
  · exact fun e he _ => he
  · have htype : (if capture then "booking_confirm" else "hold_release") ≠ "refund" := by cases capture <;> decide
    exact posting_entries hpost htype

/-- The tables in order, the money behind the tickets, and every refund made by an ended request. -/
structure Accounted (db : Db) : Prop where
  solvent : Solvent db
  refunds : Refunds db

/-- What a change of a request comes to: its account gains an amount, and it refunds only as it ends. -/
structure Reckoned (r : Request) (amount : Int) (ended : Prop) (w w' : WalletDb) : Prop where
  worth : ∀ account, worth account w' = Wallet.worth account w + if account = r.walletAccountId then amount else 0
  refunds : ∀ e ∈ w'.entries, e.transactionType = .refund →
    e ∈ w.entries ∨ (ended ∧ ∃ operation, e.idempotencyKey = refundKey r.id operation)

theorem Reckoned.unchanged {ended : Prop} (hworth : ∀ account, Wallet.worth account w' = Wallet.worth account w)
    (hrefunds : ∀ e ∈ w'.entries, e.transactionType = .refund → e ∈ w.entries) : Reckoned r 0 ended w w' where
  worth account := by
    rw [hworth account]
    split <;> omega
  refunds e he hrefund := .inl (hrefunds e he hrefund)

theorem Paid.reckoned {ended : Prop} (hended : ended) (hdb : Accounted db) (hr : r ∈ db.requests)
    (hopen : r.terminalOutcome = Option.none) (hvalid : Validated db r row.data) (h : Paid desk db actor r row draw w) :
    Reckoned r (row.data.credit - row.data.debit) ended db.wallet w := by
  have hk := hdb.solvent.tidy.keys
  cases h with
  | debit o o' hholding hsettle =>
    refine ⟨fun account => ?_, fun e he hrefund => .inl (settle_refunds hsettle e he hrefund)⟩
    have hcredit : row.data.credit = 0 := if_neg (by rw [hholding.direction]; decide)
    have hdebit : row.data.debit = row.data.customerAmountMinor := if_pos hholding.direction
    rw [settle_worth hk.wallet.toSound hholding.mem hholding.reserved hsettle account, hcredit, hdebit,
      hholding.account, hholding.amount]
    simp only [true_and]
    split <;> omega
  | credit cs entries hdirection hhold hcredits hpost =>
    have hcredit : row.data.credit = row.data.customerAmountMinor := if_pos hdirection
    have hdebit : row.data.debit = 0 := if_neg (by rw [hdirection]; decide)
    have hselected : ∀ e ∈ selections db r, Backing e := fun e he =>
      hdb.solvent.funded.backing e (mem_selections.mp he).1
    obtain ⟨hnonneg, hcovers⟩ := hvalid.credit_le hdirection
    obtain ⟨cs', hcs', hdistributed⟩ := credits_distributed hselected hnonneg hcovers
    obtain ⟨rfl, -⟩ := Prod.mk.inj (Except.ok.inj (hcs'.symm.trans hcredits))
    have hfresh : ∀ e ∈ db.wallet.entries, e.transactionType = .refund →
        ∀ operation, e.idempotencyKey ≠ refundKey r.id operation := by
      intro e he hrefund operation hkey
      obtain ⟨r', hr', hended', operation', hkey'⟩ := hdb.refunds e he hrefund
      -- only an ended request has refunded, and this one is open
      obtain rfl := hk.requests.eq_of_key hr' hr (refundKey_inj (hkey'.symm.trans hkey)).1
      exact hended' hopen
    obtain ⟨hentries, hworth⟩ := postCredits_worth hdistributed.keys hfresh hpost
    refine ⟨fun account => ?_, fun e he _ => (hentries e he).imp_right fun hkey => ⟨hended, hkey⟩⟩
    rw [hworth account, hdistributed.total, hcredit, hdebit, Int.sub_zero]
  | none hdirection hhold hwallet =>
    have hcredit : row.data.credit = 0 := if_neg (by rw [hdirection]; decide)
    have hdebit : row.data.debit = 0 := if_neg (by rw [hdirection]; decide)
    rw [hcredit, hdebit, hwallet]
    exact .unchanged (fun _ => rfl) fun e he _ => he

/-- A mutation gives the account of its request what the request comes to by it. -/
theorem Turned.reckoned (hdb : Accounted db) (h : Turned desk db actor r input draw saved db') :
    Reckoned r (effectOf db' saved) (saved.terminalOutcome ≠ none) db.wallet db'.wallet := by
  have hk := hdb.solvent.tidy.keys
  have hk' := hk.turned h
  have hb := hdb.solvent.tidy.held.backed r h.mem
  obtain ⟨db₁, r₁, hturn, hsaved, -, -, hwallet, -, hquotes⟩ := h.tables
  rw [hwallet]
  cases hturn with
  | moved status outcome hbefore hafter hopen =>
    rw [effectOf_unapproved (hsaved ▸ hafter)]
    exact .unchanged (fun _ => rfl) fun e he _ => he
  | published | confirmed | assigned | reopened =>
    -- the request stays open, and its money stays where it is
    rw [effectOf_open (hsaved ▸ h.unended)]
    exact .unchanged (fun _ => rfl) fun e he _ => he
  | held row note o wallet hinput hrole hoffered hdirection hreserve =>
    rw [effectOf_open (hsaved ▸ h.unended)]
    exact .unchanged (reserve_worth hreserve) (reserve_refunds hreserve)
  | released row o o' wallet hstatus hholding hsettle =>
    -- the hold of the quote that is replaced goes back to the same account
    rw [effectOf_open (hsaved ▸ h.unended)]
    refine .unchanged (fun account => ?_) (settle_refunds hsettle)
    rw [settle_worth hk.wallet.toSound hholding.mem hholding.reserved hsettle account]
    simp only [Bool.false_eq_true, false_and, if_false, Int.sub_zero]
  | settled row wallet rows added hsettling hpaid hrewritten =>
    obtain ⟨row', hrow', hid, -, hvalid⟩ := hb.active row.id hsettling.active
    obtain rfl := hk.quotes.eq_of_key hrow' hsettling.mem hid
    have heffect : effectOf db' saved = row'.data.credit - row'.data.debit := by
      have happroved : saved.approvedQuoteId = some row'.id := by
        rw [hsaved]
        exact hsettling.approved
      have hstatus : saved.status = .approved ∧ saved.terminalOutcome ≠ none := by
        rw [hsaved]
        exact ⟨hsettling.status, fun hnone => nomatch hnone⟩
      unfold effectOf
      rw [if_pos hstatus, happroved, quote_of_mem hk' (hquotes ▸ hrow')]
      rfl
    have hended : saved.terminalOutcome ≠ none := by
      rw [hsaved]
      exact fun hnone => nomatch hnone
    rw [heffect]
    exact hpaid.reckoned hended hdb h.mem h.unended (hvalid h.unended)

/-! ## What a mutation does to the stage of its request -/

/-- A request is settled from the stage and by the actor that `settle` asks for. -/
theorem Turned.settling (h : Turned desk db actor r input draw saved db') (hstatus : saved.status = .approved)
    (hended : saved.terminalOutcome ≠ none) : ∃ row, Settling db actor r row := by
  obtain ⟨db₁, r₁, hturn, hsaved, -⟩ := h.tables
  rw [hsaved] at hstatus hended
  cases hturn with
  | moved status outcome hbefore hafter => exact absurd hstatus hafter
  | published | confirmed | held | assigned | reopened | released => exact absurd h.unended hended
  | settled row wallet rows added hsettling => exact ⟨row, hsettling⟩

/-- The approval of a quote is kept, or is the decision of a customer. -/
theorem Turned.confirming {quote : Uuid} (h : Turned desk db actor r input draw saved db')
    (hstatus : saved.status = .approved) (happroved : saved.approvedQuoteId = some quote) :
    (r.status = .approved ∧ r.approvedQuoteId = some quote) ∨
      ∃ note, input = .customerDecision quote true note ∧ actor.role ∈ customers := by
  obtain ⟨db₁, r₁, hturn, hsaved, -⟩ := h.tables
  rw [hsaved] at hstatus happroved
  cases hturn with
  | moved status outcome hbefore hafter => exact absurd hstatus hafter
  | published | reopened | released => cases hstatus
  | confirmed row note hinput hrole =>
    obtain rfl := Option.some.inj happroved
    exact .inr ⟨note, hinput, hrole⟩
  | held row note o wallet hinput hrole =>
    obtain rfl := Option.some.inj happroved
    exact .inr ⟨note, hinput, hrole⟩
  | assigned assignee role hbefore => exact .inl ⟨hbefore, happroved⟩
  | settled row wallet rows added hsettling => exact .inl ⟨hsettling.status, happroved⟩

/-! ## Commands -/

theorem Refunds.of_kept {changed : Option Uuid} (h : Refunds db) (hkept : Kept db db' changed)
    (hentries : ∀ e ∈ db'.wallet.entries, e.transactionType = .refund → e ∈ db.wallet.entries) : Refunds db' := by
  intro e he hrefund
  obtain ⟨r, hr, hended, hkey⟩ := h e (hentries e he hrefund) hrefund
  exact ⟨r, hkept.ended r hr hended, hended, hkey⟩

theorem Turned.kept (h : Solvent db) (hturned : Turned desk db actor r input draw saved db') :
    Kept db db' (some r.id) := by
  have hk := h.tidy.keys
  refine hturned.replaced.kept hk (hk.turned hturned) h.tidy.held fun q hq => ?_
  obtain ⟨db₁, r₁, hturn, -, -, -, -, -, hquotes⟩ := hturned.tables
  rw [hquotes]
  cases hturn with
  | published => exact List.mem_append_left _ hq
  | moved | confirmed | held | assigned | reopened | released | settled => exact hq

namespace Accounted

theorem quiet (h : Accounted db) (hquiet : Quiet desk db db') : Accounted db' where
  solvent := h.solvent.quiet hquiet
  refunds := by
    refine h.refunds.of_kept (hquiet.kept h.solvent.tidy.keys h.solvent.tidy.held) fun e he _ => ?_
    rw [hquiet.same.1] at he
    exact he

theorem turned (h : Accounted db) (hturned : Turned desk db actor r input draw saved db') : Accounted db' := by
  have hreplaced := hturned.replaced
  refine ⟨h.solvent.turned hturned, fun e he hrefund => ?_⟩
  rcases (hturned.reckoned h).refunds e he hrefund with hold | ⟨hended, operation, hkey⟩
  · obtain ⟨r', hr', hended, hkey⟩ := h.refunds e hold hrefund
    exact ⟨r', (hturned.kept h.solvent).ended r' hr' hended, hended, hkey⟩
  · exact ⟨saved, hreplaced.saved_mem, hended, operation, hreplaced.id ▸ hkey⟩

theorem outside (h : Accounted db) (houtside : Outside desk db db') : Accounted db' where
  solvent := h.solvent.outside houtside
  refunds := h.refunds.of_kept houtside.kept (houtside.apart h.solvent.tidy.keys).entries

theorem calm (h : Accounted db) (hcalm : Calm desk db db') : Accounted db' ∧ Kept db db' none := by
  induction hcalm with
  | refl => exact ⟨h, .of_same rfl rfl⟩
  | tail _ hstep ih =>
    obtain ⟨hmid, hkept⟩ := ih
    exact ⟨hmid.quiet hstep, hkept.trans (hstep.kept hmid.solvent.tidy.keys hmid.solvent.tidy.held)⟩

end Accounted

/-! ## One transaction -/

/-- The transition mutates the request of an id. -/
def About (id : Uuid) (tr : Transition Db Command) : Prop := ∃ m ∈ tr.label.mutation, m.2.1 = id

instance (id : Uuid) (tr : Transition Db Command) : Decidable (About id tr) := by
  unfold About
  infer_instance

/-- What a transition about a request does to the worth of an account. -/
def changeOf (id account : Uuid) (tr : Transition Db Command) : Int :=
  if About id tr then worth account tr.after.wallet - worth account tr.before.wallet else 0

/-- A customer confirms a quote of a request. -/
def Confirms (id quote : Uuid) (tr : Transition Db Command) : Prop :=
  ∃ actor note, tr.label.mutation = some (actor, id, .customerDecision quote true note) ∧ actor.role ∈ customers

/-- A request that is open before the transition is settled after it. -/
def SettledIn (id : Uuid) (tr : Transition Db Command) : Prop :=
  (∃ r ∈ tr.before.requests, r.id = id ∧ r.terminalOutcome = none) ∧
    ∃ r ∈ tr.after.requests, r.id = id ∧ r.status = .approved ∧ r.terminalOutcome ≠ none

instance (id : Uuid) (tr : Transition Db Command) : Decidable (SettledIn id tr) :=
  inferInstanceAs (Decidable ((∃ r ∈ tr.before.requests, r.id = id ∧ r.terminalOutcome = none) ∧
    ∃ r ∈ tr.after.requests, r.id = id ∧ r.status = .approved ∧ r.terminalOutcome ≠ none))

/-- The mutation that settles a request. -/
structure SettledBy (r : Request) (tr : Transition Db Command) (quote : Uuid) : Prop where
  actor : ∃ actor input, tr.label.mutation = some (actor, r.id, input) ∧
    Settles actor.role actor.externalUserId r.assigneeUserId
  status : r.status = .approved
  approved : r.approvedQuoteId = some quote
  active : r.activeQuoteId = some quote

/-- What a transaction does to the requests and to the money of their customers. -/
structure Stepped (tr : Transition Db Command) : Prop where
  accounts : ∀ r ∈ tr.before.requests, ∃ r' ∈ tr.after.requests, r'.id = r.id ∧ r'.walletAccountId = r.walletAccountId
  ended : ∀ r ∈ tr.before.requests, r.terminalOutcome ≠ none → r ∈ tr.after.requests
  net : ∀ id account, (∀ r ∈ tr.after.requests, r.id = id → r.walletAccountId = account) →
    effect tr.after id = effect tr.before id + changeOf id account tr
  confirmed : ∀ r' ∈ tr.after.requests, r'.status = .approved → ∀ quote, r'.approvedQuoteId = some quote →
    (∃ r ∈ tr.before.requests, r.id = r'.id ∧ r.status = .approved ∧ r.approvedQuoteId = some quote) ∨
      Confirms r'.id quote tr
  settled : ∀ r ∈ tr.before.requests, r.terminalOutcome = none → ∀ r' ∈ tr.after.requests, r'.id = r.id →
    r'.status = .approved → r'.terminalOutcome ≠ none → ∃ quote, SettledBy r tr quote

/-- A transaction that keeps the requests and the wallet. -/
theorem Stepped.of_kept {tr : Transition Db Command} (hk : Keys tr.before) (h : Kept tr.before tr.after none)
    (hchange : ∀ id account, changeOf id account tr = 0) : Stepped tr where
  accounts := h.accounts
  ended := h.ended
  net id account _ := by rw [h.effect id (by simp), hchange id account, Int.add_zero]
  confirmed r' hr' hstatus quote happroved :=
    .inl ⟨r', h.approved r' hr' hstatus (by simp), rfl, hstatus, happroved⟩
  settled r hr hopen r' hr' hid hstatus hended := by
    obtain rfl := hk.requests.eq_of_key (h.approved r' hr' hstatus (by simp)) hr hid
    exact absurd hopen hended

theorem changeOf_same {id account : Uuid} {tr : Transition Db Command} (h : tr.after.wallet = tr.before.wallet) :
    changeOf id account tr = 0 := by
  unfold changeOf
  rw [h, Int.sub_self, ite_self]

/-- A transaction that mutates a request, between changes that leave the wallet as it is. -/
theorem Stepped.turned {command : Command} {db₂ : Db} (hdb : Accounted db)
    (hmutation : command.mutation = some (actor, r.id, input)) (hbefore : Calm desk db db₁)
    (hturned : Turned desk db₁ actor r input draw saved db₂) (hafter : Calm desk db₂ db') :
    Stepped ⟨db, command, db'⟩ := by
  obtain ⟨hdb₁, hkept₁⟩ := hdb.calm hbefore
  obtain ⟨hdb', hkept₂⟩ := (hdb₁.turned hturned).calm hafter
  have hkept := hturned.kept hdb₁.solvent
  have hreplaced := hturned.replaced
  have hk := hdb.solvent.tidy.keys
  have hk₂ := (hdb₁.turned hturned).solvent.tidy.keys
  -- what is approved at the end was so before the last changes
  have hlast : ∀ r' ∈ db'.requests, r'.status = .approved → r' ∈ db₂.requests :=
    fun r' hr' hstatus => hkept₂.approved r' hr' hstatus (by simp)
  have hother : ∀ r' ∈ db₂.requests, r'.status = .approved → r'.id ≠ r.id → r' ∈ db.requests := by
    intro r' hr' hstatus hne
    have hmiddle := hkept.approved r' hr' hstatus fun hid => hne (Option.some.inj hid).symm
    exact hkept₁.approved r' hmiddle hstatus (by simp)
  have hsaved : ∀ r' ∈ db₂.requests, r'.id = r.id → r' = saved := fun r' hr' hid =>
    hk₂.requests.eq_of_key hr' hreplaced.saved_mem (hid.trans hreplaced.id.symm)
  constructor
  case accounts =>
    intro r' hr'
    obtain ⟨a, ha, hid, haccount⟩ := hkept₁.accounts r' hr'
    obtain ⟨b, hb, hid', haccount'⟩ := hkept.accounts a ha
    obtain ⟨c, hc, hid'', haccount''⟩ := hkept₂.accounts b hb
    exact ⟨c, hc, hid''.trans (hid'.trans hid), haccount''.trans (haccount'.trans haccount)⟩
  case ended =>
    exact fun r' hr' hended => hkept₂.ended r' (hkept.ended r' (hkept₁.ended r' hr' hended) hended) hended
  case net =>
    intro id account haccount
    show effect db' id = effect db id + _
    -- the changes around the mutation leave every effect as it is
    rw [hkept₂.effect id (by simp), ← hkept₁.effect id (by simp)]
    by_cases hid : id = r.id
    · subst hid
      have habout : About r.id ⟨db, command, db'⟩ := ⟨_, hmutation, rfl⟩
      obtain ⟨r', hr', hid', haccount'⟩ := hkept₂.accounts saved hreplaced.saved_mem
      have hsame : account = r.walletAccountId := by
        rw [← haccount r' hr' (hid'.trans hreplaced.id), haccount', hreplaced.account]
      have hworth := (hturned.reckoned hdb₁).worth account
      rw [if_pos hsame, hbefore.same.1, ← hafter.same.1] at hworth
      -- the request comes from nothing, being open, to what it is worth when it is saved
      have hstart : effect db₁ r.id = 0 := by
        rw [effect_of_mem hdb₁.solvent.tidy.keys hturned.mem, effectOf_open hturned.unended]
      have hend : effect db₂ r.id = effectOf db₂ saved := by
        rw [← hreplaced.id]
        exact effect_of_mem hk₂ hreplaced.saved_mem
      have hchange : changeOf r.id account ⟨db, command, db'⟩ = worth account db'.wallet - worth account db.wallet :=
        if_pos habout
      rw [hstart, hend, hchange]
      omega
    · have hnot : ¬ About id ⟨db, command, db'⟩ := by
        rintro ⟨m, hm, hsame⟩
        obtain rfl := Option.some.inj (hmutation.symm.trans hm)
        exact hid hsame.symm
      have hchange : changeOf id account ⟨db, command, db'⟩ = 0 := if_neg hnot
      rw [hkept.effect id fun heq => hid (Option.some.inj heq).symm, hchange, Int.add_zero]
  case confirmed =>
    intro r' hr' hstatus quote happroved
    have hr₂ := hlast r' hr' hstatus
    by_cases hid : r'.id = r.id
    · obtain rfl := hsaved r' hr₂ hid
      rcases hturned.confirming hstatus happroved with ⟨hstatus', happroved'⟩ | ⟨note, rfl, hrole⟩
      · exact .inl ⟨r, hkept₁.approved r hturned.mem hstatus' (by simp), hid.symm, hstatus', happroved'⟩
      · exact .inr ⟨actor, note, hid ▸ hmutation, hrole⟩
    · exact .inl ⟨r', hother r' hr₂ hstatus hid, rfl, hstatus, happroved⟩
  case settled =>
    intro r₀ hr₀ hopen r' hr' hid hstatus hended
    have hr₂ := hlast r' hr' hstatus
    by_cases hself : r'.id = r.id
    · obtain rfl := hsaved r' hr₂ hself
      obtain ⟨row, hsettling⟩ := hturned.settling hstatus hended
      have hmem := hkept₁.approved r hturned.mem hsettling.status (by simp)
      obtain rfl := hk.requests.eq_of_key hmem hr₀ (hself.symm.trans hid)
      exact ⟨row.id, ⟨actor, input, hmutation, hsettling.actor⟩, hsettling.status, hsettling.approved, hsettling.active⟩
    · obtain rfl := hk.requests.eq_of_key (hother r' hr₂ hstatus hself) hr₀ hid
      exact absurd hopen hended

theorem stepped {command : Command} (hdb : Accounted db) (h : (machine desk).step db command db') :
    Stepped ⟨db, command, db'⟩ ∧ Accounted db' := by
  have hk := hdb.solvent.tidy.keys
  rcases h with hstep | ⟨-, rfl⟩
  · cases step_ok hk.requests hk.quotes hstep with
    | calm hcalm =>
      obtain ⟨hdb', hkept⟩ := hdb.calm hcalm
      exact ⟨.of_kept hk hkept fun _ _ => changeOf_same hcalm.same.1, hdb'⟩
    | turned hmutation hbefore hturned hafter =>
      exact ⟨.turned hdb hmutation hbefore hturned hafter, ((hdb.calm hbefore).1.turned hturned |>.calm hafter).1⟩
    | outside hmutation houtside haccounts =>
      refine ⟨.of_kept hk houtside.kept fun id account => if_neg ?_, hdb.outside houtside⟩
      rintro ⟨m, hm, -⟩
      rw [hmutation] at hm
      cases hm
  · exact ⟨.of_kept hk (.of_same rfl rfl) fun _ _ => changeOf_same rfl, hdb⟩

/-- Only a mutation of a request and the wallet calls of other modules change what an account is worth. -/
theorem worth_kept {command : Command} (hdb : Accounted db) (h : (machine desk).step db command db')
    (hmutation : command.mutation = none) (hcall : ∀ call, command ≠ .wallet call) (account : Uuid) :
    worth account db'.wallet = worth account db.wallet := by
  have hk := hdb.solvent.tidy.keys
  rcases h with hstep | ⟨-, rfl⟩
  · cases step_ok hk.requests hk.quotes hstep with
    | calm hcalm => rw [hcalm.same.1]
    | turned hsome =>
      rw [hmutation] at hsome
      cases hsome
    | outside _ _ haccounts =>
      rcases haccounts with ⟨call, heq⟩ | hsame
      · exact absurd heq (hcall call)
      · rw [worth, worth, hsame]
  · rfl

/-! ## Runs -/

/-- What a run has done to the requests and to the money of their customers. -/
structure Lived (desk : Desk) (t : List (Transition Db Command)) (db : Db) : Prop where
  /-- All that the mutations of a settled request did to the worth of its account is what its quote pays or takes. -/
  net : ∀ r ∈ db.requests, r.status = .approved → r.terminalOutcome ≠ none → ∃ row ∈ db.quotes,
    r.approvedQuoteId = some row.id ∧
      (t.map (changeOf r.id r.walletAccountId)).sum = row.data.credit - row.data.debit
  /-- Those of an open, a rejected and an expired request did nothing to it. -/
  unsettled : ∀ r ∈ db.requests, ¬ (r.status = .approved ∧ r.terminalOutcome ≠ none) →
    (t.map (changeOf r.id r.walletAccountId)).sum = 0
  /-- A transition that mutates no request and is no wallet call of another module leaves every account alone. -/
  quiet : ∀ tr ∈ t, tr.label.mutation = none → (∀ call, tr.label ≠ .wallet call) → ∀ account,
    worth account tr.after.wallet = worth account tr.before.wallet
  once : ∀ id, t.countP (fun tr => SettledIn id tr) ≤ 1
  ended : ∀ tr ∈ t, ∀ r ∈ tr.before.requests, r.terminalOutcome ≠ none → r ∈ db.requests
  failed : ∀ tr ∈ t, ∀ error, tr.before.step desk tr.label = .error error → tr.after = tr.before
  /-- A request is settled by an actor who may, from the quote that its customer confirmed before. -/
  settled : ∀ t₁ tr t₂, t = t₁ ++ tr :: t₂ → ∀ r ∈ tr.before.requests, r.terminalOutcome = none →
    ∀ r' ∈ tr.after.requests, r'.id = r.id → r'.status = .approved → r'.terminalOutcome ≠ none →
      ∃ quote, SettledBy r tr quote ∧ ∃ tr' ∈ t₁, Confirms r.id quote tr'

/-- What is carried along a run. -/
structure Living (t : List (Transition Db Command)) (db : Db) : Prop where
  accounted : Accounted db
  net : ∀ id account, (∀ r ∈ db.requests, r.id = id → r.walletAccountId = account) →
    (t.map (changeOf id account)).sum = effect db id
  once : ∀ id, t.countP (fun tr => SettledIn id tr) = 0 ∨ (t.countP (fun tr => SettledIn id tr) = 1 ∧
    ∃ r ∈ db.requests, r.id = id ∧ r.terminalOutcome ≠ none)
  ended : ∀ tr ∈ t, ∀ r ∈ tr.before.requests, r.terminalOutcome ≠ none → r ∈ db.requests
  confirmed : ∀ r ∈ db.requests, r.status = .approved → ∀ quote, r.approvedQuoteId = some quote →
    ∃ tr ∈ t, Confirms r.id quote tr

theorem Living.start (records : Records) : Living [] (.start records) where
  accounted := ⟨solvent_start records, fun _ he => nomatch he⟩
  net _ _ _ := rfl
  once _ := .inl rfl
  ended _ htr := nomatch htr
  confirmed _ hr := nomatch hr

theorem Living.step {t : List (Transition Db Command)} {command : Command} (h : Living t db)
    (hstep : (machine desk).step db command db') : Living (t ++ [⟨db, command, db'⟩]) db' := by
  obtain ⟨hstepped, haccounted⟩ := stepped h.accounted hstep
  have hk := h.accounted.solvent.tidy.keys
  constructor
  case accounted => exact haccounted
  case net =>
    intro id account haccount
    have hbefore : ∀ r ∈ db.requests, r.id = id → r.walletAccountId = account := by
      intro r hr hid
      obtain ⟨r', hr', hid', haccount'⟩ := hstepped.accounts r hr
      exact haccount'.symm.trans (haccount r' hr' (hid'.trans hid))
    -- the sum over the run before and the change of the last step
    have heffect : effect db' id = effect db id + _ := hstepped.net id account haccount
    rw [List.map_append, List.sum_append, h.net id account hbefore, heffect, List.map_singleton, List.sum_singleton]
  case once =>
    intro id
    rw [List.countP_append, List.countP_singleton]
    rcases h.once id with hzero | ⟨hone, r, hr, hid, hended⟩
    · by_cases hsettled : SettledIn id ⟨db, command, db'⟩
      · have hcount : (0 + if decide (SettledIn id ⟨db, command, db'⟩) = true then 1 else 0) = 1 := by
          rw [if_pos (decide_eq_true hsettled)]
        obtain ⟨-, r, hr, hid, -, hended⟩ := hsettled
        exact .inr ⟨by rw [hzero, hcount], r, hr, hid, hended⟩
      · exact .inl (by rw [hzero, if_neg (by simpa using hsettled)])
    · -- the request has ended, so it is not open before the transition
      have hnot : ¬ SettledIn id ⟨db, command, db'⟩ := by
        rintro ⟨⟨r', hr', hid', hopen⟩, -⟩
        obtain rfl := hk.requests.eq_of_key hr' hr (hid'.trans hid.symm)
        exact hended hopen
      exact .inr ⟨by rw [hone, if_neg (by simpa using hnot)], r, hstepped.ended r hr hended, hid, hended⟩
  case ended =>
    intro tr htr r hr hended
    rcases List.mem_append.mp htr with hold | hnew
    · exact hstepped.ended r (h.ended tr hold r hr hended) hended
    · obtain rfl := List.mem_singleton.mp hnew
      exact hstepped.ended r hr hended
  case confirmed =>
    intro r' hr' hstatus quote happroved
    rcases hstepped.confirmed r' hr' hstatus quote happroved with ⟨r, hr, hid, hstatus', happroved'⟩ | hconfirms
    · obtain ⟨tr, htr, hconfirms⟩ := h.confirmed r hr hstatus' quote happroved'
      exact ⟨tr, List.mem_append_left _ htr, hid ▸ hconfirms⟩
    · exact ⟨_, List.mem_append_right _ (List.mem_singleton_self _), hconfirms⟩

theorem Living.run {records : Records} {t : List (Transition Db Command)}
    (h : (machine desk).Run (.start records) t db) : Living t db := by
  generalize hstart : Db.start records = start at h
  induction h with
  | nil =>
    subst hstart
    exact .start records
  | snoc _ hstep ih => exact ih.step hstep

/-- Over the whole life of a request its customer's account gains what a settled credit pays, loses what a settled
debit takes, and is left alone otherwise; it is settled at most once, from a quote that a customer confirmed and by
an actor who may settle it, and an ended request never changes. -/
theorem requests_effect (desk : Desk) (records : Records) (t : List (Transition Db Command)) (db : Db)
    (h : (machine desk).Run (.start records) t db) : Lived desk t db := by
  have hliving := Living.run h
  have hk := hliving.accounted.solvent.tidy.keys
  have hnet : ∀ r ∈ db.requests, (t.map (changeOf r.id r.walletAccountId)).sum = effectOf db r := by
    intro r hr
    rw [← effect_of_mem hk hr]
    refine hliving.net r.id r.walletAccountId fun r' hr' hid => ?_
    rw [hk.requests.eq_of_key hr' hr hid]
  constructor
  case net =>
    intro r hr hstatus hended
    obtain ⟨row, hrow, happroved, -⟩ := (hliving.accounted.solvent.tidy.held.backed r hr).approved hstatus
    refine ⟨row, hrow, happroved, ?_⟩
    rw [hnet r hr, effectOf, if_pos ⟨hstatus, hended⟩, happroved, quote_of_mem hk hrow]
    rfl
  case unsettled => exact fun r hr hopen => (hnet r hr).trans (if_neg hopen)
  case quiet =>
    intro tr htr hmutation hcall account
    obtain ⟨⟨t', hbefore⟩, hstep⟩ := h.mem htr
    exact worth_kept (Living.run hbefore).accounted hstep hmutation hcall account
  case once =>
    intro id
    rcases hliving.once id with hzero | ⟨hone, -⟩ <;> omega
  case ended => exact hliving.ended
  case failed =>
    intro tr htr error herror
    rcases (h.mem htr).2 with hok | ⟨-, hsame⟩
    · rw [hok] at herror
      cases herror
    · exact hsame
  case settled =>
    rintro t₁ tr t₂ rfl r hr hopen r' hr' hid hstatus hended
    obtain ⟨s, hbefore, hrest⟩ := h.cut
    obtain rfl := hrest.first
    have hstep := (h.mem (List.mem_append_right t₁ List.mem_cons_self)).2
    have hearlier := Living.run hbefore
    obtain ⟨quote, hsettled⟩ := (stepped hearlier.accounted hstep).1.settled r hr hopen r' hr' hid hstatus hended
    exact ⟨quote, hsettled, hearlier.confirmed r hr hsettled.status quote hsettled.approved⟩

/-- The new ticket of the second passenger is issued. -/
def sampleReissue : List Command :=
  [.mutate sampleAdmin ⟨190, 4, 194, .completeReissue [⟨1101, "176-9", 3000⟩] none⟩ (sampleDraw 15)]

/-- The refund has paid its credit, and the reissue has taken its debit. -/
theorem requests_effect_settled : ∃ t db, (machine sampleDesk).Run (.start sampleRecords) t db ∧
    (db.requests.map fun r => (r.id, effectOf db r)) = [(90, 8500), (190, -3300)] ∧
    worth 3 db.wallet = 85200 ∧ Lived sampleDesk t db := by
  have hrun : (sampleRun (samplePaid ++ sampleRefund ++ sampleApproval ++ sampleReissue)).map (fun db =>
      ((db.requests.map fun r => (r.id, effectOf db r)), worth 3 db.wallet)) =
      .ok ([(90, 8500), (190, -3300)], 85200) := by decide +kernel
  obtain ⟨db, hdb, heq⟩ := map_eq_ok.mp hrun
  obtain ⟨heffects, hworth⟩ := Prod.mk.inj heq
  obtain ⟨t, hsteps⟩ := Machine.Run.foldlM (M := machine sampleDesk) (fun _ _ _ h => .inl h) (.nil _) hdb
  exact ⟨t, db, hsteps, heffects, hworth, requests_effect sampleDesk sampleRecords t db hsteps⟩

end ShaponTravels.Wallet.Tickets
