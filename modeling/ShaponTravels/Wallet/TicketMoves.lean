import Mathlib.Logic.Relation
import ShaponTravels.Wallet.TicketChanges

/-!
# TicketMoves — a command as a path of small changes

A command writes the first rows of a booking, expires quotes, creates a request or remembers a reply: these
leave the wallet as it is.  At most one of its changes is a mutation of a request, and it is the one that the
command names.
-/

namespace ShaponTravels.Wallet.Tickets

open Library
open Relation (ReflTransGen)
open Booking (Casing FlightBooking TicketIssue Reprice)
open TicketManagement (Action Entitlement InitialEntitlement Replay)
open Nonissuance (Actor)

variable {desk : Desk} {db db' db₁ db₂ : Db} {actor : Actor} {r saved : Request} {input : Mutation} {draw : Draw}
  {b : ChargedBooking}

/-! ## Charged bookings -/

/-- The booking that an operation charges: a manual issue is for its subject. -/
def chargedFor (o : WalletOperation) : Option Uuid :=
  if o.subjectKind = .manualIssue then some o.subjectId else o.bookingId

/-- A booking and the captured operation that paid for it. -/
structure Charged (wallet : WalletDb) (b : ChargedBooking) (w : WalletOperation) : Prop where
  mem : w ∈ wallet.operations
  operation : b.operationId = w.id
  captured : w.state = .captured
  amount : b.amount = w.amount
  account : b.walletAccountId = w.walletAccountId
  booking : chargedFor w = some b.id

theorem chargedFlight_ok {rs : Records} {wallet : WalletDb} {reference : String} {client : Option Uuid}
    {fb : FlightBooking} {t : TicketIssue} {p : Reprice} {w : WalletOperation} (hw : w ∈ wallet.operations)
    (h : chargedFlight rs wallet actor reference client fb t p w = some b) : Charged wallet b w := by
  unfold chargedFlight at h
  obtain ⟨o, -, h⟩ := Option.bind_eq_some_iff.mp h
  rw [Option.ite_none_right_eq_some] at h
  obtain ⟨⟨-, -, -, -, -, -, hkind, -, hbooking, hstate, -⟩, heq⟩ := h
  obtain rfl := Option.some.inj heq
  refine ⟨hw, rfl, hstate, rfl, rfl, ?_⟩
  -- a ticket issue is charged for the booking that its operation names
  rw [chargedFor, if_neg (by rw [hkind]; decide)]
  exact hbooking

theorem chargedImport_ok {rs : Records} {wallet : WalletDb} {reference : String} {client : Option Uuid}
    {i i' : ImportedBooking} {w w' : WalletOperation} {o : WalletOwner} {ag : Agency}
    (h : chargedImport rs wallet actor reference client i w ag = some (i', w', o))
    (hb : importBooking rs reference (i', w', o) = .ok b) : w' = w ∧ (w ∈ wallet.operations → Charged wallet b w) := by
  unfold chargedImport at h
  obtain ⟨o', -, h⟩ := Option.bind_eq_some_iff.mp h
  rw [Option.ite_none_right_eq_some] at h
  obtain ⟨⟨-, hkind, hsubject, hstate, hamount, -⟩, heq⟩ := h
  obtain ⟨rfl, rfl, rfl⟩ : i = i' ∧ w = w' ∧ o' = o := by simpa using heq
  simp only [importBooking, bind_eq_ok, pure_eq_ok] at hb
  obtain ⟨travellers, -, numbers, -, legs, -, issuedAt, -, rfl⟩ := hb
  refine ⟨rfl, fun hw => ⟨hw, rfl, hstate, hamount.symm, rfl, ?_⟩⟩
  -- the operation of an import has the import for its subject
  rw [chargedFor, if_pos hkind, hsubject]

theorem bookingScoped_ok {reference : String} {client : Option Uuid}
    (h : bookingScoped db actor reference client = .ok b) : ∃ w, Charged db.wallet b w := by
  simp only [bookingScoped, bind_eq_ok] at h
  obtain ⟨_, -, imported, himported, h⟩ := h
  split at h
  · cases h
  · rename_i found hfound
    simp only [bind_eq_ok, pure_eq_ok] at h
    obtain ⟨_, -, _, -, rfl⟩ := h
    have hmem : found ∈ chargedFlights db.records db.wallet actor reference client ++ imported := by
      rw [hfound]
      exact List.mem_singleton_self found
    rcases List.mem_append.mp hmem with hflight | himport
    · unfold chargedFlights at hflight
      simp only [List.mem_flatMap, List.mem_filterMap] at hflight
      obtain ⟨fb, -, t, -, p, -, w, hw, hflight⟩ := hflight
      exact ⟨w, chargedFlight_ok hw hflight⟩
    · obtain ⟨⟨i, w', o⟩, hin, hout⟩ := exists_input himported himport
      simp only [List.mem_flatMap, List.mem_filterMap] at hin
      obtain ⟨i₀, -, ag, -, w, hw, hcharged⟩ := hin
      exact ⟨w, (chargedImport_ok hcharged hout).2 hw⟩
  · cases h

/-! ## Creating -/

/-- A request that was made, with the rows that it selects and claims. -/
structure Created (db : Db) (r : Request) (selected : List Entitlement) (db' : Db) : Prop where
  fresh : ∀ r' ∈ db.requests, r'.id ≠ r.id
  alone : ∀ r' ∈ db.requests, ¬ (r'.bookingId = r.bookingId ∧ r'.action = r.action ∧ r'.terminalOutcome = none)
  blank : r.status = .requested ∧ r.terminalOutcome = none ∧ r.version = 1 ∧ r.activeQuoteId = none ∧
    r.approvedQuoteId = none ∧ r.holdOperationId = none
  chosen : ∀ e ∈ selected, e ∈ db.entitlements ∧ e.bookingId = r.bookingId ∧ e.state = .active
  distinct : (selected.map (·.id)).Nodup
  free : ∀ c ∈ db.claims, c.entitlementId ∉ selected.map (·.id)
  log : Logged { db with
    requests := db.requests ++ [r]
    selections := db.selections ++ selected.map fun e => ⟨r.id, e.id⟩
    claims := db.claims ++ selected.map fun e => ⟨e.id, r.id⟩ } r none db'

theorem selectEntitlements_ok {booking : Uuid} {indexes : List Nat} {selected : List Entitlement}
    (h : selectEntitlements db booking indexes = .ok selected) :
    ∀ e ∈ selected, e ∈ db.entitlements ∧ e.bookingId = booking ∧ e.state = .active := by
  intro e he
  obtain ⟨i, -, hi⟩ := exists_input h he
  have hfound := fetch_eq_ok.mp hi
  have hmem := List.mem_of_find?_eq_some hfound
  have hholds := List.find?_some hfound
  rw [Db.entitlementsOf, List.mem_filter, decide_eq_true_eq] at hmem
  rw [decide_eq_true_eq] at hholds
  exact ⟨hmem.1, hmem.2, hholds.2⟩

/-- The loop of the claims keeps their key. -/
theorem foldlM_insertClaim {request : Uuid} {selected : List Entitlement} {rows rows' : List Claim}
    (h : selected.foldlM (insertClaim request) rows = .ok rows') :
    rows' = rows ++ selected.map (fun e => ⟨e.id, request⟩) ∧ (selected.map (·.id)).Nodup ∧
      ∀ c ∈ rows, c.entitlementId ∉ selected.map (·.id) := by
  induction selected generalizing rows with
  | nil =>
    obtain rfl := pure_eq_ok.mp h
    exact ⟨by simp, List.nodup_nil, fun _ _ hmem => nomatch hmem⟩
  | cons e selected ih =>
    rw [List.foldlM_cons, bind_eq_ok] at h
    obtain ⟨rows₁, hfirst, hrest⟩ := h
    simp only [insertClaim, bind_eq_ok, ensure_eq_ok, exists_const, pure_eq_ok] at hfirst
    obtain ⟨hfree, rfl⟩ := hfirst
    obtain ⟨rfl, hnodup, hapart⟩ := ih hrest
    have hself : e.id ∉ selected.map (·.id) := hapart ⟨e.id, request⟩ (by simp)
    refine ⟨by simp, List.nodup_cons.mpr ⟨hself, hnodup⟩, fun c hc hmem => ?_⟩
    rcases List.mem_cons.mp hmem with hfirst | hlater
    · exact hfree c hc hfirst
    · exact hapart c (List.mem_append_left _ hc) hlater

/-! ## Quiet changes -/

/-- The changes that leave the wallet as it is. -/
inductive Quiet (desk : Desk) : Db → Db → Prop where
  | initialized {db : Db} (b : ChargedBooking) (w : WalletOperation) (draw : Draw) (added : List Entitlement)
      (hcharged : Charged db.wallet b w) (hinitialized : Initialized desk.cs db b draw added) :
      Quiet desk db { db with entitlements := db.entitlements ++ added }
  | created {db db' : Db} (r : Request) (selected : List Entitlement) (hcreated : Created db r selected db') :
      Quiet desk db db'
  | expired {db db' : Db} (r saved : Request) (now : Int) (hexpired : Expired db r now saved db') : Quiet desk db db'
  | remembered {db : Db} (rows : List Replay) : Quiet desk db { db with replays := rows }
  | recorded {db : Db} (records : Records) : Quiet desk db { db with records := records }

/-- A path of quiet changes. -/
abbrev Calm (desk : Desk) : Db → Db → Prop := ReflTransGen (Quiet desk)

theorem Logged.wallet {start : Option Status} (h : Logged db r start db') : db'.wallet = db.wallet := by
  obtain ⟨ev, -, -, -, -, rfl⟩ := h.event
  rfl

theorem Logged.quotes {start : Option Status} (h : Logged db r start db') : db'.quotes = db.quotes := by
  obtain ⟨ev, -, -, -, -, rfl⟩ := h.event
  rfl

theorem Logged.requests {start : Option Status} (h : Logged db r start db') : db'.requests = db.requests := by
  obtain ⟨ev, -, -, -, -, rfl⟩ := h.event
  rfl

theorem Expired.same {now : Int} (h : Expired db r now saved db') :
    db'.wallet = db.wallet ∧ db'.quotes = db.quotes := by
  obtain ⟨db₂, hsaved, hlog⟩ := h.change
  rw [hlog.wallet, hlog.quotes, hsaved.tables]
  exact ⟨rfl, rfl⟩

theorem Quiet.same (h : Quiet desk db db') : db'.wallet = db.wallet ∧ db'.quotes = db.quotes := by
  cases h with
  | initialized => exact ⟨rfl, rfl⟩
  | created r selected hcreated => exact ⟨hcreated.log.wallet, hcreated.log.quotes⟩
  | expired r saved now hexpired => exact hexpired.same
  | remembered => exact ⟨rfl, rfl⟩
  | recorded => exact ⟨rfl, rfl⟩

theorem Calm.same (h : Calm desk db db') : db'.wallet = db.wallet ∧ db'.quotes = db.quotes := by
  induction h with
  | refl => exact ⟨rfl, rfl⟩
  | tail _ hstep ih => exact ⟨hstep.same.1.trans ih.1, hstep.same.2.trans ih.2⟩

theorem initializeEntitlements_calm {w : WalletOperation} (hw : Charged db.wallet b w)
    (h : initializeEntitlements desk.cs db b draw = .ok db') :
    Calm desk db db' ∧ db'.requests = db.requests := by
  rcases initializeEntitlements_ok h with rfl | ⟨added, hadded, rfl⟩
  · exact ⟨.refl, rfl⟩
  · exact ⟨.single (.initialized b w draw added hw hadded), rfl⟩

/-! ### Expiry -/

/-- The row that `save` leaves for a request. -/
theorem Saved.mem {previous : Status} {now : Int} (h : Saved db r previous now saved db') {old : Request}
    (hold : old ∈ db.requests) (hsame : r.columns old = r) : saved ∈ db'.requests := by
  rw [h.tables]
  have hid : old.id = r.id := by
    show (r.columns old).id = r.id
    rw [hsame]
  have hcolumns : saved.columns old = saved := by
    rw [h.row]
    -- what is not a column comes from the old row, which is that of the request
    show (r.columns old).advanced previous now = r.advanced previous now
    rw [hsame]
  have hmem : saved.columns old ∈ Library.modify Request.id r.id saved.columns db.requests := mem_modify_of_mem hold hid
  rw [hcolumns] at hmem
  exact hmem

theorem expire_calm {r' : Request} (hr : r ∈ db.requests) (h : expire db r draw = .ok (r', db')) :
    Calm desk db db' ∧ r' ∈ db'.requests ∧ r'.id = r.id ∧
      ∀ other ∈ db.requests, other.id ≠ r.id → other ∈ db'.requests := by
  rcases expire_ok hr h with ⟨rfl, rfl⟩ | hexpired
  · exact ⟨.refl, hr, rfl, fun other hother _ => hother⟩
  · obtain ⟨db₂, hsaved, hlog⟩ := hexpired.change
    refine ⟨.single (.expired r r' draw.now hexpired), ?_, by rw [hsaved.row]; rfl, fun other hother hne => ?_⟩
    · rw [hlog.requests]
      exact hsaved.mem hr rfl
    · rw [hlog.requests, hsaved.tables]
      exact mem_modify_of_ne hother hne

theorem expireAll_calm {rs : List Request} (hrs : ∀ r ∈ rs, r ∈ db.requests) (hids : (rs.map Request.id).Nodup)
    (h : rs.foldlM (fun db r => (expire db r draw).map Prod.snd) db = .ok db') : Calm desk db db' := by
  induction rs generalizing db with
  | nil =>
    obtain rfl := pure_eq_ok.mp h
    exact .refl
  | cons r rs ih =>
    rw [List.foldlM_cons, bind_eq_ok] at h
    obtain ⟨db₁, hfirst, hrest⟩ := h
    obtain ⟨⟨r', db₁⟩, hexpire, rfl⟩ := map_eq_ok.mp hfirst
    have hfound : r ∈ db.requests := hrs r List.mem_cons_self
    obtain ⟨hcalm, -, -, hothers⟩ : Calm desk db db₁ ∧ _ := expire_calm hfound hexpire
    obtain ⟨hapart, hids⟩ := List.nodup_cons.mp hids
    -- the requests that are still to come are other rows, and stay
    have hstay : ∀ other ∈ rs, other ∈ db₁.requests := fun other hother =>
      hothers other (hrs other (List.mem_cons_of_mem r hother)) fun hid =>
        hapart (hid ▸ List.mem_map_of_mem hother)
    exact hcalm.trans (ih hstay hids hrest)

theorem expireBooking_calm {booking : Uuid} (hkeys : KeyUnique Request.id db.requests)
    (h : expireBooking db booking draw = .ok db') : Calm desk db db' := by
  refine expireAll_calm (fun r hr => (List.mem_filter.mp hr).1) ?_ h
  exact hkeys.sublist (List.filter_sublist.map Request.id)

/-! ### Commands -/

theorem requestScoped_ok {id : Uuid} {client : Option Uuid} (h : requestScoped db actor draw id client = .ok (r, db')) :
    Calm desk db db' ∧ r ∈ db'.requests ∧ r.id = id := by
  simp only [requestScoped, bind_eq_ok, fetch_eq_ok] at h
  obtain ⟨found, hfound, o, -, _, -, hexpire⟩ := h
  obtain ⟨hcalm, hmem, hid, -⟩ := expire_calm (lookup_mem hfound) hexpire
  exact ⟨hcalm, hmem, hid.trans (lookup_key hfound)⟩

theorem readRequests_ok {client : Option Uuid} {ids : List Uuid}
    (h : readRequests db actor draw client ids = .ok db') : Calm desk db db' := by
  unfold readRequests at h
  induction ids generalizing db with
  | nil =>
    obtain rfl := pure_eq_ok.mp h
    exact .refl
  | cons id ids ih =>
    rw [List.foldlM_cons, bind_eq_ok] at h
    obtain ⟨db₁, hfirst, hrest⟩ := h
    obtain ⟨⟨r, db₁⟩, hscoped, rfl⟩ := map_eq_ok.mp hfirst
    exact (requestScoped_ok hscoped).1.trans (ih hrest)

theorem create_ok {n : NewRequest} {w : WalletOperation} {value : Value} (hkeys : KeyUnique Request.id db.requests)
    (hw : Charged db.wallet b w) (h : create desk.cs db actor b n draw = .ok (value, db')) : Calm desk db db' := by
  simp only [create, bind_eq_ok, ensure_eq_ok, exists_const, mapError_eq_ok, pure_eq_ok, Prod.mk.injEq] at h
  obtain ⟨_, -, -, db₁, hinitialize, db₂, hexpire, routes, -, _, -, _, -, selected, hselected, halone, hfree,
    snapshot, -, requests, hrequests, claims, hclaims, db₃, hevent, -, rfl⟩ := h
  obtain ⟨hcalm, hsame⟩ := initializeEntitlements_calm hw hinitialize
  have hcalm' := hcalm.trans (expireBooking_calm (hsame ▸ hkeys) hexpire)
  simp only [insertRequest, bind_eq_ok, ensure_eq_ok, exists_const, pure_eq_ok] at hrequests
  obtain ⟨hfresh, -, -, rfl⟩ := hrequests
  obtain ⟨rfl, hdistinct, -⟩ := foldlM_insertClaim hclaims
  exact hcalm'.tail (.created (n.row actor b snapshot draw) selected
    ⟨hfresh, halone, ⟨rfl, rfl, rfl, rfl, rfl, rfl⟩, selectEntitlements_ok hselected, hdistinct, hfree, event_ok hevent⟩)

theorem remember_ok {key request : Uuid} {hash : Digest} {done : Value × Db} {value : Value}
    (h : remember actor key request hash done = .ok (value, db')) : Calm desk done.2 db' := by
  simp only [remember, bind_eq_ok, pure_eq_ok, Prod.mk.injEq] at h
  obtain ⟨rows, -, -, rfl⟩ := h
  exact .single (.remembered rows)

/-- The actor, the request and the input of a command that mutates a request. -/
def Command.mutation : Command → Option (Actor × Uuid × Mutation)
  | .mutate actor c _ => some (actor, c.requestId, c.input)
  | .decide client own display c _ => some (clientActor client own display, c.requestId, c.mutation)
  | .create .. | .clientCreate .. | .read .. | .availability .. | .records .. | .wallet .. | .status .. => none

/-- What the other modules do to the wallet. -/
inductive Outside (desk : Desk) : Db → Db → Prop where
  | call {db : Db} (call : Call) (wallet : WalletDb) (hallowed : Elsewhere db.wallet call)
      (hrun : call.run desk.pf db.records.subjects db.wallet = .ok wallet) : Outside desk db { db with wallet := wallet }
  | status {db : Db} (owners : List WalletOwner) : Outside desk db { db with wallet := { db.wallet with owners := owners } }

/-- What a command comes to that commits. -/
inductive Moved (desk : Desk) (command : Command) (db : Db) : Db → Prop where
  | calm {db' : Db} (hcalm : Calm desk db db') : Moved desk command db db'
  | turned {db₁ db₂ db' : Db} {actor : Actor} {r saved : Request} {input : Mutation} {draw : Draw}
      (hmutation : command.mutation = some (actor, r.id, input)) (hbefore : Calm desk db db₁)
      (hturned : Turned desk db₁ actor r input draw saved db₂) (hafter : Calm desk db₂ db') : Moved desk command db db'
  | outside {db' : Db} (hmutation : command.mutation = none) (houtside : Outside desk db db')
      (haccounts : (∃ call, command = .wallet call) ∨ db'.wallet.accounts = db.wallet.accounts) :
      Moved desk command db db'

/-- A mutation that was found: a saved reply, or one change of its request. -/
theorem mutateFound_ok {command : Command} {found : Request × Db} {key : Uuid} {expected : Int} {hash : Digest}
    {value : Value} (hquotes : KeyUnique QuoteRow.id db.quotes) (hbefore : Calm desk db found.2)
    (hmem : found.1 ∈ found.2.requests) (hmutation : command.mutation = some (actor, found.1.id, input))
    (h : mutateFound desk actor draw found key expected hash input = .ok (value, db')) : Moved desk command db db' := by
  simp only [mutateFound, bind_eq_ok] at h
  obtain ⟨saved, -, h⟩ := h
  cases saved with
  | some saved =>
    obtain ⟨-, rfl⟩ := Prod.mk.inj (pure_eq_ok.mp h)
    exact .calm hbefore
  | none =>
    simp only [bind_eq_ok] at h
    obtain ⟨_, -, ⟨reply, db₂⟩, hmutate, hremember⟩ := h
    obtain ⟨saved, hturned⟩ := mutate_ok (hbefore.same.2 ▸ hquotes) hmem hmutate
    exact .turned hmutation hbefore hturned (remember_ok hremember)

theorem portalMutate_ok {c : MutateCommand} {value : Value} (hquotes : KeyUnique QuoteRow.id db.quotes)
    (h : portalMutate desk db actor draw c = .ok (value, db')) : Moved desk (.mutate actor c draw) db db' := by
  simp only [portalMutate, bind_eq_ok] at h
  obtain ⟨_, -, ⟨r, db₁⟩, hscoped, hfound⟩ := h
  obtain ⟨hcalm, hmem, hid⟩ := requestScoped_ok hscoped
  exact mutateFound_ok hquotes hcalm hmem (by simp only [Command.mutation, hid]) hfound

theorem clientDecision_ok {client : Uuid} {own : Owner} {display : Value} {c : DecisionCommand} {value : Value}
    (hquotes : KeyUnique QuoteRow.id db.quotes)
    (h : clientDecision desk db (clientActor client own display) draw client c = .ok (value, db')) :
    Moved desk (.decide client own display c draw) db db' := by
  simp only [clientDecision, bind_eq_ok] at h
  obtain ⟨_, -, ⟨r, db₁⟩, hscoped, hfound⟩ := h
  obtain ⟨hcalm, hmem, hid⟩ := requestScoped_ok hscoped
  exact mutateFound_ok hquotes hcalm hmem (by simp only [Command.mutation, hid]) hfound

theorem portalCreate_ok {c : TicketManagement.CreateCommand} {value : Value} (hkeys : KeyUnique Request.id db.requests)
    (h : portalCreate desk db actor draw c = .ok (value, db')) : Calm desk db db' := by
  simp only [portalCreate, bind_eq_ok] at h
  obtain ⟨_, -, saved, -, h⟩ := h
  cases saved with
  | some saved =>
    simp only [bind_eq_ok, pure_eq_ok, Prod.mk.injEq] at h
    obtain ⟨⟨r, db₁⟩, hscoped, -, rfl⟩ := h
    exact (requestScoped_ok hscoped).1
  | none =>
    simp only [bind_eq_ok] at h
    obtain ⟨b, hb, ⟨reply, db₁⟩, hcreate, hremember⟩ := h
    obtain ⟨w, hw⟩ := bookingScoped_ok hb
    exact (create_ok hkeys hw hcreate).trans (remember_ok hremember)

theorem clientCreate_ok {client : Uuid} {c : TicketManagement.CreateRequest} {value : Value}
    (hkeys : KeyUnique Request.id db.requests)
    (h : clientCreate desk db actor draw client c = .ok (value, db')) : Calm desk db db' := by
  simp only [clientCreate, bind_eq_ok] at h
  obtain ⟨input, -, saved, -, h⟩ := h
  cases saved with
  | some saved =>
    simp only [bind_eq_ok, pure_eq_ok, Prod.mk.injEq] at h
    obtain ⟨⟨r, db₁⟩, hscoped, -, rfl⟩ := h
    exact (requestScoped_ok hscoped).1
  | none =>
    simp only [bind_eq_ok] at h
    obtain ⟨_, -, _, -, b, hb, note, -, ⟨reply, db₁⟩, hcreate, hremember⟩ := h
    obtain ⟨w, hw⟩ := bookingScoped_ok hb
    exact (create_ok hkeys hw hcreate).trans (remember_ok hremember)

theorem availability_ok {reference : String} {client : Option Uuid} (hkeys : KeyUnique Request.id db.requests)
    (h : availability desk db actor draw reference client = .ok db') : Calm desk db db' := by
  simp only [availability, bind_eq_ok, pure_eq_ok] at h
  obtain ⟨b, hb, db₁, hinitialize, db₂, hexpire, routes, -, rfl⟩ := h
  obtain ⟨w, hw⟩ := bookingScoped_ok hb
  obtain ⟨hcalm, hsame⟩ := initializeEntitlements_calm hw hinitialize
  exact hcalm.trans (expireBooking_calm (hsame ▸ hkeys) hexpire)

theorem step_ok {command : Command} (hkeys : KeyUnique Request.id db.requests)
    (hquotes : KeyUnique QuoteRow.id db.quotes) (h : db.step desk command = .ok db') : Moved desk command db db' := by
  cases command with
  | create actor c draw =>
    obtain ⟨⟨value, db'⟩, hcreate, rfl⟩ := map_eq_ok.mp h
    exact .calm (portalCreate_ok hkeys hcreate)
  | mutate actor c draw =>
    obtain ⟨⟨value, db'⟩, hmutate, rfl⟩ := map_eq_ok.mp h
    exact portalMutate_ok hquotes hmutate
  | clientCreate client own display input draw =>
    obtain ⟨⟨value, db'⟩, hcreate, rfl⟩ := map_eq_ok.mp h
    exact .calm (clientCreate_ok hkeys hcreate)
  | decide client own display c draw =>
    obtain ⟨⟨value, db'⟩, hdecide, rfl⟩ := map_eq_ok.mp h
    exact clientDecision_ok hquotes hdecide
  | read actor client ids draw => exact .calm (readRequests_ok h)
  | availability actor reference client draw => exact .calm (availability_ok hkeys h)
  | records records =>
    obtain rfl := Except.ok.inj h
    exact .calm (.single (.recorded records))
  | wallet call =>
    simp only [Db.step, bind_eq_ok, ensure_eq_ok, exists_const, pure_eq_ok] at h
    obtain ⟨hallowed, wallet, hrun, rfl⟩ := h
    exact .outside rfl (.call call wallet hallowed hrun) (.inl ⟨call, rfl⟩)
  | status owner status =>
    obtain rfl := Except.ok.inj h
    exact .outside rfl (.status _) (.inr rfl)

/-! ## Invariants -/

/-- What holds initially and is kept by every change holds in every state. -/
theorem invariant {I : Db → Prop} (hstart : ∀ records, I (.start records))
    (hkeys : ∀ db, I db → KeyUnique Request.id db.requests ∧ KeyUnique QuoteRow.id db.quotes)
    (hquiet : ∀ db db', I db → Quiet desk db db' → I db')
    (hturned : ∀ db actor r input draw saved db', I db → Turned desk db actor r input draw saved db' → I db')
    (houtside : ∀ db db', I db → Outside desk db db' → I db') (h : (machine desk).Reachable db) : I db := by
  have hcalm : ∀ db db', I db → Calm desk db db' → I db' := by
    intro db db' hI hpath
    induction hpath with
    | refl => exact hI
    | tail _ hstep ih => exact hquiet _ _ ih hstep
  refine Machine.Reachable.invariant ?_ ?_ h
  · rintro db ⟨records, rfl⟩
    exact hstart records
  · intro db command db' hI hstep
    rcases hstep with hstep | ⟨-, rfl⟩
    · cases step_ok (hkeys db hI).1 (hkeys db hI).2 hstep with
      | calm hpath => exact hcalm _ _ hI hpath
      | turned _ hbefore hchange hafter =>
        exact hcalm _ _ (hturned _ _ _ _ _ _ _ (hcalm _ _ hI hbefore) hchange) hafter
      | outside _ hchange _ => exact houtside _ _ hI hchange
    · exact hI

end ShaponTravels.Wallet.Tickets
