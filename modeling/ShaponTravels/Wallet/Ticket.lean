import ShaponTravels.Booking.Site
import ShaponTravels.Pricing.BigDecimal
import ShaponTravels.Wallet.Core

/-!
# Ticket — the wallet side of a ticket issue

`wallet/ticket.rs`: what an issue reserves, and what saved evidence settles.
-/

namespace ShaponTravels.Wallet.Ticket

open Library
open Booking (Db TicketIssue FlightBooking Reprice)

/-! ## The payable of an accepted quote -/

/-- `accepted_payable`. -/
def acceptedPayable (snapshot : Option Value) (selling : Value) (currencyText : String) :
    Except ApiError Int := do
  let snapshot ← fetch snapshot (conflict "ACCEPTED_WALLET_PAYABLE_REQUIRED")
  let parse (key : String) : Except ApiError Int := do
    let text ← fetch (snapshot.field key).asStr? (invalid "INVALID_WALLET_PAYABLE")
    majorToMinor text
  let payable ← parse "payable"
  let discount ← fetch (snapshot.field "commission").asStr? (invalid "INVALID_WALLET_PAYABLE")
  let commission ←
    match discount.toList with
    | '-' :: value => do
      let minor ← majorToMinor (String.ofList value)
      fetch (i64? (-minor)) (invalid "INVALID_WALLET_PAYABLE")
    | _ => parse "commission"
  let gross ← parse "gross"
  let price := (selling.field "item1").field "totalPrice"
  ensure (snapshot.field "currency" = .str currencyText ∧ 0 < payable ∧
    i64? (payable + commission) = some gross) (conflict "ACCEPTED_WALLET_PAYABLE_MISMATCH")
  let sellingGross ← majorToMinor (price.asStr?.getD price.text)
  ensure (sellingGross = gross) (conflict "ACCEPTED_WALLET_PAYABLE_MISMATCH")
  let _ ← currency currencyText
  return payable

/-! ## Reserving -/

/-- `PortalIssue`: the context of an issue made in the portal. -/
structure PortalIssue where
  actor : String
  role : String
  account : Uuid
  amount : Int
  currency : String
  deriving DecidableEq

/-- The accepted price of a client's booking. -/
def acceptedPrice (db : Db) (booking client : Uuid) : Option Reprice := do
  let b ← db.bookings.find? fun b => b.id = booking ∧ b.clientId = client
  db.reprices.find? fun r =>
    r.id = b.priceId ∧ r.clientId = b.clientId ∧ r.acceptedAt.isSome

/-- The account of a client in a currency. -/
def clientAccount (db : WalletDb) (client : Uuid) (currencyText : String) : Option WalletAccount :=
  db.accounts.find? fun a => a.currency.text = currencyText ∧
    db.links.any fun l => l.clientId = client ∧ l.ownerId = a.ownerId

/-- What `ticket::reserve` asks `core::reserve` for. -/
def reservation (issue booking client : Uuid) (portal : Option PortalIssue) (operation : Uuid)
    (account : Uuid) (payable : Int) (currencyText : String) : Reservation where
  id := operation
  account := account
  kind := "ticket_issue"
  subject := issue
  booking := some booking
  amount := payable
  currency := currencyText
  actor := (portal.map PortalIssue.actor).getD client.text
  role := (portal.map PortalIssue.role).getD "client"

/-- `ticket::reserve`. -/
def reserve (pf : Platform) (db : Db) (issue booking client : Uuid) (portal : Option PortalIssue)
    (operation : Uuid) (draw : Draw) : Except ApiError Db := do
  let r ← fetch (acceptedPrice db booking client) (conflict "ACCEPTED_WALLET_PAYABLE_REQUIRED")
  let payable ← acceptedPayable r.tierPricing r.selling r.currency
  let a ← fetch (clientAccount db.wallet client r.currency) missing
  ensure (portal.all fun p => p.account = a.id && p.amount = payable && p.currency = r.currency)
    (conflict "ISSUE_PREVIEW_CHANGED")
  let (_, wallet) ← Wallet.reserve pf db.subjects db.wallet
    (reservation issue booking client portal operation a.id payable r.currency) draw
  return { db with wallet := wallet }

/-! ## Settling -/

/-- The operation of an issue. -/
def issueOperation (db : WalletDb) (issue : Uuid) : Option WalletOperation :=
  lookup (fun o : WalletOperation => (o.subjectKind, o.subjectId)) (.ticketIssue, issue)
    db.operations

/-- The issue ended with a ticket, or evidence was found later that it did. -/
def resolved (db : Db) (t : TicketIssue) : Bool :=
  t.state = .issued || db.verifications.any fun v => v.issueId = t.id

def contradiction (issue operation : Uuid) : AuditEvent where
  actorKind := "system"
  actorId := some "native-ticket-finalizer"
  action := "wallet.nonissuance.contradicted"
  resourceKind := "ticket_issue"
  resourceId := issue.text
  metadata := .object [("operationId", .str operation.text), ("requiresReconciliation", .bool true)]

/-- Whether the contradiction of an issue is on record. -/
def contradicted (db : WalletDb) (issue : Uuid) : Bool :=
  db.audit.any fun e => e.action = "wallet.nonissuance.contradicted" && e.resourceId = issue.text

/-- `INSERT INTO audit_events … WHERE NOT EXISTS`. -/
def recordContradiction (db : WalletDb) (issue operation : Uuid) : WalletDb :=
  if contradicted db issue then db
  else { db with audit := db.audit ++ [contradiction issue operation] }

/-- `ticket::finalize`. -/
def finalize (pf : Platform) (db : Db) (issue : Uuid) (draw : Draw) : Except ApiError Db := do
  let t ← fetch (lookup TicketIssue.id issue db.issues) (.ofDb .noRow)
  if ¬ t.walletRequired then return db
  else
    let o ← fetch (issueOperation db.wallet issue) missing
    if o.state = .released then
      -- a mistaken release is never turned into a debit: the contradiction is put on record
      if resolved db t then
        return { db with wallet := recordContradiction db.wallet issue o.id }
      else return db
    else if resolved db t then
      let (_, wallet) ← settle pf db.subjects db.wallet o.id true "native-ticket-finalizer"
        "system" draw
      return { db with wallet := wallet }
    else
      let _ ← lockAccount db.wallet o.walletAccountId
      return { db with wallet := markReconciliation db.wallet o.id }

/-! ## The trigger `ticket_wallet_integrity` -/

/-- The reservation of an issue is for its client, its booking and the payable of the snapshot:
an amount in minor units is a decimal of scale two. -/
def integrity (db : Db) (t : TicketIssue) : Bool :=
  !t.walletRequired ||
    (do
      let o ← issueOperation db.wallet t.id
      let a ← lookup WalletAccount.id o.walletAccountId db.wallet.accounts
      let l ← lookup ClientLink.clientId t.clientId db.wallet.links
      let b ← lookup FlightBooking.id t.bookingId db.bookings
      let r ← lookup Reprice.id b.priceId db.reprices
      let snapshot ← r.tierPricing
      let payable ← (snapshot.field "payable").asStr?.bind BigDecimal.parse
      guard (o.bookingId = some t.bookingId ∧ a.ownerId = l.ownerId ∧ a.currency = o.currency ∧
        snapshot.field "currency" = .str o.currency.text ∧ payable.cmp ⟨o.amount, 2⟩ = .eq) : Option Unit).isSome

end ShaponTravels.Wallet.Ticket
