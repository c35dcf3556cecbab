import ShaponTravels.Library.Outcome
import ShaponTravels.Library.Table
import ShaponTravels.Library.Transition
import ShaponTravels.Text
import ShaponTravels.TextLengths
import ShaponTravels.Json
import ShaponTravels.Errors
import ShaponTravels.Wallet.Money
import ShaponTravels.Wallet.Schema
import ShaponTravels.Wallet.Core
import ShaponTravels.Library.Journal
import ShaponTravels.Wallet.Posting
import ShaponTravels.Wallet.Invariant
import ShaponTravels.Wallet.Preservation
import ShaponTravels.Wallet.Ledger
import ShaponTravels.Wallet.History
import ShaponTravels.Wallet.Integrity
import ShaponTravels.Library.Pages
import ShaponTravels.Wallet.Statements
import ShaponTravels.Pricing.Rules
import ShaponTravels.Search.Context
import ShaponTravels.Library.KeyedScan
import ShaponTravels.Search.Selection
import ShaponTravels.Library.GroupMinimum
import ShaponTravels.Search.Conflicts
import ShaponTravels.Search.Winners
import ShaponTravels.Search.Best
import ShaponTravels.Library.Outbox
import ShaponTravels.Booking.Schema
import ShaponTravels.Booking.Site
import ShaponTravels.Booking.Evidence
import ShaponTravels.Booking.Reservation
import ShaponTravels.Wallet.Ticket
import ShaponTravels.Booking.Ticketing
import ShaponTravels.Booking.Cancellation
import ShaponTravels.Wallet.Nonissuance
import ShaponTravels.Booking.World
import ShaponTravels.Booking.Plan
import ShaponTravels.Wallet.Changes
import ShaponTravels.Booking.Transactions
import ShaponTravels.Booking.Refinement
import ShaponTravels.Booking.Progress
import ShaponTravels.Booking.Dispatch
import ShaponTravels.Booking.Holds
import ShaponTravels.Booking.Settlement
import ShaponTravels.Booking.Outcomes
import ShaponTravels.Booking.Replies
import ShaponTravels.Library.Watermark
import ShaponTravels.Library.Versions
import ShaponTravels.Booking.Lookups
import ShaponTravels.Booking.TicketEvidence
import ShaponTravels.Library.Tally
import ShaponTravels.Search.Controls
import ShaponTravels.Search.Budget
import ShaponTravels.Wallet.Workflows
import ShaponTravels.Wallet.Deposits
import ShaponTravels.Pricing.Arithmetic
import ShaponTravels.Pricing.Projection
import ShaponTravels.Pricing.Tier
import ShaponTravels.Pricing.RoundTrip
import ShaponTravels.Pricing.Resolution
import ShaponTravels.Pricing.Shares
import ShaponTravels.Pricing.Staff
import ShaponTravels.Pricing.Legacy
import ShaponTravels.Search.LegacyKey
import ShaponTravels.Booking.Passengers
import ShaponTravels.Booking.Responses
import ShaponTravels.Booking.Party
import ShaponTravels.Booking.Placement
import ShaponTravels.Booking.Tickets
import ShaponTravels.Library.Scatter
import ShaponTravels.Booking.Signals
import ShaponTravels.Booking.References
import ShaponTravels.Booking.Matching
import ShaponTravels.Booking.Encodings
import ShaponTravels.Library.Choices
import ShaponTravels.Booking.Binding
import ShaponTravels.Booking.Standing
import ShaponTravels.Booking.SoldPrices
import ShaponTravels.Booking.RepriceSelection
import ShaponTravels.Booking.Report
import ShaponTravels.Markup.Rules
import ShaponTravels.Markup.Quotes
import ShaponTravels.Markup.Changes
import ShaponTravels.Markup.History
import ShaponTravels.Markup.Runs
import ShaponTravels.Wallet.Entitlements
import ShaponTravels.Wallet.OwnTickets
import ShaponTravels.Library.Grouping
import ShaponTravels.Wallet.TicketQuotes
import ShaponTravels.Wallet.Reissues
import ShaponTravels.Wallet.Allocations
import ShaponTravels.Library.Apportion
import ShaponTravels.Library.Checked
import ShaponTravels.Wallet.ImportAllocations
import ShaponTravels.Wallet.Notifications
import ShaponTravels.Wallet.Deliveries
import ShaponTravels.Wallet.Resends
import ShaponTravels.Access.Clients
import ShaponTravels.Access.Tokens
import ShaponTravels.Imports.Portal
import ShaponTravels.Imports.Receipts
import ShaponTravels.Identity.Delivery
import ShaponTravels.Identity.Journals
import ShaponTravels.Identity.Statements
import ShaponTravels.Identity.Once
import ShaponTravels.Edits
import ShaponTravels.Library.Groups
import ShaponTravels.Wallet.Amounts
import ShaponTravels.Wallet.VoidWindow
import ShaponTravels.Imports.Itinerary
import ShaponTravels.Search.Response
import ShaponTravels.Search.Summary
import ShaponTravels.Wallet.ClientRequests
import ShaponTravels.Trimmed
import ShaponTravels.Passengers.Profile
import ShaponTravels.Passengers.Columns
import ShaponTravels.Passengers.Updates
import ShaponTravels.Identity.ProfileEdits
import ShaponTravels.Imports.Pricing
import ShaponTravels.Imports.Document
import ShaponTravels.Imports.Prepared
import ShaponTravels.Imports.Fares
import ShaponTravels.Imports.Gross
import ShaponTravels.Imports.Charging
import ShaponTravels.Identity.Applicants
import ShaponTravels.Identity.Members
import ShaponTravels.Identity.Slots
import ShaponTravels.Identity.Deeds
import ShaponTravels.Identity.Standing
import ShaponTravels.Identity.Containment
import ShaponTravels.Identity.Authority
import ShaponTravels.Identity.Grants
import ShaponTravels.Wallet.TicketRequests
import ShaponTravels.Wallet.TicketStore
import ShaponTravels.Wallet.TicketOrder
import ShaponTravels.Wallet.TicketFunding
import ShaponTravels.Wallet.TicketConserved
import ShaponTravels.Wallet.TicketEffects
import ShaponTravels.Wallet.TicketLives
import ShaponTravels.Wallet.TicketLog
