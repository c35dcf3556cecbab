import ShaponTravels.Wallet.Schema

/-!
# Schema — the tables behind a booking

The rows of migrations 0002 to 0033 that booking, ticketing, cancellation and their reviews read
or write.  Instants are microseconds.
-/

namespace ShaponTravels.Booking

open Wallet (WalletDb FinancialSubject)

/-! ## Who books, and what is sold -/

structure ApiClient where
  id : Uuid
  active : Bool
  audience : String
  agentId : Option Uuid
  permissions : List String
  externalUserId : Option String
  apiManagementEnabled : Bool
  tier : String
  deriving DecidableEq

/-- `portal_hold_drafts`. -/
structure HoldDraft where
  id : Uuid
  clientId : Uuid
  creatorExternalUserId : String
  ownerExternalUserId : String
  deriving DecidableEq

/-- The single row of `b2b_tier_policy`. -/
structure TierPolicy where
  basic : Int
  professional : Int
  enterprise : Int
  deriving DecidableEq

/-- `supplier_connections`. -/
structure SupplierConnection where
  id : String
  searchEnabled : Bool
  servicingEnabled : Bool
  bookingEnabled : Bool
  ticketingEnabled : Bool
  availabilityEpoch : Int
  timeoutSeconds : Int
  deriving DecidableEq

/-- `flight_searches`. -/
structure Search where
  id : Uuid
  request : Value
  expiresAt : Int
  deriving DecidableEq

/-- `flight_offers`. -/
structure Offer where
  id : Uuid
  clientId : Uuid
  searchId : Uuid
  supplierId : String
  availabilityEpoch : Int
  original : Value
  repriceRequired : Bool
  expiresAt : Int
  deriving DecidableEq

/-- `flight_reprices`; `tierPricing` is the snapshot of the payable. -/
structure Reprice where
  id : Uuid
  offerId : Uuid
  clientId : Uuid
  version : Int
  original : Value
  selling : Value
  referenceMap : Value
  audience : String
  agentId : Option Uuid
  currency : String
  tierPricing : Option Value
  acceptedAt : Option Int
  expiresAt : Int
  deriving DecidableEq

/-- What the trigger `identity_business_barrier` reads of the identities. -/
structure Identities where
  /-- the subjects that are being deleted or are deleted -/
  terminal : List String
  /-- `portal_staff_clients`: a subject and its client -/
  staffClients : List (String × Uuid)
  /-- the codes of the agencies and the subjects of their owners -/
  agencyOwners : List (String × String)
  deriving DecidableEq

/-! ## Bookings -/

/-- `flight_bookings.state`. -/
inductive BookingState where
  | pending
  | held
  | issued
  | outcomeUnknown
  | manuallyResolved
  deriving DecidableEq, Repr

def BookingState.text : BookingState → String
  | .pending => "pending"
  | .held => "held"
  | .issued => "issued"
  | .outcomeUnknown => "outcome_unknown"
  | .manuallyResolved => "manually_resolved"

/-- `flight_bookings.execution_mode`. -/
inductive ExecutionMode where
  | hold
  | direct
  deriving DecidableEq, Repr

def ExecutionMode.text : ExecutionMode → String
  | .hold => "hold"
  | .direct => "direct"

/-- `flight_bookings`. -/
structure FlightBooking where
  id : Uuid
  clientId : Uuid
  offerId : Uuid
  priceId : Uuid
  supplierId : String
  idempotencyKey : String
  requestHash : Digest
  request : Value
  state : BookingState
  executionMode : ExecutionMode
  originalResponse : Option Value
  publicResponse : Option Value
  pnr : Option String
  supplierBookingRef : Option String
  ticketingTimeLimit : Option String
  errorCode : Option String
  lastReconciliation : Option Value
  lastReconciliationVerified : Bool
  reconciledAt : Option Int
  publicRef : Option String
  portalHoldDraftId : Option Uuid
  createdByExternalUserId : Option String
  portalCustomerContact : Option Value
  createdAt : Int
  updatedAt : Int
  deriving DecidableEq

/-- `booking_late_outcomes`. -/
structure LateOutcome where
  bookingId : Uuid
  response : Option Value
  receivedAt : Int
  deriving DecidableEq

/-- `booking_resolutions`. -/
structure Resolution where
  bookingId : Uuid
  administratorId : Uuid
  outcome : String
  reason : String
  evidence : String
  supplierCaseRef : String
  previousState : BookingState
  deriving DecidableEq

/-- `flight_booking_pnr_observations`. -/
structure PnrObservation where
  id : Int
  bookingId : Uuid
  response : Value
  verified : Bool
  requestedAt : Int
  recordedAt : Int
  deriving DecidableEq

/-! ## Tickets -/

/-- `flight_ticket_issues.state`. -/
inductive IssueState where
  | pending
  | issued
  | outcomeUnknown
  deriving DecidableEq, Repr

def IssueState.text : IssueState → String
  | .pending => "pending"
  | .issued => "issued"
  | .outcomeUnknown => "outcome_unknown"

/-- `flight_ticket_issues`. -/
structure TicketIssue where
  id : Uuid
  bookingId : Uuid
  clientId : Uuid
  idempotencyKey : String
  requestHash : Digest
  state : IssueState
  request : Value
  preflight : Value
  originalResponse : Option Value
  publicResponse : Option Value
  walletRequired : Bool
  createdAt : Int
  updatedAt : Int
  deriving DecidableEq

/-- `flight_ticket_verifications`. -/
structure TicketVerification where
  issueId : Uuid
  publicResponse : Value
  clientId : Uuid
  createdAt : Int
  deriving DecidableEq

/-- `flight_ticket_reports`. -/
structure TicketReport where
  id : Uuid
  bookingId : Uuid
  clientId : Uuid
  originalResponse : Value
  publicResponse : Option Value
  verified : Bool
  requestedAt : Int
  receivedAt : Int
  deriving DecidableEq

/-- `flight_ticket_reconciliations.result`. -/
inductive ReconciliationResult where
  | verified
  | insufficient
  | alreadyResolved
  deriving DecidableEq, Repr

def ReconciliationResult.text : ReconciliationResult → String
  | .verified => "verified"
  | .insufficient => "insufficient"
  | .alreadyResolved => "already_resolved"

/-- `flight_ticket_reconciliations`. -/
structure TicketReconciliation where
  id : Uuid
  issueId : Uuid
  clientId : Uuid
  actorKind : String
  actorId : Uuid
  pnrResponse : Option Value
  reportResponse : Option Value
  publicResponse : Option Value
  result : ReconciliationResult
  errorCode : Option String
  requestedAt : Int
  completedAt : Int
  deriving DecidableEq

/-- `flight_cancellations.state`. -/
inductive CancellationState where
  | pending
  | cancelled
  | outcomeUnknown
  deriving DecidableEq, Repr

/-- `flight_cancellations`. -/
structure Cancellation where
  id : Uuid
  bookingId : Uuid
  clientId : Uuid
  idempotencyKey : String
  requestHash : Digest
  request : Value
  preflight : Value
  state : CancellationState
  originalResponse : Option Value
  publicResponse : Option Value
  deriving DecidableEq

/-! ## Reviews of a ticket hold -/

/-- The confirmation of a supplier that no ticket was issued. -/
structure Confirmation where
  confirmationReference : String
  evidenceUrl : String
  sha256 : String
  confirmedAt : Int
  supplierConfirmedNoTicketAndProcessingComplete : Bool
  deriving DecidableEq

/-- `ticket_nonissuance_proposals`; the JSON of the evidence is kept as what it stands for. -/
structure Proposal where
  id : Uuid
  issueId : Uuid
  operationId : Uuid
  requestedBy : String
  requestedRole : String
  evidence : Confirmation
  snapshotHash : String
  requestHash : Digest
  createdAt : Int
  deriving DecidableEq

/-- `ticket_nonissuance_decisions`. -/
structure Decision where
  proposalId : Uuid
  issueId : Uuid
  approved : Bool
  reviewedBy : String
  reviewedRole : String
  remarks : String
  requestHash : Digest
  createdAt : Int
  deriving DecidableEq

/-! ## The database -/

/-- The tables.  `imports` stands for the rows of `portal_import_bookings`, as far as the wallet
reads them; the audit events of all modules are those of `wallet`. -/
structure Db where
  identities : Identities
  clients : List ApiClient
  drafts : List HoldDraft
  tierPolicy : TierPolicy
  connections : List SupplierConnection
  searches : List Search
  offers : List Offer
  reprices : List Reprice
  bookings : List FlightBooking
  lateOutcomes : List LateOutcome
  resolutions : List Resolution
  observations : List PnrObservation
  reports : List TicketReport
  issues : List TicketIssue
  verifications : List TicketVerification
  reconciliations : List TicketReconciliation
  cancellations : List Cancellation
  proposals : List Proposal
  decisions : List Decision
  imports : List FinancialSubject
  wallet : WalletDb

/-- `booking_financial_subjects`: the triggers register every booking and every import. -/
def Db.subjects (db : Db) : List FinancialSubject :=
  db.bookings.map (fun b => ⟨b.id, .native b.publicRef⟩) ++ db.imports

/-- `INSERT INTO audit_events`. -/
def Db.audit (db : Db) (actorKind : String) (actorId : Option String)
    (action resourceKind resourceId : String) (metadata : Value) : Db :=
  { db with wallet := { db.wallet with
      audit := db.wallet.audit ++
        [⟨actorKind, actorId, action, resourceKind, resourceId, metadata⟩] } }

end ShaponTravels.Booking
