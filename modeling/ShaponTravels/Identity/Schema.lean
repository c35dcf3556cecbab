import ShaponTravels.Access.Clients
import ShaponTravels.Booking.Schema
import ShaponTravels.Wallet.Workflows

/-!
# Schema — the identity tables

Users, agencies and memberships of migration 0034, the journals of 0036 to 0041 and the documents
of 0044, with the columns the modelled functions read.  A state that holds a lease carries it, and
a state that names a provider subject carries the subject, as the checks of the tables demand.
-/

namespace ShaponTravels.Identity

/-! ## People -/

/-- `Role`. -/
inductive Role where
  | superadmin
  | admin
  | staffSupport
  | staffAccount
  | staffMedia
  | b2b
  | b2bSub
  | customer
  deriving DecidableEq, Repr

namespace Role

def managesUsers (r : Role) : Bool := r = .superadmin || r = .admin

def canGrant (r role : Role) : Bool := r = .superadmin || (r = .admin && role ≠ .superadmin)

def requiresAgency (r : Role) : Bool := r = .b2b || r = .b2bSub

def canManageProfile (r target : Role) : Bool := r.canGrant target

end Role

/-- `Status`. -/
inductive Status where
  | onboarding
  | active
  | suspended
  | deleting
  | deleted
  deriving DecidableEq, Repr

/-- The statuses a deletion leaves its target in. -/
def Status.terminal (s : Status) : Bool := s = .deleting || s = .deleted

/-- A row of `portal_users`. -/
structure User where
  id : Uuid
  subject : String
  role : Role
  status : Status
  version : Int
  authorizationVersion : Int
  email : Option String
  firstName : Option String
  lastName : Option String
  deriving DecidableEq

/-- `portal_agencies.status`. -/
inductive AgencyStatus where
  | active
  | suspended
  | archived
  deriving DecidableEq, Repr

/-- A row of `portal_agencies`. -/
structure Agency where
  id : Uuid
  code : String
  ownerUserId : Uuid
  status : AgencyStatus
  version : Int
  deriving DecidableEq

/-- `portal_agency_memberships.kind`, which decides `user_role`. -/
inductive MemberKind where
  | owner
  | sub
  deriving DecidableEq, Repr

def MemberKind.userRole : MemberKind → Role
  | .owner => .b2b
  | .sub => .b2bSub

/-- A row of `portal_agency_memberships`. -/
structure Membership where
  userId : Uuid
  agencyId : Uuid
  kind : MemberKind
  deriving DecidableEq

/-- The registry of identities; `bootstrap` is the row of `portal_identity_control`. -/
structure Directory where
  users : List User
  agencies : List Agency
  memberships : List Membership
  bootstrap : Option Uuid

/-! ## Leases and attempts -/

/-- `claim_token` and `lease_until`; times are in microseconds. -/
structure Lease where
  token : Uuid
  leaseUntil : Int
  deriving DecidableEq

/-- `dispatch` writes at the provider, `reconcile` reads there. -/
inductive AttemptKind where
  | dispatch
  | reconcile
  deriving DecidableEq, Repr

inductive AttemptOutcome where
  | confirmed
  | notSent
  | unknown
  deriving DecidableEq, Repr

/-- A row of `portal_identity_effect_attempts`, `portal_identity_create_attempts` or
`portal_identity_deletion_attempts`. -/
structure Attempt where
  claimToken : Uuid
  parentId : Uuid
  fence : Int
  kind : AttemptKind
  outcome : Option AttemptOutcome
  deriving DecidableEq

/-! ## Operations and their effects -/

/-- `portal_identity_operations.action`. -/
inductive Action where
  | setRole
  | setAccess
  | provisionAgency
  | reactivateAgency
  | createAccount
  | acceptInvitation
  | approveApplication
  | renameSubUser
  deriving DecidableEq, Repr

/-- `portal_identity_operations.state`. -/
inductive OperationState where
  | pendingEffects
  | needsReconciliation
  | completed
  deriving DecidableEq, Repr

/-- A row of `portal_identity_operations`. -/
structure Operation where
  id : Uuid
  actorUserId : Uuid
  targetUserId : Uuid
  action : Action
  requestHash : Digest
  expectedVersion : Int
  resultingVersion : Int
  resultingRole : Role
  resultingStatus : Status
  state : OperationState
  deriving DecidableEq

/-- `EffectKind`. -/
inductive EffectKind where
  | revokeSessions
  | mirrorMetadata
  | mirrorName
  deriving DecidableEq, Repr

/-- `portal_identity_effects.state`. -/
inductive EffectState where
  | pending
  | dispatching (lease : Lease)
  | retryable
  | needsReconciliation
  | reconciling (lease : Lease)
  | confirmed
  | superseded
  deriving DecidableEq

/-- A row of `portal_identity_effects`. -/
structure Effect where
  id : Uuid
  sequence : Nat
  operationId : Uuid
  targetUserId : Uuid
  kind : EffectKind
  authorizationVersion : Int
  role : Role
  status : Status
  state : EffectState
  fence : Int
  attempts : Nat
  nextAttemptAt : Int
  errorCode : Option String
  deriving DecidableEq

/-- A row of `portal_identity_name_effects`. -/
structure NameEffect where
  effectId : Uuid
  firstName : String
  lastName : String
  deriving DecidableEq

/-- The operations and the outbox of their effects; `sequence` is the next value of the column. -/
structure Effects where
  operations : List Operation
  rows : List Effect
  attempts : List Attempt
  names : List NameEffect
  sequence : Nat

/-! ## Account creations, deletions and invitations -/

/-- `portal_identity_creates.state`. -/
inductive CreateState where
  | prepared
  | dispatching (lease : Lease)
  | needsReconciliation
  | reconciling (lease : Lease)
  | providerConfirmed (clerkUserId : String)
  | completed (clerkUserId : String)
  | cancelled
  deriving DecidableEq

/-- A row of `portal_identity_creates`. -/
structure Create where
  id : Uuid
  actorUserId : Uuid
  userId : Uuid
  requestHash : Digest
  email : String
  emailKey : Digest
  firstName : String
  lastName : String
  role : Role
  agencyId : Option Uuid
  agencyVersion : Option Int
  state : CreateState
  fence : Int
  attempts : Nat
  nextAttemptAt : Int
  errorCode : Option String
  deriving DecidableEq

def Create.clerkUserId (r : Create) : Option String :=
  match r.state with
  | .providerConfirmed subject | .completed subject => some subject
  | _ => none

/-- The states outside `('completed','cancelled')`. -/
def CreateState.isOpen : CreateState → Bool
  | .completed _ | .cancelled => false
  | _ => true

structure Creates where
  rows : List Create
  attempts : List Attempt

/-- `portal_identity_deletions.state`. -/
inductive DeletionState where
  | prepared
  | dispatching (lease : Lease)
  | needsReconciliation
  | reconciling (lease : Lease)
  | providerConfirmed
  | completed
  deriving DecidableEq

/-- A row of `portal_identity_deletions`. -/
structure Deletion where
  id : Uuid
  actorUserId : Uuid
  targetUserId : Uuid
  clerkUserId : String
  agencyId : Option Uuid
  requestHash : Digest
  expectedVersion : Int
  state : DeletionState
  fence : Int
  attempts : Nat
  nextAttemptAt : Int
  errorCode : Option String
  deriving DecidableEq

structure Deletions where
  rows : List Deletion
  attempts : List Attempt

/-- `portal_identity_invitations.state`. -/
inductive InvitationState where
  | prepared
  | issuing (lease : Lease)
  | issueUnknown
  | observingIssue (lease : Lease)
  | pending
  | revoking (lease : Lease)
  | revokeUnknown
  | observingRevoke (lease : Lease)
  | revoked
  | accepted (subject : String)
  | cancelled
  | expired
  deriving DecidableEq

/-- The states outside `('accepted','revoked','cancelled','expired')`. -/
def InvitationState.isOpen : InvitationState → Bool
  | .accepted _ | .revoked | .cancelled | .expired => false
  | _ => true

/-- The lease of a state that holds one. -/
def InvitationState.lease? : InvitationState → Option Lease
  | .issuing l | .observingIssue l | .revoking l | .observingRevoke l => some l
  | _ => none

/-- A row of `portal_identity_invitations`. -/
structure Invitation where
  id : Uuid
  issuerUserId : Uuid
  userId : Uuid
  requestHash : Digest
  email : String
  emailKey : Digest
  role : Role
  agencyId : Option Uuid
  agencyVersion : Option Int
  state : InvitationState
  providerId : Option String
  revocationRequested : Bool
  version : Int
  fence : Int
  issueAttempts : Nat
  revokeAttempts : Nat
  nextAttemptAt : Int
  errorCode : Option String
  deriving DecidableEq

/-- `portal_identity_invitation_attempts.kind`. -/
inductive InvitationAttemptKind where
  | issue
  | observeIssue
  | revoke
  | observeRevoke
  deriving DecidableEq, Repr

/-- `invitations::ProviderState`. -/
inductive InvitationEvidence where
  | pending
  | accepted
  | revoked
  | expired
  deriving DecidableEq, Repr

/-- A row of `portal_identity_invitation_attempts`. -/
structure InvitationAttempt where
  claimToken : Uuid
  invitationId : Uuid
  fence : Int
  kind : InvitationAttemptKind
  outcome : Option AttemptOutcome
  providerState : Option InvitationEvidence
  deriving DecidableEq

/-- A row of `portal_identity_invitation_mail`. -/
structure MailIntent where
  invitationId : Uuid
  blocked : Bool
  deriving DecidableEq

structure Invitations where
  rows : List Invitation
  attempts : List InvitationAttempt
  intents : List MailIntent

/-! ## Mail -/

/-- `portal_identity_mail.kind`, with the invitation or the user the mail is about. -/
inductive MailKind where
  | invitation (id : Uuid)
  | account (user : Uuid)
  | welcome (user : Uuid)
  | b2bActivated (user : Uuid)
  deriving DecidableEq

/-- `portal_identity_mail.state`. -/
inductive MailState where
  | pending
  | sending (lease : Lease)
  | sent
  | unknown
  | blocked
  deriving DecidableEq

/-- A row of `portal_identity_mail`; its audience is always the recipient. -/
structure Mail where
  id : Uuid
  sequence : Nat
  kind : MailKind
  state : MailState
  attempts : Nat
  fence : Int
  nextAttemptAt : Int
  errorCode : Option String
  deriving DecidableEq

/-- `portal_identity_mail_attempts.outcome`. -/
inductive MailOutcome where
  | sent
  | notSent
  | unknown
  deriving DecidableEq, Repr

/-- A row of `portal_identity_mail_attempts`. -/
structure MailAttempt where
  claimToken : Uuid
  mailId : Uuid
  fence : Int
  transportStarted : Bool
  outcome : Option MailOutcome
  deriving DecidableEq

structure Mails where
  rows : List Mail
  attempts : List MailAttempt
  sequence : Nat

/-! ## Events of the provider -/

/-- `portal_identity_inbox.kind`. -/
inductive EventKind where
  | created
  | updated
  | deleted
  deriving DecidableEq, Repr

/-- `portal_identity_inbox.state`. -/
inductive InboxState where
  | pending
  | processing (lease : Lease)
  | completed
  | retry
  | deadLetter
  deriving DecidableEq

/-- A row of `portal_identity_inbox`. -/
structure InboxRow where
  sequence : Nat
  eventId : String
  payloadHash : Digest
  subject : String
  kind : EventKind
  occurredAt : Int
  state : InboxState
  attempts : Nat
  fence : Int
  nextAttemptAt : Int
  errorCode : Option String
  deriving DecidableEq

/-- A row of `portal_identity_provider_state`. -/
structure ProviderState where
  subject : String
  deleted : Bool
  observedAt : Int
  eventId : String
  deriving DecidableEq

structure Inbox where
  rows : List InboxRow
  states : List ProviderState
  sequence : Nat

/-! ## Applications and documents -/

/-- `portal_identity_applications.status`. -/
inductive ApplicationStatus where
  | pending
  | accepted
  | rejected
  deriving DecidableEq, Repr

/-- `applications::Fields`. -/
structure ApplicationFields where
  agencyName : String
  businessMobile : String
  businessEmail : String
  businessAddress : String
  fullName : String
  businessType : String
  personalMobile : String
  personalAddress : String
  deriving DecidableEq

/-- A row of `portal_identity_applications`. -/
structure Application where
  userId : Uuid
  version : Int
  status : ApplicationStatus
  fields : ApplicationFields
  documents : List Uuid
  reviewerId : Option Uuid
  reviewNote : Option String
  reviewedAt : Option Int
  deriving DecidableEq

/-- A row of `portal_identity_application_history`. -/
structure ApplicationSnapshot where
  userId : Uuid
  version : Int
  snapshot : Application
  deriving DecidableEq

/-- `portal_identity_phase5_commands.action`. -/
inductive CommandAction where
  | applicationSubmit
  | applicationAccept
  | applicationReject
  | documentRemove
  | renameSubUser
  deriving DecidableEq, Repr

/-- A row of `portal_identity_phase5_commands`. -/
structure Command where
  id : Uuid
  actorId : Uuid
  targetId : Uuid
  action : CommandAction
  requestHash : Digest
  version : Int
  deriving DecidableEq

/-- `documents::Purpose`. -/
inductive Purpose where
  | profile
  | application
  deriving DecidableEq, Repr

/-- `documents::Slot`. -/
inductive Slot where
  | tradeLicense
  | tinCertificate
  | travelAgencyLicense
  | nidCard
  | logo
  | attachment
  deriving DecidableEq, Repr

/-- `portal_identity_assets.state`. -/
inductive AssetState where
  | prepared
  | uploading
  | ready
  | unknown
  | abandoned
  deriving DecidableEq, Repr

/-- A row of `portal_identity_assets`. -/
structure Asset where
  id : Uuid
  actorId : Uuid
  userId : Uuid
  purpose : Purpose
  slot : Slot
  requestHash : Digest
  expectedVersion : Int
  identityVersion : Int
  publicId : String
  format : String
  byteSize : Int
  contentHash : String
  state : AssetState
  deriving DecidableEq

/-- A row of `portal_identity_document_slots`. -/
structure SlotRow where
  userId : Uuid
  slot : Slot
  assetId : Option Uuid
  version : Int
  deriving DecidableEq

/-! ## Profiles -/

/-- `profiles::Kind`. -/
inductive ProfileKind where
  | profile
  | staff
  deriving DecidableEq, Repr

/-- `profiles::Field`. -/
inductive ProfileField where
  | givenName
  | surname
  | gender
  | dateOfBirth
  | address
  | nationality
  | passportNo
  | passportExpiry
  | mobile
  | email
  | agencyName
  | agencyLicenseNo
  | agencyAddress
  | agencyEmail
  | agencyMobile
  | website
  | facebookPage
  | bankName
  | accountName
  | accountNumber
  | routingNumber
  | swiftCode
  | branchCode
  | designation
  | phone
  | alternativePhone
  | qualification
  deriving DecidableEq, Repr

/-- A row of `portal_identity_profiles`; a field that was never set is `none`, a cleared one is
empty. -/
structure Profile where
  userId : Uuid
  kind : ProfileKind
  fields : ProfileField → Option String
  present : Bool
  version : Int

/-- A row of `portal_identity_profile_mutations`. -/
structure ProfileMutation where
  operationId : Uuid
  actorUserId : Uuid
  targetUserId : Uuid
  kind : ProfileKind
  requestHash : Digest
  previousVersion : Int
  committedVersion : Int
  deriving DecidableEq

/-- What users hand in of themselves. -/
structure Papers where
  applications : List Application
  history : List ApplicationSnapshot
  commands : List Command
  assets : List Asset
  slots : List SlotRow
  profiles : List Profile
  mutations : List ProfileMutation

/-! ## Business tables -/

/-- The tables of the business that name identities. -/
structure Business where
  access : Access.Db
  owners : List Wallet.WalletOwner
  links : List Wallet.ClientLink
  accounts : List Wallet.WalletAccount
  operations : List Wallet.WalletOperation
  requests : List Wallet.Workflows.WalletRequest
  entries : List Wallet.LedgerEntry
  drafts : List Booking.HoldDraft
  bookings : List Booking.FlightBooking
  issues : List Booking.TicketIssue
  cancellations : List Booking.Cancellation

/-! ## The database -/

structure Db where
  directory : Directory
  effects : Effects
  creates : Creates
  deletions : Deletions
  invitations : Invitations
  mails : Mails
  inbox : Inbox
  papers : Papers
  business : Business

end ShaponTravels.Identity
