import ShaponTravels.Identity.Business
import ShaponTravels.Identity.Documents
import ShaponTravels.Identity.Inbox
import ShaponTravels.Identity.Mail
import ShaponTravels.Library.Transition

/-!
# System — the transactions of the identity service and the workers between them

Every identity transaction takes the lock of `begin_mutation` first, so one transaction is one step;
a refused one changes nothing and is no step.  What a worker or a request carries from one
transaction to the next is a list of the system.
-/

namespace ShaponTravels.Identity

open Library

/-- What the service takes from its platform. -/
structure Desk where
  platform : Platform
  changeHash : Uuid → ChangeRequest → Digest
  createHash : Uuid → Intent → Digest
  invitationHash : Uuid → String → InvitationGrant → Digest
  review : Review
  archive : Archive
  forms : ProfileForms

/-- The transactions that carry nothing to a later one. -/
inductive Request where
  | bootstrap (u : ProviderUser) (draw : Draw)
  | onboard (u : ProviderUser) (draw : Draw)
  | change (input : ChangeRequest) (draw : Draw)
  | operationQuery (subject : String) (id : Uuid)
  | prepareCreate (input : PrepareCreate) (draw : Draw)
  | queryCreate (subject : String) (id : Uuid)
  | cancelCreate (subject : String) (id : Uuid)
  | finalizeCreate (subject : String) (id : Uuid) (clerk : String) (verified : ProviderUser)
      (draw : Draw)
  | prepareDeletion (input : PrepareDeletion)
  | queryDeletion (subject : String) (id : Uuid)
  | finalizeDeletion (subject : String) (id : Uuid)
  | prepareInvitation (input : PrepareInvitation) (draw : Draw)
  | queryInvitation (subject : String) (id : Uuid)
  | requestRevoke (input : RevokeInvitation)
  | claimMail (token : Uuid)
  | startMail (c : MailClaim)
  | finishMail (c : MailClaim) (outcome : MailOutcome)
  | ingest (e : ProviderEvent)
  | retryEvent (id : String) (fence : Int)
  | submit (input : SubmitApplication)
  | review (input : ReviewApplication) (draw : Draw)
  | rename (input : Rename) (draw : Draw)
  | prepareDocument (input : PrepareDocument)
  | startDocument (input : AssetRequest)
  | finishDocument (input : FinishDocument)
  | removeDocument (input : RemoveDocument)
  | editProfile (input : EditProfile) (count : Nat)
  | write (w : Write)

/-- What a transaction commits. -/
def Request.run (desk : Desk) (db : Db) (now : Int) : Request → Except ApiError Db
  | .bootstrap u draw => Identity.bootstrap db u draw
  | .onboard u draw => Identity.onboard desk.platform db now u draw
  | .change input draw => Identity.change desk.changeHash db now input draw
  | .operationQuery subject id => Identity.operationQuery db now subject id
  | .prepareCreate input draw =>
    Identity.prepareCreate desk.platform desk.createHash db now input draw
  | .queryCreate subject id => Identity.queryCreate db now subject id
  | .cancelCreate subject id => Identity.cancelCreate db subject id
  | .finalizeCreate subject id clerk verified draw =>
    Identity.finalizeCreate db now subject id clerk verified draw
  | .prepareDeletion input => Identity.prepareDeletion desk.review db now input
  | .queryDeletion subject id => Identity.queryDeletion db now subject id
  | .finalizeDeletion subject id => Settled.db <$> Identity.finalizeDeletion db subject id
  | .prepareInvitation input draw =>
    Identity.prepareInvitation desk.platform desk.invitationHash db now input draw
  | .queryInvitation subject id => Identity.queryInvitation db now subject id
  | .requestRevoke input => Identity.requestRevoke db input
  | .claimMail token => Prod.fst <$> Identity.claimMail db now token
  | .startMail c => Identity.startMail db now c
  | .finishMail c outcome => Identity.finishMail db now c outcome
  | .ingest e => Identity.ingest db now e
  | .retryEvent id fence => Identity.retryEvent db now id fence
  | .submit input => Identity.submit db input
  | .review input draw => Identity.review db now input draw
  | .rename input draw => Identity.rename db now input draw
  | .prepareDocument input => Identity.prepareDocument desk.archive db input
  | .startDocument input => Identity.startDocument db input
  | .finishDocument input => Identity.finishDocument db input
  | .removeDocument input => Identity.removeDocument desk.archive db input
  | .editProfile input count => Identity.editProfile desk.forms db input count
  | .write w => db.write w

/-- The database and what is between two transactions: claims that were handed out, effects that
were delivered or reported, observations of the provider and the contexts of business requests. -/
structure System where
  db : Db
  effectClaims : List EffectClaim
  delivered : List EffectClaim
  reported : List EffectClaim
  createClaims : List CreateClaim
  deletionClaims : List DeletionClaim
  invitationClaims : List InvitationClaim
  acceptances : List Observation
  refreshes : List Observation
  eventClaims : List InboxClaim
  contexts : List Context

inductive Event where
  | request (r : Request) (now : Int)
  | claimEffect (worker : String) (token : Uuid) (now : Int)
  | reconcileEffect (worker : String) (id : Uuid) (fence : Int) (token : Uuid) (now : Int)
  /-- a worker writes at the provider -/
  | deliver (c : EffectClaim)
  | finishEffect (c : EffectClaim) (result : AttemptOutcome) (now : Int)
  | claimCreate (subject : String) (id : Uuid) (reconcile : Bool) (fence : Option Int) (token : Uuid)
      (now : Int)
  | finishCreate (c : CreateClaim) (result : CreateResult) (now : Int)
  | claimDeletion (subject : String) (id : Uuid) (reconcile : Bool) (fence : Option Int)
      (token : Uuid) (now : Int)
  | finishDeletion (c : DeletionClaim) (result : DeletionResult) (now : Int)
  | claimInvitation (subject : String) (id : Uuid) (observe : Bool) (fence : Option Int)
      (token : Uuid) (now : Int)
  | finishInvitation (c : InvitationClaim) (result : InvitationResult) (mail : Uuid) (now : Int)
  | startAccept (subject : String) (id : Uuid)
  | accept (o : Observation) (result : InvitationResult) (draw : Draw) (now : Int)
  | startRefresh (subject : String) (id : Uuid)
  | refresh (o : Observation) (result : InvitationResult)
  | claimEvent (token : Uuid) (now : Int)
  | applyEvent (c : InboxClaim) (lookup : Except ApiError ProviderUser) (now : Int)
  | authorize (subject : String) (targets : List String) (clients : List Uuid)
  | commit (c : Context) (writes : List Write)

/-- What nobody handed out cannot be used. -/
def unheld : ApiError := conflict "IDENTITY_EFFECT_CLAIM_STALE"

namespace System

/-- A claim is handed out, when there is one. -/
def keep {α : Type} (claims : List α) (c : Except ApiError α) : List α :=
  match c with
  | .ok c => claims ++ [c]
  | .error _ => claims

def step (desk : Desk) (s : System) : Event → Except ApiError System
  | .request r now => do
    let db ← r.run desk s.db now
    return { s with db := db }
  | .claimEffect worker token now => do
    let (e, claim) ← s.db.effects.claim s.db.directory now worker token
    return { s with db := { s.db with effects := e }, effectClaims := s.effectClaims ++ claim.toList }
  | .reconcileEffect worker id fence token now => do
    let (e, claim) ← s.db.effects.reconcile s.db.directory now worker id fence token
    return { s with db := { s.db with effects := e }, effectClaims := s.effectClaims ++ [claim] }
  | .deliver c => do
    ensure (c ∈ s.effectClaims ∧ ¬ c.reconcile ∧ c ∉ s.delivered ∧ c ∉ s.reported) unheld
    return { s with delivered := s.delivered ++ [c] }
  | .finishEffect c result now => do
    ensure (c ∈ s.effectClaims) unheld
    let e ← s.db.effects.finish now c result
    return { s with db := { s.db with effects := e }, reported := s.reported ++ [c] }
  | .claimCreate subject id reconcile fence token now => do
    let r ← Identity.claimCreate s.db now subject id reconcile fence token
    return { s with db := r.db, createClaims := keep s.createClaims r.reply }
  | .finishCreate c result now => do
    ensure (c ∈ s.createClaims) unheld
    let db ← Identity.finishCreate desk.platform s.db now c result
    return { s with db := db }
  | .claimDeletion subject id reconcile fence token now => do
    let r ← Identity.claimDeletion s.db now subject id reconcile fence token
    return { s with db := r.db, deletionClaims := keep s.deletionClaims r.reply }
  | .finishDeletion c result now => do
    ensure (c ∈ s.deletionClaims) unheld
    let db ← Identity.finishDeletion s.db now c result
    return { s with db := db }
  | .claimInvitation subject id observe fence token now => do
    let r ← Identity.claimInvitation s.db now subject id observe fence token
    return { s with db := r.db, invitationClaims := keep s.invitationClaims r.reply }
  | .finishInvitation c result mail now => do
    ensure (c ∈ s.invitationClaims) unheld
    let db ← Identity.finishInvitation desk.platform s.db now c result mail
    return { s with db := db }
  | .startAccept subject id => do
    let o ← Identity.startAccept s.db subject id
    return { s with acceptances := s.acceptances ++ [o] }
  | .accept o result draw now => do
    ensure (o ∈ s.acceptances) unheld
    let db ← Identity.accept desk.platform s.db now o result draw
    return { s with db := db }
  | .startRefresh subject id => do
    let o ← Identity.startRefresh s.db subject id
    return { s with refreshes := s.refreshes ++ [o] }
  | .refresh o result => do
    ensure (o ∈ s.refreshes) unheld
    let db ← refreshInvitation desk.platform s.db o result
    return { s with db := db }
  | .claimEvent token now =>
    let r := Identity.claimEvent s.db now token
    .ok { s with db := r.1, eventClaims := s.eventClaims ++ r.2.toList }
  | .applyEvent c lookup now => do
    ensure (c ∈ s.eventClaims) unheld
    let db ← Identity.applyEvent s.db now c lookup
    return { s with db := db }
  | .authorize subject targets clients => do
    let c ← authorizeContext s.db subject targets clients
    return { s with contexts := s.contexts ++ [c] }
  | .commit c writes => do
    ensure (c ∈ s.contexts) unheld
    let db ← commitBusiness s.db c writes
    return { s with db := db }

end System

/-- The keys and the references of the business tables. -/
structure Business.Valid (b : Business) : Prop where
  clients : KeyUnique Access.ApiClient.id b.access.clients
  credentials : KeyUnique Access.ClientCredential.id b.access.credentials
  tokens : KeyUnique Access.MachineToken.tokenHash b.access.tokens
  sessions : KeyUnique Access.PrebookingSession.tokenHash b.access.sessions
  staffClients : KeyUnique Access.StaffClient.externalUserId b.access.staffClients
  owners : KeyUnique Wallet.WalletOwner.id b.owners
  accounts : KeyUnique Wallet.WalletAccount.id b.accounts
  operations : KeyUnique Wallet.WalletOperation.id b.operations
  requests : KeyUnique Wallet.Workflows.WalletRequest.id b.requests
  entries : KeyUnique Wallet.LedgerEntry.id b.entries
  drafts : KeyUnique Booking.HoldDraft.id b.drafts
  bookings : KeyUnique Booking.FlightBooking.id b.bookings
  staffExist : ∀ s ∈ b.access.staffClients, ∃ c ∈ b.access.clients, c.id = s.clientId
  linksExist : ∀ l ∈ b.links, ∃ c ∈ b.access.clients, c.id = l.clientId

/-- No identity is known yet; the business may have run before. -/
def System.start (b : Business) : System where
  db := {
    directory := ⟨[], [], [], none⟩
    effects := ⟨[], [], [], [], 0⟩
    creates := ⟨[], []⟩
    deletions := ⟨[], []⟩
    invitations := ⟨[], [], []⟩
    mails := ⟨[], [], 0⟩
    inbox := ⟨[], [], 0⟩
    papers := ⟨[], [], [], [], [], [], []⟩
    business := b }
  effectClaims := []
  delivered := []
  reported := []
  createClaims := []
  deletionClaims := []
  invitationClaims := []
  acceptances := []
  refreshes := []
  eventClaims := []
  contexts := []

def machine (desk : Desk) : Library.Machine System Event where
  init s := ∃ b : Business, b.Valid ∧ s = .start b
  step s e s' := s.step desk e = .ok s'

/-! ## A sample -/

def sampleDesk : Desk where
  platform := ⟨fun s => BitVec.ofNat 256 s.length, id, id, id⟩
  changeHash _ _ := 1
  createHash _ _ := 2
  invitationHash _ _ _ := 3
  review := ⟨fun _ _ _ => "", fun _ _ => 4⟩
  archive := ⟨fun _ => 5, fun _ => 6, Uuid.text⟩
  forms := ⟨fun _ => true, fun _ => none, fun _ _ => 7⟩

def sampleDraw (n : Nat) : Draw where
  user := BitVec.ofNat 128 (100 * n)
  agency := BitVec.ofNat 128 (100 * n + 1)
  wallet := BitVec.ofNat 128 (100 * n + 2)
  account := BitVec.ofNat 128 (100 * n + 3)
  mail := BitVec.ofNat 128 (100 * n + 4)
  effects k := BitVec.ofNat 128 (100 * n + 10 + k)
  number := n

def sampleUser (id : String) : ProviderUser := ⟨id, false, false, some (id ++ "@a.b"), none, none⟩

/-- No business before the first identity. -/
def sampleBusiness : Business where
  access := ⟨[], [], [], [], [], ⟨50, 60, 70⟩⟩
  owners := []
  links := []
  accounts := []
  operations := []
  requests := []
  entries := []
  drafts := []
  bookings := []
  issues := []
  cancellations := []

theorem sampleBusiness_valid : sampleBusiness.Valid where
  clients := .nil
  credentials := .nil
  tokens := .nil
  sessions := .nil
  staffClients := .nil
  owners := .nil
  accounts := .nil
  operations := .nil
  requests := .nil
  entries := .nil
  drafts := .nil
  bookings := .nil
  staffExist _ h := absurd h List.not_mem_nil
  linksExist _ h := absurd h List.not_mem_nil

end ShaponTravels.Identity
