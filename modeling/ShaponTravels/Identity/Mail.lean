import ShaponTravels.Identity.Invitations

/-!
# Mail — delivery of the mail outbox

`mail.rs` with migration 0041: a mail is claimed under a lease, its transport is started once,
immediately before it is sent, and an unknown outcome is never retried.
-/

namespace ShaponTravels.Identity

open Library

def mailStale : ApiError := conflict "IDENTITY_MAIL_CLAIM_STALE"

/-- The issuer of an invitation may still grant it, as the statements of `mail.rs` ask. -/
def mailIssuer (db : Db) (i : Invitation) : Bool :=
  db.directory.users.any fun u => u.id = i.issuerUserId ∧ u.status = .active ∧
    (u.role = .superadmin ∨ u.role = .admin ∧ i.role ≠ .superadmin ∨
      u.role = .b2b ∧ i.role = .b2bSub ∧
        db.directory.agencies.any fun a => some a.id = i.agencyId ∧ a.ownerUserId = u.id)

/-- The agency of an invitation is active under the version the invitation was prepared with. -/
def mailAgency (db : Db) (i : Invitation) : Bool :=
  i.agencyId.isNone || db.directory.agencies.any fun a =>
    some a.id = i.agencyId ∧ a.status = .active ∧ some a.version = i.agencyVersion

/-- The mail of an invitation may be sent. -/
def mailInvitation (db : Db) (i : Invitation) : Bool :=
  i.state = .pending && !i.revocationRequested && mailIssuer db i && mailAgency db i

/-- The mail of an activated agency may be sent. -/
def mailActivated (db : Db) (u : User) : Bool :=
  u.role = .b2b && u.status = .active &&
    db.directory.agencies.any fun a => a.ownerUserId = u.id ∧ a.status = .active

def mailUser (db : Db) (u : User) (activated : Bool) : Bool :=
  (u.status = .active || u.status = .onboarding) && (!activated || mailActivated db u)

/-- The query of `start`. -/
def mailStartable (db : Db) : MailKind → Bool
  | .invitation id => (lookup Invitation.id id db.invitations.rows).any (mailInvitation db)
  | .account id | .welcome id => (db.directory.user id).any fun u => mailUser db u false
  | .b2bActivated id => (db.directory.user id).any fun u => mailUser db u true

/-- The queries of `claim`, which also ask for an address to send to. -/
def mailClaimable (db : Db) (kind : MailKind) : Bool :=
  mailStartable db kind && match kind with
  | .invitation id =>
    (lookup Invitation.id id db.invitations.rows).any fun i => i.providerId.isSome
  | .account id | .welcome id | .b2bActivated id =>
    (db.directory.user id).any fun u => u.email.isSome

/-- `mail::Delivery`, as far as `start` and `finish` read it. -/
structure MailClaim where
  id : Uuid
  token : Uuid
  fence : Int
  deriving DecidableEq

namespace Mails

def update (m : Mails) (id : Uuid) (f : Mail → Mail) : Mails :=
  { m with rows := modify Mail.id id f m.rows }

def updateAttempt (m : Mails) (token : Uuid) (f : MailAttempt → MailAttempt) : Mails :=
  { m with attempts := modify MailAttempt.claimToken token f m.attempts }

/-- The lease of a mail that is being sent and whose lease ran out. -/
def expiredLease (now : Int) (r : Mail) : Option Lease :=
  match r.state with
  | .sending l => if l.leaseUntil ≤ now then some l else none
  | _ => none

/-- The body of the loop over the expired leases. -/
def recoverOne (m : Mails) (x : Mail × Lease) : Mails :=
  (m.update x.1.id fun r => { r with
    state := .unknown
    errorCode := some "IDENTITY_MAIL_UNKNOWN" }).updateAttempt x.2.token fun a =>
      if a.outcome = none then { a with outcome := some .unknown } else a

/-- The leases that ran out, in the order of their sequence. -/
def recover (m : Mails) (now : Int) : Mails :=
  ((m.rows.filterMap fun r => (expiredLease now r).map fun l => (r, l)).take 25).foldl recoverOne m

/-- The mails `claim` goes through. -/
def due (m : Mails) (now : Int) : List Mail :=
  (m.rows.filter fun r => r.state = .pending ∧ r.attempts < 5 ∧ r.nextAttemptAt ≤ now).take 25

/-- The writes of a claim. -/
def takeMail (m : Mails) (now : Int) (r : Mail) (token : Uuid) : Except ApiError (Mails × MailClaim) := do
  ensure (∀ a ∈ m.attempts, a.claimToken ≠ token)
    (.ofDb (.unique "portal_identity_mail_attempts_pkey"))
  let fence := r.fence + 1
  let taken := m.update r.id fun r => { r with
    state := .sending ⟨token, now + 90000000⟩
    attempts := r.attempts + 1
    fence := fence
    errorCode := none }
  return ({ taken with attempts := m.attempts ++ [⟨token, r.id, fence, false, none⟩] },
    ⟨r.id, token, fence⟩)

/-- The loop of `claim`: a mail that may not be sent is blocked. -/
def claimLoop (db : Db) (now : Int) (token : Uuid) :
    List Mail → Mails → Except ApiError (Mails × Option MailClaim)
  | [], m => return (m, none)
  | r :: rows, m =>
    if mailClaimable db r.kind then do
      let (m, claim) ← m.takeMail now r token
      return (m, some claim)
    else claimLoop db now token rows (m.update r.id fun r => { r with state := .blocked })

end Mails

/-- `mail::claim`. -/
def claimMail (db : Db) (now : Int) (token : Uuid) : Except ApiError (Db × Option MailClaim) := do
  let m := db.mails.recover now
  let (m, claim) ← Mails.claimLoop db now token (m.due now) m
  return ({ db with mails := m }, claim)

/-- The claim is the current one of the mail and its lease lasts for `left` from now. -/
def MailClaim.holds (c : MailClaim) (r : Mail) (now left : Int) : Bool :=
  r.fence = c.fence && match r.state with
  | .sending l => l.token = c.token && now + left < l.leaseUntil
  | _ => false

/-- `mail::start`. -/
def startMail (db : Db) (now : Int) (c : MailClaim) : Except ApiError Db := do
  ensure (db.mails.rows.any fun r => r.id = c.id ∧ c.holds r now 45000000 ∧ mailStartable db r.kind)
    mailStale
  ensure (db.mails.attempts.any fun a => a.claimToken = c.token ∧ a.mailId = c.id ∧
    a.fence = c.fence ∧ ¬ a.transportStarted ∧ a.outcome = none) mailStale
  return { db with
    mails := db.mails.updateAttempt c.token fun a => { a with transportStarted := true } }

/-- The state and the error an outcome leaves a mail in. -/
def mailResultState (attempts : Nat) : MailOutcome → MailState × Option String
  | .sent => (.sent, none)
  | .notSent =>
    if attempts < 5 then (.pending, some "IDENTITY_MAIL_NOT_SENT")
    else (.blocked, some "IDENTITY_MAIL_RETRY_LIMIT")
  | .unknown => (.unknown, some "IDENTITY_MAIL_UNKNOWN")

/-- `mail::finish`. -/
def finishMail (db : Db) (now : Int) (c : MailClaim) (outcome : MailOutcome) : Except ApiError Db := do
  let r ← fetch (lookup Mail.id c.id db.mails.rows) mailStale
  ensure (c.holds r now 0) mailStale
  let (state, errorCode) := mailResultState r.attempts outcome
  return { db with
    mails := (db.mails.update r.id fun r => { r with
      state := state
      errorCode := errorCode
      nextAttemptAt := now + 30000000 }).updateAttempt c.token fun a =>
        { a with outcome := some outcome } }

end ShaponTravels.Identity
