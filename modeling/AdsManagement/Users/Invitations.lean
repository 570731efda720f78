/-
  File:      Users/Invitations.lean
  Subject:   INVITATIONS (users.service.ts, invite-state-machine.ts, the invitation calls of
             auth.service.ts): the rows of `app_users` and the transactions that write them.

  A transaction takes the lock of its row, reads the row again and writes it; here it is a
  function of the table. One that throws leaves the table as it was. Sessions and audit events
  are left out: where a call depends on its session, whether the session can be used is an
  argument. E-mail addresses are normalised, and the columns nobody reads here (the display
  e-mail, `invitedAt`, `invitedBy`, `deactivatedAt`, `authzVersion`) are left out.

  * `canTransitionInvitation`, `canRestartCancelledInvitation` -- the state machine;
  * `createInvitation`, `restartInvitation`, `claimRetry`, `cancelInvitation` -- the claims;
  * `commitInvitation`, `markInvitationFailure`, `markProviderSucceededLocalFailure`,
    `attachCancelledIdentity`, `finishCompensation` -- how the result of an attempt is written;
  * `acceptInvitation`, `completeInitialPassword`, `markAcceptCommitFailure`, `updateProfile`.
-/
import Mathlib.Data.List.Basic

namespace AdsManagement.Users

/-! ## 1. Rows -/

inductive InviteStatus where
  | PENDING_PROVIDER
  | INVITED
  | VERIFIED_PENDING_PASSWORD
  | ACTIVE
  | RECONCILE_REQUIRED
  | CANCELLED
deriving DecidableEq

inductive AppRole where
  | SUPER_ADMIN
  | ADMIN
  | USER
  | GUEST
deriving DecidableEq

/-- The values of `invitationErrorCode`. -/
inductive InvitationErrorCode where
  | INVITATION_REQUEST_IN_PROGRESS
  | INVITATION_RETRY_IN_PROGRESS
  | INVITATION_PROVIDER_UNAVAILABLE
  | INVITATION_PROVIDER_IDENTITY_MISMATCH
  | INVITATION_PROVIDER_COMPENSATION_REQUIRED
  | INVITATION_PROVIDER_SUBJECT_CONFLICT
  | INVITATION_LOCAL_COMMIT_FAILED
  | INVITATION_ACCEPT_LOCAL_COMMIT_FAILED
deriving DecidableEq

structure AppUser where
  id : String
  normalizedEmail : Option String
  name : String
  role : AppRole
  isActive : Bool
  inviteStatus : InviteStatus
  authUserId : Option String
  invitationRequestId : Option String
  invitationErrorCode : Option InvitationErrorCode
  updatedAt : Nat

inductive UserLifecycleError where
  | USER_NOT_FOUND
  | USER_EMAIL_EXISTS
  | IDEMPOTENCY_KEY_CONFLICT
  | USER_UPDATE_EMPTY
  | SELF_LOCKOUT
  | LAST_ACTIVE_SUPER_ADMIN
  | INVALID_USER_TRANSITION
  | INVITATION_NOT_RECONCILABLE
  | INVITATION_INVALID_OR_EXPIRED
  | ONBOARDING_SESSION_REQUIRED
  | P2002
deriving DecidableEq

/-! ## 2. The state machine -/

/-- `TRANSITIONS`. -/
def transitions : InviteStatus → List InviteStatus
  | .PENDING_PROVIDER => [.INVITED, .RECONCILE_REQUIRED, .CANCELLED]
  | .INVITED => [.VERIFIED_PENDING_PASSWORD, .RECONCILE_REQUIRED, .CANCELLED]
  | .VERIFIED_PENDING_PASSWORD => [.ACTIVE, .RECONCILE_REQUIRED, .CANCELLED]
  | .RECONCILE_REQUIRED => [.PENDING_PROVIDER, .CANCELLED]
  | .ACTIVE => []
  | .CANCELLED => []

def canTransitionInvitation (source target : InviteStatus) : Bool :=
  source = target || target ∈ transitions source

def canRestartCancelledInvitation (user : AppUser) : Bool :=
  user.inviteStatus = .CANCELLED && user.authUserId = none && user.invitationErrorCode = none

def isInvitationInProgress (code : Option InvitationErrorCode) : Bool :=
  code = some .INVITATION_REQUEST_IN_PROGRESS || code = some .INVITATION_RETRY_IN_PROGRESS

def isRetryableInvitationFailure (status : InviteStatus) (code : Option InvitationErrorCode) : Bool :=
  status = .RECONCILE_REQUIRED && code = some .INVITATION_PROVIDER_UNAVAILABLE

def isCancellableInvitationStatus (status : InviteStatus) : Bool :=
  status = .PENDING_PROVIDER || status = .INVITED || status = .VERIFIED_PENDING_PASSWORD ||
    status = .RECONCILE_REQUIRED

/-- `INVITATION_IN_PROGRESS_TTL_MS`: two minutes. -/
def invitationInProgressTtlMs : Nat := 2 * 60000

/-- `updatedAt > now - ttl`. -/
def isFreshInvitationClaim (updatedAt now : Nat) : Bool := now < updatedAt + invitationInProgressTtlMs

/-! ## 3. The table -/

def findById (users : List AppUser) (id : String) : Option AppUser :=
  users.find? fun u => u.id = id

def findByEmail (users : List AppUser) (email : String) : Option AppUser :=
  users.find? fun u => u.normalizedEmail = some email

def findByRequest (users : List AppUser) (requestId : String) : Option AppUser :=
  users.find? fun u => u.invitationRequestId = some requestId

def findBySubject (users : List AppUser) (authUserId : String) : Option AppUser :=
  users.find? fun u => u.authUserId = some authUserId

/-- `update({ where: { id } })`: the row as written, and the time of the write. -/
def putUser (now : Nat) (user : AppUser) (users : List AppUser) : List AppUser :=
  users.map fun u => if u.id = user.id then { user with updatedAt := now } else u

/-- Another row has the subject. -/
def subjectTaken (users : List AppUser) (authUserId id : String) : Bool :=
  (findBySubject users authUserId).any fun owner => owner.id ≠ id

/-! ## 4. Claims -/

/-- The attempts of `invite` and of `reconcile(RETRY)`. -/
inductive AttemptKind where
  | request
  | retry
deriving DecidableEq

def AttemptKind.inProgress : AttemptKind → InvitationErrorCode
  | .request => .INVITATION_REQUEST_IN_PROGRESS
  | .retry => .INVITATION_RETRY_IN_PROGRESS

/-- A claim on a row, and the request it goes to the provider with. -/
structure Attempt where
  userId : String
  normalizedEmail : String
  requestId : String
  kind : AttemptKind

/-- The body of an invitation. -/
structure Invitation where
  normalizedEmail : String
  name : String
  role : AppRole
  requestId : String

/-- The row of an address nobody has. -/
def Invitation.newUser (invitation : Invitation) (id : String) (now : Nat) : AppUser where
  id
  normalizedEmail := some invitation.normalizedEmail
  name := invitation.name
  role := invitation.role
  isActive := true
  inviteStatus := .PENDING_PROVIDER
  authUserId := none
  invitationRequestId := some invitation.requestId
  invitationErrorCode := some .INVITATION_REQUEST_IN_PROGRESS
  updatedAt := now

/-- The row of a cancelled invitation that is sent again. -/
def Invitation.restarted (invitation : Invitation) (locked : AppUser) : AppUser :=
  { locked with
    name := invitation.name
    role := invitation.role
    isActive := true
    inviteStatus := .PENDING_PROVIDER
    invitationRequestId := some invitation.requestId
    invitationErrorCode := some .INVITATION_REQUEST_IN_PROGRESS }

/-- `beginInvitation` for an address nobody has. Id, address and request id are unique columns. -/
def createInvitation (invitation : Invitation) (pendingUserId : String) (now : Nat)
    (users : List AppUser) : Except UserLifecycleError (List AppUser) :=
  if (findById users pendingUserId).isSome || (findByEmail users invitation.normalizedEmail).isSome ||
      (findByRequest users invitation.requestId).isSome then
    .error .P2002
  else
    .ok (users ++ [invitation.newUser pendingUserId now])

/-- `beginInvitation` for an address that has a row: nothing to send where the row carries the
    request already, else the row is restarted. -/
def restartInvitation (invitation : Invitation) (ownerId : String) (now : Nat) (users : List AppUser) :
    Except UserLifecycleError (Option (List AppUser)) :=
  match findById users ownerId with
  | none => .error .USER_NOT_FOUND
  | some locked =>
    if locked.invitationRequestId = some invitation.requestId then
      if locked.normalizedEmail ≠ some invitation.normalizedEmail ∨ locked.name ≠ invitation.name ∨
          locked.role ≠ invitation.role then
        .error .IDEMPOTENCY_KEY_CONFLICT
      else .ok none
    else if !canRestartCancelledInvitation locked then .error .USER_EMAIL_EXISTS
    else if (findByRequest users invitation.requestId).isSome then .error .P2002
    else .ok (some (putUser now (invitation.restarted locked) users))

/-- The claim of `reconcile(RETRY)`, with the address it goes to. -/
def claimRetry (id : String) (now : Nat) (users : List AppUser) :
    Except UserLifecycleError (Option String × List AppUser) :=
  match findById users id with
  | none => .error .INVITATION_NOT_RECONCILABLE
  | some locked =>
    if locked.authUserId.isSome ∨ locked.inviteStatus ≠ .RECONCILE_REQUIRED ∨
        !isRetryableInvitationFailure locked.inviteStatus locked.invitationErrorCode then
      .error .INVITATION_NOT_RECONCILABLE
    else if !canTransitionInvitation locked.inviteStatus .PENDING_PROVIDER then
      .error .INVALID_USER_TRANSITION
    else
      .ok (locked.normalizedEmail, putUser now
        { locked with
          inviteStatus := .PENDING_PROVIDER
          invitationErrorCode := some .INVITATION_RETRY_IN_PROGRESS } users)

/-- The transaction of `reconcile(CANCEL)`, with the row it leaves. -/
def cancelInvitation (id : String) (now : Nat) (users : List AppUser) :
    Except UserLifecycleError (AppUser × List AppUser) :=
  match findById users id with
  | none => .error .INVITATION_NOT_RECONCILABLE
  | some locked =>
    if locked.inviteStatus = .CANCELLED ∧
        (locked.invitationErrorCode = some .INVITATION_PROVIDER_COMPENSATION_REQUIRED ∨
          locked.invitationErrorCode = none) then
      .ok (locked, users)
    else if !isCancellableInvitationStatus locked.inviteStatus || locked.invitationRequestId.isNone ||
        locked.normalizedEmail.isNone ||
        (isInvitationInProgress locked.invitationErrorCode && isFreshInvitationClaim locked.updatedAt now) then
      .error .INVITATION_NOT_RECONCILABLE
    else if !canTransitionInvitation locked.inviteStatus .CANCELLED then .error .INVALID_USER_TRANSITION
    else
      let cancelled :=
        { locked with
          inviteStatus := .CANCELLED
          isActive := false
          invitationErrorCode :=
            if locked.authUserId.isSome then some .INVITATION_PROVIDER_COMPENSATION_REQUIRED else none }
      .ok ({ cancelled with updatedAt := now }, putUser now cancelled users)

/-! ## 5. Results -/

/-- The final transaction of an attempt whose provider call has succeeded. -/
def commitInvitation (attempt : Attempt) (providerUserId : String) (now : Nat) (users : List AppUser) :
    Except UserLifecycleError (List AppUser) :=
  let refused : UserLifecycleError := match attempt.kind with
    | .request => .INVALID_USER_TRANSITION
    | .retry => .INVITATION_NOT_RECONCILABLE
  match findById users attempt.userId with
  | none => .error refused
  | some current =>
    if current.inviteStatus ≠ .PENDING_PROVIDER ∨ current.invitationRequestId ≠ some attempt.requestId ∨
        current.invitationErrorCode ≠ some attempt.kind.inProgress then
      .error refused
    else if subjectTaken users providerUserId current.id then .error .INVALID_USER_TRANSITION
    else if !canTransitionInvitation current.inviteStatus .INVITED then .error .INVALID_USER_TRANSITION
    else
      .ok (putUser now
        { current with
          authUserId := some providerUserId
          inviteStatus := .INVITED
          invitationErrorCode := none
          isActive := if attempt.kind = .retry then true else current.isActive } users)

def markInvitationFailure (attempt : Attempt) (errorCode : InvitationErrorCode) (now : Nat)
    (users : List AppUser) : List AppUser :=
  match findById users attempt.userId with
  | none => users
  | some before =>
    if before.inviteStatus ≠ .PENDING_PROVIDER ∨ before.invitationRequestId ≠ some attempt.requestId ∨
        !isInvitationInProgress before.invitationErrorCode then
      users
    else if !canTransitionInvitation before.inviteStatus .RECONCILE_REQUIRED then users
    else
      putUser now
        { before with inviteStatus := .RECONCILE_REQUIRED, invitationErrorCode := some errorCode } users

def markProviderSucceededLocalFailure (attempt : Attempt) (authUserId : String) (now : Nat)
    (users : List AppUser) : List AppUser :=
  match findById users attempt.userId with
  | none => users
  | some before =>
    if before.inviteStatus ≠ .PENDING_PROVIDER ∨ before.invitationRequestId ≠ some attempt.requestId then
      users
    else if !canTransitionInvitation before.inviteStatus .RECONCILE_REQUIRED then users
    else
      let subjectConflict := subjectTaken users authUserId before.id
      putUser now
        { before with
          authUserId := if subjectConflict then before.authUserId else some authUserId
          inviteStatus := .RECONCILE_REQUIRED
          invitationErrorCode := some
            (if subjectConflict then .INVITATION_PROVIDER_SUBJECT_CONFLICT
             else .INVITATION_LOCAL_COMMIT_FAILED) } users

/-- The transaction of `compensateCancelledProviderIdentity`; whether it has attached the identity. -/
def attachCancelledIdentity (attempt : Attempt) (providerUserId : String) (now : Nat)
    (users : List AppUser) : Bool × List AppUser :=
  match findById users attempt.userId with
  | none => (false, users)
  | some cancelled =>
    if cancelled.inviteStatus ≠ .CANCELLED ∨ cancelled.invitationRequestId ≠ some attempt.requestId ∨
        cancelled.normalizedEmail ≠ some attempt.normalizedEmail then
      (false, users)
    else if cancelled.authUserId.any (· ≠ providerUserId) then (false, users)
    else if subjectTaken users providerUserId cancelled.id then (false, users)
    else
      (true, putUser now
        { cancelled with
          authUserId := some providerUserId
          invitationErrorCode := some .INVITATION_PROVIDER_COMPENSATION_REQUIRED } users)

/-- The row `compensateCancelledInvitation` works on, where it has something to do. -/
def pendingCompensation (id : String) (users : List AppUser) : Option AppUser :=
  (findById users id).filter fun pending =>
    pending.inviteStatus = .CANCELLED &&
    pending.invitationErrorCode = some .INVITATION_PROVIDER_COMPENSATION_REQUIRED &&
    pending.authUserId.isSome && pending.invitationRequestId.isSome && pending.normalizedEmail.isSome

/-- The last transaction of `compensateCancelledInvitation`. -/
def finishCompensation (pending : AppUser) (succeeded : Bool) (now : Nat) (users : List AppUser) :
    List AppUser :=
  match findById users pending.id with
  | none => users
  | some locked =>
    if locked.inviteStatus ≠ .CANCELLED ∨ locked.authUserId ≠ pending.authUserId ∨
        locked.invitationRequestId ≠ pending.invitationRequestId then
      users
    else
      putUser now
        (if succeeded then { locked with authUserId := none, invitationErrorCode := none }
         else
          { locked with invitationErrorCode := some .INVITATION_PROVIDER_COMPENSATION_REQUIRED }) users

/-! ## 6. Acceptance, password and profile -/

/-- What the provider knows of an identity; the address is normalised. -/
structure ProviderUser where
  id : String
  normalizedEmail : Option String
  invitationRequestId : Option String

/-- The transaction of `acceptInvitation`. -/
def acceptInvitation (candidateId : String) (session : ProviderUser) (sessionUsable : Bool) (now : Nat)
    (users : List AppUser) : Except UserLifecycleError (List AppUser) :=
  match findById users candidateId with
  | none => .error .INVITATION_INVALID_OR_EXPIRED
  | some user =>
    if !user.isActive ∨ user.inviteStatus ≠ .INVITED ∨ user.authUserId ≠ some session.id ∨
        user.normalizedEmail ≠ session.normalizedEmail ∨
        user.invitationRequestId ≠ session.invitationRequestId ∨
        !canTransitionInvitation user.inviteStatus .VERIFIED_PENDING_PASSWORD ∨ !sessionUsable then
      .error .INVITATION_INVALID_OR_EXPIRED
    else
      .ok (putUser now
        { user with inviteStatus := .VERIFIED_PENDING_PASSWORD, invitationErrorCode := none } users)

/-- The transaction of `markAcceptCommitFailure`. -/
def markAcceptCommitFailure (candidateId authUserId : String) (now : Nat) (users : List AppUser) :
    List AppUser :=
  match findById users candidateId with
  | none => users
  | some user =>
    if user.authUserId ≠ some authUserId ∨ user.inviteStatus ≠ .INVITED ∨
        !canTransitionInvitation user.inviteStatus .RECONCILE_REQUIRED then
      users
    else
      putUser now
        { user with
          inviteStatus := .RECONCILE_REQUIRED
          invitationErrorCode := some .INVITATION_ACCEPT_LOCAL_COMMIT_FAILED } users

/-- The transaction of `completeInitialPassword`. -/
def completeInitialPassword (principalId providerUserId : String) (sessionUsable : Bool) (now : Nat)
    (users : List AppUser) : Except UserLifecycleError (List AppUser) :=
  match findById users principalId with
  | none => .error .ONBOARDING_SESSION_REQUIRED
  | some user =>
    if !sessionUsable ∨ user.authUserId ≠ some providerUserId ∨ !user.isActive ∨
        user.inviteStatus ≠ .VERIFIED_PENDING_PASSWORD ∨
        !canTransitionInvitation user.inviteStatus .ACTIVE then
      .error .ONBOARDING_SESSION_REQUIRED
    else .ok (putUser now { user with inviteStatus := .ACTIVE, invitationErrorCode := none } users)

structure ProfileChange where
  name : Option String
  role : Option AppRole
  isActive : Option Bool

def isActiveSuperAdmin (user : AppUser) : Bool :=
  user.role = .SUPER_ADMIN && user.isActive && user.inviteStatus = .ACTIVE

/-- `update` of the row `id`; `isSelf` is whether the path spells it as the caller. -/
def updateRow (isSelf : Bool) (id : String) (body : ProfileChange) (now : Nat) (users : List AppUser) :
    Except UserLifecycleError (List AppUser) :=
  if body.name = none ∧ body.role = none ∧ body.isActive = none then .error .USER_UPDATE_EMPTY
  else
    match findById users id with
    | none => .error .USER_NOT_FOUND
    | some current =>
      let nextRole := body.role.getD current.role
      let nextActive := body.isActive.getD current.isActive
      if isSelf ∧ (nextActive = false ∨ nextRole ≠ current.role) then .error .SELF_LOCKOUT
      else if body.isActive = some true ∧ current.inviteStatus ≠ .ACTIVE then
        .error .INVALID_USER_TRANSITION
      else if isActiveSuperAdmin current ∧ (nextRole ≠ .SUPER_ADMIN ∨ nextActive = false) ∧
          users.countP isActiveSuperAdmin ≤ 1 then
        .error .LAST_ACTIVE_SUPER_ADMIN
      else
        .ok (putUser now
          { current with
            name := body.name.getD current.name, role := nextRole, isActive := nextActive } users)

/-- `update` with the id as the database prints it. -/
def updateProfile (id actorId : String) (body : ProfileChange) (now : Nat) (users : List AppUser) :
    Except UserLifecycleError (List AppUser) :=
  updateRow (id = actorId) id body now users

end AdsManagement.Users
