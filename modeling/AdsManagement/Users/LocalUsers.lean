/-
  File:      Users/LocalUsers.lean
  Subject:   ACCOUNTS WITH A LOCAL PASSWORD (local-users.service.ts, and what acceptSetupToken and
             completeInitialPassword of local-auth.service.ts do to the account).

  Every call is one transaction on the table of users. Ids and request ids are columns of type
  `uuid`: a lookup ignores the case of the digits, and what the database prints is in lower case.
  A call gets its id from the path of the request as it was spelled there (the pipe of the
  controller checks the form and passes the text on); the id of the caller is the one the
  database has printed. Names come trimmed. Whether a setup token or a session can be used is an
  argument here.

  * `canonicalUuid` -- a uuid as the database prints it;
  * `invite`, `update`, `resetPassword`, `acceptSetupToken`, `completeInitialPassword`;
  * `LocalCall` -- the calls, and the table each of them leaves.
-/
import AdsManagement.Lib.LastOfKind
import AdsManagement.Users.Invitations

namespace AdsManagement.Users

/-- A uuid as the database prints it. -/
def canonicalUuid (uuid : String) : String := String.ofList (uuid.toList.map Char.toLower)

namespace Local

/-! ## 1. Rows -/

structure LocalUser where
  id : String
  username : Option String
  normalizedUsername : Option String
  name : String
  role : AppRole
  isActive : Bool
  inviteStatus : InviteStatus
  invitationRequestId : Option String
deriving DecidableEq

inductive LocalUserError where
  | USERNAME_INVALID
  | USERNAME_EXISTS
  | IDEMPOTENCY_KEY_CONFLICT
  | IDEMPOTENCY_REPLAY
  | USER_UPDATE_EMPTY
  | USER_NOT_FOUND
  | SELF_LOCKOUT
  | LAST_ACTIVE_SUPER_ADMIN
  | INVALID_USER_TRANSITION
  | INVALID_CREDENTIALS
  | SESSION_INVALID
deriving DecidableEq

def findById (users : List LocalUser) (id : String) : Option LocalUser :=
  users.find? fun u => u.id = canonicalUuid id

/-- `update({ where: { id } })`. -/
def putUser (user : LocalUser) (users : List LocalUser) : List LocalUser :=
  Lib.replaceRow LocalUser.id user users

/-- `!user.username`: no name, or the empty one. -/
def LocalUser.isLocal (user : LocalUser) : Bool := user.username.any (· ≠ "")

def isActiveSuperAdmin (user : LocalUser) : Bool :=
  user.role = .SUPER_ADMIN && user.isActive && user.inviteStatus = .ACTIVE

/-- The `count` under the lock of the super administrators. -/
def activeLocalSuperAdmins (users : List LocalUser) : Nat :=
  users.countP fun u => u.normalizedUsername.isSome && isActiveSuperAdmin u

/-! ## 2. LocalUsersService -/

/-- `invite`. The name is `none` where `normalizeUsername` throws; the id is a fresh one. -/
def invite (username : Option String) (name : String) (role : AppRole) (requestId newId : String)
    (users : List LocalUser) : Except LocalUserError (List LocalUser) :=
  match username with
  | none => .error .USERNAME_INVALID
  | some username =>
    match users.find? fun u => u.invitationRequestId = some (canonicalUuid requestId) with
    | some byRequest =>
      if byRequest.username ≠ some username ∨ byRequest.name ≠ name ∨ byRequest.role ≠ role then
        .error .IDEMPOTENCY_KEY_CONFLICT
      else if !byRequest.isActive ∨ byRequest.inviteStatus ≠ .INVITED then
        .error .IDEMPOTENCY_KEY_CONFLICT
      else .error .IDEMPOTENCY_REPLAY
    | none =>
      if users.any fun u => u.normalizedUsername = some username then .error .USERNAME_EXISTS
      -- a unique column: `P2002`
      else if users.any fun u => u.id = canonicalUuid newId ∨ u.username = some username then
        .error .IDEMPOTENCY_KEY_CONFLICT
      else
        .ok (users ++
          [{ id := canonicalUuid newId
             username := some username
             normalizedUsername := some username
             name
             role
             isActive := true
             inviteStatus := .INVITED
             invitationRequestId := some (canonicalUuid requestId) }])

/-- `body.isActive === false || (body.role && body.role !== SUPER_ADMIN)`. -/
def takesAccess (body : ProfileChange) : Bool :=
  body.isActive = some false || body.role.any (· ≠ .SUPER_ADMIN)

def update (id actorId : String) (body : ProfileChange) (users : List LocalUser) :
    Except LocalUserError (List LocalUser) :=
  if body.name = none ∧ body.role = none ∧ body.isActive = none then .error .USER_UPDATE_EMPTY
  else
    match findById users id with
    | none => .error .USER_NOT_FOUND
    | some before =>
      if !before.isLocal then .error .USER_NOT_FOUND
      else if id = actorId ∧ takesAccess body then .error .SELF_LOCKOUT
      else if isActiveSuperAdmin before ∧ takesAccess body ∧ activeLocalSuperAdmins users ≤ 1 then
        .error .LAST_ACTIVE_SUPER_ADMIN
      else
        .ok (putUser
          { before with
            name := body.name.getD before.name
            role := body.role.getD before.role
            isActive := body.isActive.getD before.isActive } users)

def resetPassword (id actorId : String) (users : List LocalUser) :
    Except LocalUserError (List LocalUser) :=
  if id = actorId then .error .SELF_LOCKOUT
  else
    match findById users id with
    | none => .error .USER_NOT_FOUND
    | some current =>
      if !current.isLocal then .error .USER_NOT_FOUND
      else if !current.isActive then .error .INVALID_USER_TRANSITION
      else if current.role = .SUPER_ADMIN ∧ current.inviteStatus = .ACTIVE ∧
          activeLocalSuperAdmins users ≤ 1 then
        .error .LAST_ACTIVE_SUPER_ADMIN
      else .ok (putUser { current with inviteStatus := .INVITED } users)

/-! ## 3. LocalAuthService -/

/-- `acceptSetupToken`, by the user its token belongs to. -/
def acceptSetupToken (appUserId : String) (tokenUsable : Bool) (users : List LocalUser) :
    Except LocalUserError (List LocalUser) :=
  match findById users appUserId with
  | none => .error .INVALID_CREDENTIALS
  | some account =>
    if !tokenUsable ∨ !account.isActive ∨
        (account.inviteStatus ≠ .INVITED ∧ account.inviteStatus ≠ .VERIFIED_PENDING_PASSWORD) then
      .error .INVALID_CREDENTIALS
    else .ok (putUser { account with inviteStatus := .VERIFIED_PENDING_PASSWORD } users)

def completeInitialPassword (principalId : String) (sessionUsable : Bool) (users : List LocalUser) :
    Except LocalUserError (List LocalUser) :=
  match findById users principalId with
  | none => .error .SESSION_INVALID
  | some account =>
    if !sessionUsable ∨ !account.isActive ∨ account.inviteStatus ≠ .VERIFIED_PENDING_PASSWORD then
      .error .SESSION_INVALID
    else .ok (putUser { account with inviteStatus := .ACTIVE } users)

/-! ## 4. Calls -/

inductive LocalCall where
  | invite (actorId : String) (username : Option String) (name : String) (role : AppRole)
      (requestId newId : String)
  | update (id actorId : String) (body : ProfileChange)
  | resetPassword (id actorId : String)
  | acceptSetupToken (appUserId : String) (tokenUsable : Bool)
  | completeInitialPassword (principalId : String) (sessionUsable : Bool)

def LocalCall.run (users : List LocalUser) : LocalCall → Except LocalUserError (List LocalUser)
  | .invite _ username name role requestId newId => Local.invite username name role requestId newId users
  | .update id actorId body => Local.update id actorId body users
  | .resetPassword id actorId => Local.resetPassword id actorId users
  | .acceptSetupToken appUserId tokenUsable => Local.acceptSetupToken appUserId tokenUsable users
  | .completeInitialPassword principalId sessionUsable =>
    Local.completeInitialPassword principalId sessionUsable users

/-- Who makes the call. -/
def LocalCall.caller : LocalCall → String
  | .invite actorId _ _ _ _ _ => actorId
  | .update _ actorId _ => actorId
  | .resetPassword _ actorId => actorId
  | .acceptSetupToken appUserId _ => appUserId
  | .completeInitialPassword principalId _ => principalId

/-- The id in the path of the request, where the call takes one. -/
def LocalCall.pathId : LocalCall → Option String
  | .update id _ _ => some id
  | .resetPassword id _ => some id
  | _ => none

end Local

end AdsManagement.Users
