/-
  File:      Maintenance/UserDisposition.lean
  Subject:   THE DISPOSITION OF USERS (maintenance/auth/user-disposition.ts): a manifest says what
             becomes of each user, a plan says what can be done now, and a run applies the
             entries of one action.

  The application's users are a table under the constraints of the schema, the provider's
  identities are those of AuthProvider, and every transaction and every request may be refused or
  lose its answer. One run works at a time, so that of the locks of a transaction only what the
  client makes of the statement matters. That, digests and the service that bootstraps a super
  administrator are parameters; the parse and the lifetime of a target, the byte length of a key,
  sessions, times and audit rows other than the journal are left out. Ids are written as the
  database prints them.

  * `inspectEntry`, `planAuthDisposition` -- the plan;
  * `applyAtomic`, `claimReinvite`, `finalizeReinvite`, `runBootstrapSuperAdmin` -- the transactions;
  * `applyReinvite`, `applyDisable`, `applyAuthDisposition` -- the run.
-/
import AdsManagement.Lib.RemoteCalls
import AdsManagement.Maintenance.AuthProvider
import AdsManagement.Users.Invitations

namespace AdsManagement.Maintenance

open Common Lib
open Users (AppRole InviteStatus)

/-! ## 1. Manifests -/

/-- What a manifest asks for a user. -/
inductive AuthDispositionAction where
  | KEEP
  | BOOTSTRAP_SUPER_ADMIN
  | LINK
  | RE_INVITE
  | DISABLE
deriving DecidableEq

def AuthDispositionAction.text : AuthDispositionAction → String
  | .KEEP => "KEEP"
  | .BOOTSTRAP_SUPER_ADMIN => "BOOTSTRAP_SUPER_ADMIN"
  | .LINK => "LINK"
  | .RE_INVITE => "RE_INVITE"
  | .DISABLE => "DISABLE"

/-- One entry of a manifest. -/
structure AuthDispositionEntry where
  entryId : String
  action : AuthDispositionAction
  appUserId : Option String
  normalizedEmail : String
  providerUserId : Option String
  expectedLinkedProviderUserId : Option String
  expectedAuthzVersion : Option Nat
  desiredRole : AppRole
  desiredActive : Bool

/-- A target, of which a run reads its project, its release and its digest. -/
structure CloudTargetBinding where
  projectRef : String
  releaseGitSha : String
  targetBindingSha256 : String

/-- A manifest. -/
structure AuthDispositionInput where
  manifestId : String
  target : CloudTargetBinding
  entries : List AuthDispositionEntry

def isValidOpaqueId (value : Option String) : Bool := value.all isOpaqueId

/-- The checks of an entry, in their order. -/
def validateEntry (seen : List String) (entry : AuthDispositionEntry) : Except String Unit :=
  if !isOpaqueId entry.entryId then .error "AUTH_ENTRY_ID_INVALID"
  else if entry.entryId ∈ seen then .error "AUTH_ENTRY_ID_DUPLICATE"
  else if !isValidOpaqueId entry.appUserId then .error "AUTH_APP_USER_ID_INVALID"
  else if !isValidOpaqueId entry.providerUserId then .error "AUTH_PROVIDER_USER_ID_INVALID"
  else if !isValidOpaqueId entry.expectedLinkedProviderUserId then
    .error "AUTH_LINKED_PROVIDER_USER_ID_INVALID"
  else if entry.expectedAuthzVersion.any fun version => version > maxSafeInteger then
    .error "AUTH_AUTHZ_VERSION_INVALID"
  else if entry.action ≠ .BOOTSTRAP_SUPER_ADMIN ∧ entry.appUserId = none then
    .error "AUTH_APP_USER_ID_REQUIRED"
  else if entry.appUserId.isNone ≠ entry.expectedAuthzVersion.isNone then
    .error "AUTH_AUTHZ_VERSION_EXPECTATION_INVALID"
  else if entry.appUserId = none ∧ entry.expectedLinkedProviderUserId ≠ none then
    .error "AUTH_LINK_EXPECTATION_INVALID"
  else if entry.action ≠ .RE_INVITE ∧ entry.providerUserId = none then
    .error "AUTH_PROVIDER_USER_ID_REQUIRED"
  else if entry.action = .BOOTSTRAP_SUPER_ADMIN ∧
      (entry.desiredRole ≠ .SUPER_ADMIN ∨ entry.desiredActive = false) then
    .error "AUTH_BOOTSTRAP_SUPER_ADMIN_DESIRED_STATE_INVALID"
  else if entry.action = .DISABLE ∧ entry.desiredActive = true then
    .error "AUTH_DISABLE_DESIRED_STATE_INVALID"
  else
    match normalizeProviderEmail entry.normalizedEmail with
    | .error e => .error e
    | .ok email =>
      if email ≠ entry.normalizedEmail then .error "AUTH_EMAIL_NOT_NORMALIZED" else .ok ()

def validateEntries : List String → List AuthDispositionEntry → Except String Unit
  | _, [] => .ok ()
  | seen, entry :: rest => do
    validateEntry seen entry
    validateEntries (entry.entryId :: seen) rest

def validateDispositionInput (input : AuthDispositionInput) : Except String Unit :=
  if !isOpaqueId input.manifestId then .error "AUTH_MANIFEST_ID_INVALID"
  else if input.entries.length < 1 ∨ input.entries.length > 500 then .error "AUTH_MANIFEST_ENTRIES_INVALID"
  else validateEntries [] input.entries

/-! ## 2. Users -/

/-- A row of `app_users`, as far as a run reads or writes it. -/
structure AppUserRow where
  id : String
  email : Option String
  normalizedEmail : Option String
  role : AppRole
  isActive : Bool
  inviteStatus : InviteStatus
  authUserId : Option String
  invitationRequestId : Option String
  authzVersion : Nat

/-- The unique columns, and the range of an integer column. -/
structure TableConstraints (rows : List AppUserRow) : Prop where
  ids : (rows.map AppUserRow.id).Nodup
  emails : (rows.filterMap AppUserRow.email).Nodup
  normalizedEmails : (rows.filterMap AppUserRow.normalizedEmail).Nodup
  authUserIds : (rows.filterMap AppUserRow.authUserId).Nodup
  invitationRequestIds : (rows.filterMap AppUserRow.invitationRequestId).Nodup
  authzVersions : ∀ row ∈ rows, row.authzVersion ≤ 2147483647

instance (rows : List AppUserRow) : Decidable (TableConstraints rows) :=
  decidable_of_iff
    ((rows.map AppUserRow.id).Nodup ∧ (rows.filterMap AppUserRow.email).Nodup ∧
      (rows.filterMap AppUserRow.normalizedEmail).Nodup ∧ (rows.filterMap AppUserRow.authUserId).Nodup ∧
      (rows.filterMap AppUserRow.invitationRequestId).Nodup ∧
      ∀ row ∈ rows, row.authzVersion ≤ 2147483647)
    ⟨fun ⟨a, b, c, d, e, f⟩ => ⟨a, b, c, d, e, f⟩, fun ⟨a, b, c, d, e, f⟩ => ⟨a, b, c, d, e, f⟩⟩

/-- The table of users. -/
structure AppUsers where
  rows : List AppUserRow
  constraints : TableConstraints rows

namespace AppUsers

/-- `findUnique` by the id. -/
def findById (users : AppUsers) (id : String) : Option AppUserRow :=
  users.rows.find? fun row => row.id = id

/-- `findUnique` by the normalised e-mail address. -/
def findByEmail (users : AppUsers) (normalizedEmail : String) : Option AppUserRow :=
  users.rows.find? fun row => row.normalizedEmail = some normalizedEmail

/-- `update` of the row of an id. One that breaks a constraint throws. -/
def update (id : String) (data : AppUserRow → AppUserRow) (users : AppUsers) : Except String AppUsers :=
  match users.findById id with
  | none => .error "Record to update not found."
  | some row =>
    if h : TableConstraints (replaceRow AppUserRow.id (data row) users.rows) then .ok ⟨_, h⟩
    else .error "Unique constraint failed."

end AppUsers

def isEnabledSuperAdmin (row : AppUserRow) : Bool := row.role = .SUPER_ADMIN && row.isActive

def enabledSuperAdminCount (users : AppUsers) : Nat := users.rows.countP isEnabledSuperAdmin

/-- A user as the plan sees it. -/
structure AppUserSnapshot where
  appUserId : String
  normalizedEmail : String
  providerUserId : Option String
  role : AppRole
  active : Bool
  authzVersion : Nat
  remainingEnabledSuperAdmins : Nat

def mapPrismaUser (user : AppUserRow) (remainingEnabledSuperAdmins : Nat) : Except String AppUserSnapshot :=
  match user.normalizedEmail with
  | none => .error "AUTH_DB_USER_STATE_INVALID"
  | some normalizedEmail =>
    if normalizedEmail = "" then .error "AUTH_DB_USER_STATE_INVALID"
    else .ok
      { appUserId := user.id
        normalizedEmail
        providerUserId := user.authUserId
        role := user.role
        active := user.isActive
        authzVersion := user.authzVersion
        remainingEnabledSuperAdmins }

/-- The row an entry is about: that of its id, or else that of its address. -/
def findEntryUser (users : AppUsers) (entry : AuthDispositionEntry) : Option AppUserRow :=
  (entry.appUserId.bind users.findById).or (users.findByEmail entry.normalizedEmail)

/-- The user of an entry, by id and by address. -/
def inspectPrismaUser (users : AppUsers) (entry : AuthDispositionEntry) :
    Except String (Option AppUserSnapshot) :=
  match entry.appUserId.bind users.findById, users.findByEmail entry.normalizedEmail with
  | some byId, some byEmail =>
    if byId.id ≠ byEmail.id then .error "AUTH_DB_IDENTITY_CONFLICT"
    else (mapPrismaUser byId (enabledSuperAdminCount users)).map some
  | some user, none | none, some user => (mapPrismaUser user (enabledSuperAdminCount users)).map some
  | none, none => .ok none

def validateSnapshot (snapshot : AppUserSnapshot) : Except String AppUserSnapshot :=
  if !isOpaqueId snapshot.appUserId || !isValidOpaqueId snapshot.providerUserId then
    .error "AUTH_STORE_SNAPSHOT_INVALID"
  else
    match normalizeProviderEmail snapshot.normalizedEmail with
    | .error e => .error e
    | .ok email =>
      -- a count is a safe integer
      if email ≠ snapshot.normalizedEmail ∨ snapshot.authzVersion > maxSafeInteger then
        .error "AUTH_STORE_SNAPSHOT_INVALID"
      else .ok snapshot

def snapshotMatchesIdentity (snapshot : Option AppUserSnapshot) (entry : AuthDispositionEntry) : Bool :=
  match entry.appUserId, snapshot with
  | none, snapshot => snapshot.isNone
  | some _, none => false
  | some appUserId, some snapshot =>
    snapshot.appUserId = appUserId && snapshot.normalizedEmail = entry.normalizedEmail &&
      some snapshot.authzVersion = entry.expectedAuthzVersion &&
      snapshot.providerUserId = entry.expectedLinkedProviderUserId

/-- Both sides are as the entry wants them. -/
def isDesiredState (snapshot : Option AppUserSnapshot) (providerUser : Option AuthProviderUser)
    (entry : AuthDispositionEntry) : Bool :=
  match snapshot with
  | none => false
  | some snapshot =>
    snapshot.normalizedEmail = entry.normalizedEmail && snapshot.role = entry.desiredRole &&
      snapshot.active = entry.desiredActive &&
      match entry.action with
      | .DISABLE => providerUser.any (·.disabled)
      | .KEEP => snapshot.providerUserId = entry.providerUserId &&
          providerUser.all fun user => some user.id = snapshot.providerUserId
      | _ => providerUser.any fun user => snapshot.providerUserId = some user.id

/-- The row is as the entry wants it. -/
def isPrismaDesired (snapshot : Option AppUserSnapshot) (entry : AuthDispositionEntry) : Bool :=
  snapshot.any fun snapshot =>
    snapshot.normalizedEmail = entry.normalizedEmail && snapshot.role = entry.desiredRole &&
      snapshot.active = entry.desiredActive &&
      if entry.action = .DISABLE then !snapshot.active
      else snapshot.providerUserId = entry.providerUserId

/-- The last super administrator is kept. -/
def assertLastSuperAdminSafe (users : AppUsers) (current : AppUserSnapshot)
    (desired : AuthDispositionEntry) : Except String Unit :=
  if current.role ≠ .SUPER_ADMIN ∨ (desired.desiredRole = .SUPER_ADMIN ∧ desired.desiredActive = true) then
    .ok ()
  else if enabledSuperAdminCount users ≤ 1 then .error "AUTH_LAST_SUPER_ADMIN_PROTECTED"
  else .ok ()

/-! ## 3. The world of a run -/

/-- The two sides that a run brings together. -/
structure Directory where
  users : AppUsers
  identities : Identities

inductive StoreOperation where
  | applyAtomic
  | claimReinvite
  | finalizeReinvite
  | runBootstrapSuperAdmin
deriving DecidableEq

/-- A transaction that was committed: the table before and after it. -/
structure Commit where
  operation : StoreOperation
  entry : AuthDispositionEntry
  before : AppUsers
  after : AppUsers

/-- What the plan says of an entry. -/
inductive PlannedOutcome where
  | READY
  | UNCHANGED
  | BLOCKED
deriving DecidableEq

/-- What a turn is counted as. -/
inductive DispositionOutcome where
  | applied
  | unchanged
  | partially
deriving DecidableEq

/-- A turn of a run that was counted: what the plan had seen, and what the turn found and left. The
    request id is that of the entry's own claim. -/
structure Report where
  entry : AuthDispositionEntry
  requestId : String
  planned : PlannedOutcome
  outcome : DispositionOutcome
  atPlan : Directory
  before : Directory
  after : Directory

inductive PartialState where
  | DB_APPLIED_PROVIDER_FAILED
  | PROVIDER_APPLIED_DB_FAILED
deriving DecidableEq

inductive Compensation where
  | NOT_APPLICABLE
  | SUCCEEDED
  | FAILED
deriving DecidableEq

/-- The record of a turn that got halfway. -/
structure AuthPartialJournal where
  operationId : String
  planId : String
  entryId : String
  action : AuthDispositionAction
  targetSha256 : String
  state : PartialState
  compensation : Compensation
  code : String

/-- Both sides, the journal, and the history of the transactions and of the turns. -/
structure DispositionWorld where
  directory : Directory
  journal : List AuthPartialJournal
  commits : List Commit
  reports : List Report

abbrev DispositionM := Calls String DispositionWorld

/-- An entry of the plan. -/
structure AuthDispositionPlanEntry where
  entryId : String
  action : AuthDispositionAction
  outcome : PlannedOutcome
  code : String

structure ManifestBinding where
  keyId : String
  value : String

/-- The stable part of a plan, which its id is a digest of. -/
structure AuthDispositionPlanBody where
  manifestId : String
  targetSha256 : String
  projectRef : String
  releaseGitSha : String
  manifestBinding : ManifestBinding
  entries : List AuthDispositionPlanEntry

structure AuthDispositionPlan extends AuthDispositionPlanBody where
  planId : String

/-- What a transaction is asked for. -/
structure AuthAtomicCommand where
  operationId : String
  action : AuthDispositionAction
  entry : AuthDispositionEntry
  targetSha256 : String
  lockKeys : List String

/-- `run` of the service that bootstraps, inside the transaction: it may look an identity up and
    write the table. -/
abbrev BootstrapService :=
  (String → Except String (Option AuthProviderUser)) → (authUserId email : String) → AppUsers →
    Except String (Bool × AppUsers)

/-- `canonicalSha256` and the HMAC under the binding key as functions of what is digested.
    `voidColumn` is what the database client makes of a row whose only column is of type void. -/
structure AuthDispositionDependencies where
  projectRef : String
  keyId : String
  canonicalSha256 : AuthDispositionPlanBody → String
  bindManifest : AuthDispositionInput → String
  bindEntry : String → AuthDispositionEntry → String → String
  operationUuid : String → String
  inviteOwnershipValue : String → String
  bootstrapSuperAdmin : Option BootstrapService
  voidColumn : Except String Unit

/-- The client takes a void column for an answer. -/
def AuthDispositionDependencies.ReadsVoid (deps : AuthDispositionDependencies) : Prop :=
  deps.voidColumn = .ok ()

/-! ## 4. Calls -/

/-- `^[A-Z][A-Z0-9_]{2,80}$`. -/
def isErrorCode (message : String) : Bool :=
  match message.toList with
  | [] => false
  | c :: rest => c.isUpper && 2 ≤ rest.length && rest.length ≤ 80 &&
      rest.all fun d => d.isUpper || d.isDigit || d = '_'

/-- A failure gets a code of its own. -/
def safeStoreCall {α : Type} (operation : DispositionM α) (failureCode : String) : DispositionM α :=
  tryCatch operation fun message => throw (if isErrorCode message then message else failureCode)

def redactProviderError {α : Type} (operation : DispositionM α) : DispositionM α :=
  tryCatch operation fun message =>
    throw (if isErrorCode message then message else "AUTH_PROVIDER_OPERATION_FAILED")

/-- What a transaction answers. -/
inductive StoreOutcome where
  | APPLIED
  | UNCHANGED
deriving DecidableEq

/-- `SELECT pg_advisory_xact_lock(..)` for each key, which returns a void column. -/
def lockAuthCommand (deps : AuthDispositionDependencies) (command : AuthAtomicCommand) :
    Except String Unit :=
  command.lockKeys.forM fun _ => deps.voidColumn

/-- A transaction of the store: the locks first. -/
def transaction (deps : AuthDispositionDependencies) (operation : StoreOperation)
    (command : AuthAtomicCommand) (body : Directory → Except String (StoreOutcome × AppUsers)) :
    DispositionM StoreOutcome :=
  call fun w =>
    match (do lockAuthCommand deps command; body w.directory) with
    | .error e => (.error e, w)
    | .ok (outcome, users) =>
      (.ok outcome,
        { w with
          directory := { w.directory with users }
          commits := w.commits ++ [⟨operation, command.entry, w.directory.users, users⟩] })

/-- A request that changes the identities. -/
def request {α : Type} (operation : Identities → Except String α × Identities) : DispositionM α :=
  call fun w =>
    ((operation w.directory.identities).1,
      { w with directory := { w.directory with identities := (operation w.directory.identities).2 } })

/-! ## 5. Transactions -/

/-- The row as `applyAtomic` writes it. -/
def atomicRow (action : AuthDispositionAction) (entry : AuthDispositionEntry) (row : AppUserRow) :
    AppUserRow :=
  if action = .DISABLE then { row with isActive := false, authzVersion := row.authzVersion + 1 }
  else { row with
    authUserId := entry.providerUserId
    email := some entry.normalizedEmail
    normalizedEmail := some entry.normalizedEmail
    role := entry.desiredRole
    isActive := entry.desiredActive
    inviteStatus := .ACTIVE
    authzVersion := row.authzVersion + 1 }

/-- The transaction of `applyAtomic`. -/
def applyAtomicTx (action : AuthDispositionAction) (entry : AuthDispositionEntry) (directory : Directory) :
    Except String (StoreOutcome × AppUsers) := do
  let users := directory.users
  let current ← inspectPrismaUser users entry
  if isPrismaDesired current entry then return (.UNCHANGED, users)
  else
    match current, entry.appUserId with
    | some snapshot, some _ =>
      if !snapshotMatchesIdentity current entry then throw "AUTH_DB_CAS_MISMATCH"
      else
        assertLastSuperAdminSafe users snapshot entry
        let updated ← users.update snapshot.appUserId (atomicRow action entry)
        return (.APPLIED, updated)
    | _, _ => throw "AUTH_DB_CAS_MISMATCH"

/-- Links or disables the user of an entry. -/
def applyAtomic (deps : AuthDispositionDependencies) (command : AuthAtomicCommand) :
    DispositionM StoreOutcome :=
  if command.action ≠ .LINK ∧ command.action ≠ .DISABLE then throw "AUTH_DB_ATOMIC_ACTION_INVALID"
  else transaction deps .applyAtomic command (applyAtomicTx command.action command.entry)

/-- Whether the row carries the claim of this very operation. -/
def isClaimed (users : AppUsers) (entry : AuthDispositionEntry) (requestId : String) : Bool :=
  (entry.appUserId.bind users.findById).any fun persisted =>
    persisted.invitationRequestId = some requestId && persisted.inviteStatus = .PENDING_PROVIDER

def claimedRow (requestId : String) (row : AppUserRow) : AppUserRow :=
  { row with
    invitationRequestId := some requestId
    inviteStatus := .PENDING_PROVIDER
    authzVersion := row.authzVersion + 1 }

/-- The transaction of `claimReinvite`. -/
def claimReinviteTx (entry : AuthDispositionEntry) (requestId : String) (directory : Directory) :
    Except String (StoreOutcome × AppUsers) := do
  let users := directory.users
  if isClaimed users entry requestId then return (.UNCHANGED, users)
  else
    let current ← inspectPrismaUser users entry
    match current with
    | none => throw "AUTH_DB_CAS_MISMATCH"
    | some snapshot =>
      if !snapshotMatchesIdentity current entry then throw "AUTH_DB_CAS_MISMATCH"
      else
        let updated ← users.update snapshot.appUserId (claimedRow requestId)
        return (.APPLIED, updated)

/-- Claims the row before the invitation is sent. -/
def claimReinvite (deps : AuthDispositionDependencies) (command : AuthAtomicCommand) :
    DispositionM StoreOutcome :=
  if command.action ≠ .RE_INVITE then throw "AUTH_DB_REINVITE_ACTION_INVALID"
  else transaction deps .claimReinvite command
    (claimReinviteTx command.entry (deps.operationUuid command.operationId))

/-- The row once the invitation is out. -/
def finalizedRow (entry : AuthDispositionEntry) (providerUserId : String) (row : AppUserRow) :
    AppUserRow :=
  { row with
    authUserId := some providerUserId
    inviteStatus := .INVITED
    isActive := entry.desiredActive
    role := entry.desiredRole
    authzVersion := row.authzVersion + 1 }

/-- The transaction of `finalizeReinvite`. -/
def finalizeReinviteTx (entry : AuthDispositionEntry) (requestId providerUserId : String)
    (directory : Directory) : Except String (StoreOutcome × AppUsers) := do
  let users := directory.users
  match users.findById (entry.appUserId.getD "") with
  | none => throw "AUTH_DB_REINVITE_USER_MISSING"
  | some current =>
    if current.authUserId = some providerUserId ∧ current.inviteStatus = .INVITED then
      return (.UNCHANGED, users)
    else if current.invitationRequestId ≠ some requestId then throw "AUTH_DB_REINVITE_CLAIM_MISMATCH"
    else
      let updated ← users.update current.id (finalizedRow entry providerUserId)
      let _ ← mapPrismaUser current (enabledSuperAdminCount updated)
      return (.APPLIED, updated)

/-- Writes the identity and the desired columns. -/
def finalizeReinvite (deps : AuthDispositionDependencies) (command : AuthAtomicCommand)
    (providerUserId : String) : DispositionM StoreOutcome :=
  transaction deps .finalizeReinvite command
    (finalizeReinviteTx command.entry (deps.operationUuid command.operationId) providerUserId)

/-- The transaction of the bootstrap. -/
def runBootstrapTx (service : BootstrapService) (entry : AuthDispositionEntry) (directory : Directory) :
    Except String (StoreOutcome × AppUsers) := do
  let before ← inspectPrismaUser directory.users entry
  if !snapshotMatchesIdentity before entry && !isPrismaDesired before entry then
    throw "AUTH_DB_CAS_MISMATCH"
  else
    match entry.providerUserId with
    | none => throw "AUTH_BOOTSTRAP_SUPER_ADMIN_COMMAND_INVALID"
    | some providerUserId =>
      let (changed, users) ← service (findUserById directory.identities) providerUserId
        entry.normalizedEmail directory.users
      match users.rows.find? fun row => row.authUserId = some providerUserId with
      | none => throw "AUTH_DB_BOOTSTRAP_POSTCONDITION_FAILED"
      | some afterRow =>
        if !isEnabledSuperAdmin afterRow then throw "AUTH_DB_BOOTSTRAP_POSTCONDITION_FAILED"
        else
          let _ ← mapPrismaUser afterRow (enabledSuperAdminCount users)
          return (if changed then .APPLIED else .UNCHANGED, users)

/-- `apply` of the adapter. -/
def applyBootstrap (deps : AuthDispositionDependencies) (service : BootstrapService)
    (command : AuthAtomicCommand) : DispositionM StoreOutcome :=
  if command.action ≠ .BOOTSTRAP_SUPER_ADMIN ∨ command.entry.desiredRole ≠ .SUPER_ADMIN ∨
      command.entry.desiredActive ≠ true ∨ command.entry.providerUserId = none then
    throw "AUTH_BOOTSTRAP_SUPER_ADMIN_COMMAND_INVALID"
  else transaction deps .runBootstrapSuperAdmin command (runBootstrapTx service command.entry)

/-! ## 6. The plan -/

section

variable (entry : AuthDispositionEntry)

def planned (outcome : PlannedOutcome) (code : String) : AuthDispositionPlanEntry :=
  { entryId := entry.entryId, action := entry.action, outcome, code }

/-- What is planned for an entry on what has been found. -/
def assess (snapshot : Option AppUserSnapshot)
    (byId byEmail : Option AuthProviderUser) : AuthDispositionPlanEntry :=
  let providerUser := byId.or byEmail
  if (byId.any fun found => byEmail.any fun other => found.id ≠ other.id) then
    planned entry .BLOCKED "AUTH_PROVIDER_IDENTITY_CONFLICT"
  else if providerUser.any fun user => user.email ≠ entry.normalizedEmail then
    planned entry .BLOCKED "AUTH_PROVIDER_EMAIL_MISMATCH"
  else if entry.action ≠ .RE_INVITE ∧ providerUser.any fun user => !user.emailVerified then
    planned entry .BLOCKED "AUTH_PROVIDER_EMAIL_UNVERIFIED"
  else if entry.action ≠ .DISABLE ∧ providerUser.any fun user => user.disabled then
    planned entry .BLOCKED "AUTH_PROVIDER_USER_DISABLED"
  else if entry.action = .KEEP then
    if !snapshotMatchesIdentity snapshot entry || !isDesiredState snapshot providerUser entry then
      planned entry .BLOCKED "AUTH_KEEP_EXACT_STATE_MISMATCH"
    else planned entry .UNCHANGED "AUTH_KEEP_EXACT_STATE_UNCHANGED"
  else if !snapshotMatchesIdentity snapshot entry then
    if isDesiredState snapshot providerUser entry then
      planned entry .UNCHANGED "AUTH_DISPOSITION_ALREADY_APPLIED"
    else planned entry .BLOCKED "AUTH_APP_USER_EXPECTATION_MISMATCH"
  else if entry.action = .RE_INVITE then
    if providerUser.isNone then planned entry .READY "AUTH_REINVITE_READY"
    else if isDesiredState snapshot providerUser entry then
      planned entry .UNCHANGED "AUTH_DISPOSITION_ALREADY_APPLIED"
    else planned entry .BLOCKED "AUTH_REINVITE_PROVIDER_USER_EXISTS"
  else if providerUser.isNone then planned entry .BLOCKED "AUTH_PROVIDER_USER_MISSING"
  else if entry.action = .DISABLE ∧ snapshot.any fun snapshot =>
      snapshot.role = .SUPER_ADMIN && snapshot.remainingEnabledSuperAdmins ≤ 1 then
    planned entry .BLOCKED "AUTH_LAST_SUPER_ADMIN_PROTECTED"
  else if isDesiredState snapshot providerUser entry then
    planned entry .UNCHANGED "AUTH_DISPOSITION_ALREADY_APPLIED"
  else planned entry .READY ("AUTH_" ++ entry.action.text ++ "_READY")

/-- `inspectUser` and the check of what it answers. -/
def inspectSnapshot : DispositionM (Option AppUserSnapshot) := do
  let raw ← safeStoreCall (query fun w => inspectPrismaUser w.directory.users entry)
    "AUTH_STORE_INSPECTION_FAILED"
  match raw with
  | none => return none
  | some snapshot =>
    match validateSnapshot snapshot with
    | .error e => throw e
    | .ok snapshot => return some snapshot

def inspectIdentityById : DispositionM (Option AuthProviderUser) :=
  match entry.providerUserId with
  | none => return none
  | some userId => redactProviderError (query fun w => findUserById w.directory.identities userId)

/-- The plan of an entry. -/
def inspectEntry : DispositionM AuthDispositionPlanEntry := do
  let snapshot ← inspectSnapshot entry
  let byId ← inspectIdentityById entry
  let byEmail ← redactProviderError (query fun w =>
    findUserByEmail w.directory.identities entry.normalizedEmail)
  return assess entry snapshot byId byEmail

end

def inspectEntries : List AuthDispositionEntry → DispositionM (List AuthDispositionPlanEntry)
  | [] => return []
  | entry :: rest => do
    let plannedEntry ← inspectEntry entry
    return plannedEntry :: (← inspectEntries rest)

/-- The plan of a manifest with its entries, under the digest of its stable part. -/
def dispositionPlan (deps : AuthDispositionDependencies) (input : AuthDispositionInput)
    (entries : List AuthDispositionPlanEntry) : AuthDispositionPlan :=
  let stableBody : AuthDispositionPlanBody :=
    { manifestId := input.manifestId
      targetSha256 := input.target.targetBindingSha256
      projectRef := input.target.projectRef
      releaseGitSha := input.target.releaseGitSha
      manifestBinding := ⟨deps.keyId, deps.bindManifest input⟩
      entries }
  { stableBody with planId := deps.canonicalSha256 stableBody }

/-- The plan of a manifest. -/
def planAuthDisposition (deps : AuthDispositionDependencies) (input : AuthDispositionInput) :
    DispositionM AuthDispositionPlan := do
  match validateDispositionInput input with
  | .error e => throw e
  | .ok () =>
    if deps.projectRef ≠ input.target.projectRef then throw "AUTH_PROVIDER_TARGET_MISMATCH"
    else if !isOpaqueId deps.keyId then throw "AUTH_MANIFEST_BINDING_KEY_INVALID"
    else
      let entries ← inspectEntries input.entries
      return dispositionPlan deps input entries

/-! ## 7. The run -/

def storeMutation (operation : DispositionM StoreOutcome) (failureCode : String) :
    DispositionM DispositionOutcome := do
  let outcome ← safeStoreCall operation failureCode
  return if outcome = .APPLIED then .applied else .unchanged

/-- Writes the journal of a turn. -/
def recordPartial (command : AuthAtomicCommand) (plan : AuthDispositionPlan) (state : PartialState)
    (compensation : Compensation) (code : String) : DispositionM Unit :=
  let journal : AuthPartialJournal :=
    { operationId := command.operationId
      planId := plan.planId
      entryId := command.entry.entryId
      action := command.entry.action
      targetSha256 := plan.targetSha256
      state
      compensation
      code }
  safeStoreCall (call fun w => (.ok (), { w with journal := w.journal ++ [journal] }))
    "AUTH_PARTIAL_JOURNAL_WRITE_FAILED"

section

variable (deps : AuthDispositionDependencies) (command : AuthAtomicCommand)

/-- The key of an invitation, as the provider keeps it. -/
def inviteOwner : String :=
  deps.inviteOwnershipValue (command.operationId ++ ":provider-invite")

/-- The invitation, or none where the provider has failed. -/
def tryInvite : DispositionM (Option ProviderInviteReceipt) :=
  tryCatch
    (do
      let invite ← request (inviteUser command.entry.normalizedEmail (inviteOwner deps command))
      return some invite)
    fun _ => return none

/-- The invitation is taken back. -/
def compensateInvite (invite : ProviderInviteReceipt) : DispositionM Compensation :=
  tryCatch
    (do
      let _ ← request (removeOwnedInvitation invite.invitationId (inviteOwner deps command))
      return .SUCCEEDED)
    fun _ => return .FAILED

/-- `finalizeReinvite` once the invitation is out, and what becomes of it where that fails. -/
def finishReinvite
    (plan : AuthDispositionPlan) (invite : ProviderInviteReceipt) : DispositionM DispositionOutcome :=
  tryCatch
    (do
      let _ ← storeMutation (finalizeReinvite deps command invite.userId)
        "AUTH_STORE_REINVITE_FINALIZE_FAILED"
      return .applied)
    fun _ => do
      let compensation ← compensateInvite deps command invite
      recordPartial command plan .PROVIDER_APPLIED_DB_FAILED compensation
        (if compensation = .SUCCEEDED then "AUTH_REINVITE_FINALIZE_FAILED_COMPENSATED"
          else "AUTH_REINVITE_COMPENSATION_FAILED")
      return .partially

/-- Claim, invitation, identity. -/
def applyReinvite (plan : AuthDispositionPlan) : DispositionM DispositionOutcome := do
  let claim ← storeMutation (claimReinvite deps command) "AUTH_STORE_REINVITE_CLAIM_FAILED"
  if claim = .unchanged then return .unchanged
  else
    let invite ← tryInvite deps command
    match invite with
    | none =>
      recordPartial command plan .DB_APPLIED_PROVIDER_FAILED .NOT_APPLICABLE
        "AUTH_REINVITE_PROVIDER_FAILED"
      return .partially
    | some invite => finishReinvite deps command plan invite

/-- The row first, then the provider. -/
def applyDisable (plan : AuthDispositionPlan) : DispositionM DispositionOutcome := do
  let dbOutcome ← storeMutation (applyAtomic deps command) "AUTH_STORE_DISABLE_FAILED"
  if dbOutcome = .unchanged then return .unchanged
  else
    match command.entry.providerUserId with
    | none => throw "AUTH_DISABLE_PROVIDER_USER_REQUIRED"
    | some userId =>
      tryCatch
        (do
          let _ ← request (setUserDisabled userId true)
          return .applied)
        fun _ => do
          recordPartial command plan .DB_APPLIED_PROVIDER_FAILED .NOT_APPLICABLE
            "AUTH_DISABLE_PROVIDER_FAILED"
          return .partially

end

def entryCommand (deps : AuthDispositionDependencies) (refreshed : AuthDispositionPlan)
    (entry : AuthDispositionEntry) : AuthAtomicCommand :=
  { operationId :=
      "auth-op:" ++ deps.bindEntry refreshed.manifestBinding.value entry refreshed.targetSha256
    action := entry.action
    entry
    targetSha256 := refreshed.targetSha256
    lockKeys :=
      ["auth-disposition:" ++ refreshed.projectRef, "auth-disposition:" ++ entry.entryId] }

/-- The body of the loop over the selected entries: what it counts. -/
def applyEntry (deps : AuthDispositionDependencies) (input : AuthDispositionInput)
    (refreshed : AuthDispositionPlan) (plannedEntry : AuthDispositionPlanEntry) :
    DispositionM DispositionOutcome :=
  if plannedEntry.outcome = .UNCHANGED ∨ plannedEntry.action = .KEEP then return .unchanged
  else
    match input.entries.find? fun candidate => candidate.entryId = plannedEntry.entryId with
    | none => throw "AUTH_APPLY_ENTRY_MISSING"
    | some entry =>
      let command := entryCommand deps refreshed entry
      match entry.action with
      | .BOOTSTRAP_SUPER_ADMIN =>
        match deps.bootstrapSuperAdmin with
        | none => throw "AUTH_BOOTSTRAP_ADAPTER_REQUIRED"
        | some service =>
          storeMutation (applyBootstrap deps service command) "AUTH_BOOTSTRAP_SUPER_ADMIN_FAILED"
      | .LINK => storeMutation (applyAtomic deps command) "AUTH_STORE_ATOMIC_APPLY_FAILED"
      | .RE_INVITE => applyReinvite deps command refreshed
      | .DISABLE => applyDisable deps command refreshed
      | .KEEP => return .unchanged -- counted above

/-- The turn goes into the history. -/
def addReport (deps : AuthDispositionDependencies) (input : AuthDispositionInput)
    (refreshed : AuthDispositionPlan) (plannedEntry : AuthDispositionPlanEntry)
    (outcome : DispositionOutcome) (atPlan before : Directory) (w : DispositionWorld) : DispositionWorld :=
  match input.entries.find? fun candidate => candidate.entryId = plannedEntry.entryId with
  | none => w
  | some entry =>
    let report : Report :=
      { entry
        requestId := deps.operationUuid (entryCommand deps refreshed entry).operationId
        planned := plannedEntry.outcome
        outcome
        atPlan
        before
        after := w.directory }
    { w with reports := w.reports ++ [report] }

/-- The loop: what each turn counted. -/
def applySelected (deps : AuthDispositionDependencies) (input : AuthDispositionInput)
    (refreshed : AuthDispositionPlan) (atPlan : Directory) :
    List AuthDispositionPlanEntry → DispositionM (List DispositionOutcome)
  | [] => return []
  | plannedEntry :: rest => do
    let before ← observe (·.directory)
    let outcome ← applyEntry deps input refreshed plannedEntry
    note (addReport deps input refreshed plannedEntry outcome atPlan before)
    return outcome :: (← applySelected deps input refreshed atPlan rest)

structure AuthDispositionApplyConfirmation where
  approved : Bool
  projectRef : String
  releaseGitSha : String
  targetSha256 : String
  planId : String
  action : AuthDispositionAction
  manifestBindingKeyId : String
  manifestHmacSha256 : String

/-- The confirmation of a plan. -/
def confirmationOf (action : AuthDispositionAction) (plan : AuthDispositionPlan) :
    AuthDispositionApplyConfirmation where
  approved := true
  projectRef := plan.projectRef
  releaseGitSha := plan.releaseGitSha
  targetSha256 := plan.targetSha256
  planId := plan.planId
  action := action
  manifestBindingKeyId := plan.manifestBinding.keyId
  manifestHmacSha256 := plan.manifestBinding.value

/-- The report of a run. -/
structure AuthDispositionApplyResult where
  planId : String
  targetSha256 : String
  applied : Nat
  unchanged : Nat
  partially : Nat
  codes : List String

/-- The code of a turn that was applied in part. -/
def partialCode : AuthDispositionAction → List String
  | .RE_INVITE => ["AUTH_REINVITE_PARTIAL"]
  | .DISABLE => ["AUTH_DISABLE_PARTIAL"]
  | _ => []

def assertTargetConfirmation (target : CloudTargetBinding)
    (confirmation : AuthDispositionApplyConfirmation) : Except String Unit :=
  if confirmation.projectRef ≠ target.projectRef then .error "CONFIRM_PROJECT_REF_MISMATCH"
  else if confirmation.releaseGitSha ≠ target.releaseGitSha then .error "CONFIRM_RELEASE_SHA_MISMATCH"
  else if confirmation.targetSha256 ≠ target.targetBindingSha256 then .error "CONFIRM_TARGET_SHA_MISMATCH"
  else .ok ()

/-- The checks of a run before it plans again. -/
def checkApply (input : AuthDispositionInput) (confirmation : AuthDispositionApplyConfirmation)
    (expectedPlan : AuthDispositionPlan) : Except String Unit :=
  if !confirmation.approved then throw "AUTH_APPLY_EXPLICIT_APPROVAL_REQUIRED"
  else do
    validateDispositionInput input
    assertTargetConfirmation input.target confirmation
    if confirmation.planId ≠ expectedPlan.planId then throw "AUTH_APPLY_PLAN_CONFIRMATION_MISMATCH"
    else if confirmation.manifestBindingKeyId ≠ expectedPlan.manifestBinding.keyId ∨
        confirmation.manifestHmacSha256 ≠ expectedPlan.manifestBinding.value then
      throw "AUTH_APPLY_MANIFEST_CONFIRMATION_MISMATCH"

/-- The entries of the confirmed action, none of which may be blocked. -/
def selectEntries (refreshed expectedPlan : AuthDispositionPlan) (action : AuthDispositionAction) :
    Except String (List AuthDispositionPlanEntry) :=
  if refreshed.planId ≠ expectedPlan.planId then .error "AUTH_APPLY_PLAN_STALE"
  else
    let selected := refreshed.entries.filter fun entry => entry.action = action
    if selected.length = 0 then .error "AUTH_APPLY_ACTION_EMPTY"
    else if selected.any fun entry => entry.outcome = .BLOCKED then .error "AUTH_APPLY_ACTION_BLOCKED"
    else .ok selected

def liftExcept {α : Type} : Except String α → DispositionM α
  | .ok a => return a
  | .error e => throw e

/-- Plans again, compares, and takes turn after turn. -/
def applyAuthDisposition (deps : AuthDispositionDependencies) (input : AuthDispositionInput)
    (confirmation : AuthDispositionApplyConfirmation) (expectedPlan : AuthDispositionPlan) :
    DispositionM AuthDispositionApplyResult := do
  liftExcept (checkApply input confirmation expectedPlan)
  let refreshed ← planAuthDisposition deps input
  let selected ← liftExcept (selectEntries refreshed expectedPlan confirmation.action)
  let atPlan ← observe (·.directory)
  let outcomes ← applySelected deps input refreshed atPlan selected
  return {
    planId := refreshed.planId
    targetSha256 := refreshed.targetSha256
    applied := outcomes.count .applied
    unchanged := outcomes.count .unchanged
    partially := outcomes.count .partially
    codes := if .partially ∈ outcomes then partialCode confirmation.action else [] }

end AdsManagement.Maintenance
