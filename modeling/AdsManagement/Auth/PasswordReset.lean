/-
  File:      Auth/PasswordReset.lean
  Subject:   ONE LOCAL ACCOUNT and the calls on it (local-auth.service.ts: login, authenticateSession,
             refresh, acceptSetupToken, completeInitialPassword; local-users.service.ts:
             resetPassword), statement by statement.

  A transaction holds the rows it has locked or written until its end. An update or a select for
  update takes its rows from the snapshot at its start, waits for those that others hold, and looks
  at each again once it has it. What fails, is refused or runs into a deadlock is rolled back
  (`abort`). The clock is left open: a statement may read any time. So is which account may be
  reset. Beside the state stand the number of resets that have committed, and that number at the
  beginning of the transaction that issued a session, at the birth of a credential and at the
  commit of the reset that issued a setup token.

  * `ResetPhase`, `ResetWorld`, `ResetStep`;
  * `ResetEvent` -- a full session is accepted, a password yields a session, a setup token is
    accepted.
-/
import AdsManagement.Auth.SessionRotation
import AdsManagement.Lib.LockedRows
import AdsManagement.Users.Invitations

namespace AdsManagement.Auth

open Lib Users Function

/-! ## 1. Rows -/

structure LocalAccount where
  inviteStatus : InviteStatus
  isActive : Bool

/-- A row of `local_credentials`; `sameCredential` compares all of it. -/
structure LocalCredential where
  algorithm : String
  version : Nat
  costN : Nat
  blockSizeR : Nat
  parallelizationP : Nat
  keyLength : Nat
  salt : String
  passwordHash : String
deriving DecidableEq

structure SetupToken where
  used : Bool
  revoked : Bool
  expiresAt : Nat

/-- Neither used nor revoked. -/
def SetupToken.live (token : SetupToken) : Bool := !token.used && !token.revoked

section

variable (account : LocalAccount)

/-- The account conditions of `acceptSetupToken`. -/
def LocalAccount.mayAccept : Bool :=
  account.isActive &&
    (account.inviteStatus = .INVITED || account.inviteStatus = .VERIFIED_PENDING_PASSWORD)

/-- The account conditions of `completeInitialPassword`. -/
def LocalAccount.mayComplete : Bool :=
  account.isActive && account.inviteStatus = .VERIFIED_PENDING_PASSWORD

/-- The account conditions of `login`. -/
def LocalAccount.mayLogin : Bool :=
  account.isActive && account.inviteStatus = .ACTIVE

/-- The account conditions of `authenticateSession` for a session. -/
def LocalAccount.allows (onboardingOnly : Bool) : Bool :=
  let onboarding := account.inviteStatus = .VERIFIED_PENDING_PASSWORD
  account.isActive && (onboardingOnly = decide onboarding) &&
    (decide onboarding || account.inviteStatus = .ACTIVE)

end

/-- The session conditions of `completeInitialPassword`. -/
def LocalSession.mayComplete (row : LocalSession) (clock : Nat) : Bool :=
  row.onboardingOnly && !row.revoked && clock < row.idleExpiresAt && clock < row.absoluteExpiresAt

/-! ## 2. Calls -/

/-- Where a call stands; `since` is the number of resets at the beginning of its transaction. -/
inductive ResetPhase where
  | idle
  -- login
  | loginFound (password : String) (account : LocalAccount)
  | loginVerified (password : String) (credential : LocalCredential)
  | loginBegun (password : String) (credential : LocalCredential) (since : Nat)
  | loginCredentialLocked (password : String) (credential : LocalCredential) (since : Nat)
  | loginLocked (password : String) (credential : LocalCredential) (since : Nat)
  | loginInserted (password : String) (credential : LocalCredential) (id : String)
  -- authenticateSession and refresh
  | authenticating (token : String) (purpose : AuthPurpose)
  | touched (token : String) (purpose : AuthPurpose) (id : String) (onboardingOnly rotationDue : Bool)
  | revoking (token : String) (purpose : AuthPurpose) (id : String)
  | rotating (token : String) (id : String)
  | revokingFamily (token : String)
  -- acceptSetupToken
  | acceptBegun (hash : String) (since : Nat)
  | acceptFound (hash : String) (since : Nat)
  | acceptTokenLocked (hash : String) (since : Nat)
  | acceptLocked (hash : String) (since : Nat)
  | acceptUsed (hash : String) (since : Nat)
  | acceptUpdated (hash : String) (since : Nat)
  | acceptInserted (hash : String) (id : String)
  -- completeInitialPassword
  | completeHashed (id : String) (credential : LocalCredential)
  | completeBegun (id : String) (credential : LocalCredential) (since : Nat)
  | completeFound (id : String) (credential : LocalCredential) (since : Nat)
  | completeSessionLocked (id : String) (credential : LocalCredential) (since : Nat)
  | completeLocked (credential : LocalCredential) (since : Nat)
  | completeStored (credential : LocalCredential) (since : Nat)
  | completeUpdated (credential : LocalCredential) (since : Nat)
  | completeRevoking (credential : LocalCredential) (since : Nat) (pending : String → Bool)
  | completeInserted (credential : LocalCredential) (id : String)
  -- resetPassword
  | resetBegun
  | resetLocked
  | resetChecked
  | resetRevokingTokens (pending : String → Bool)
  | resetRevokingSessions (pending : String → Bool)
  | resetIssued (hash : String)
  | resetUpdated (hash : String)
  | ended

/-- The setup token a call was given. -/
def ResetPhase.presents : ResetPhase → Option String
  | .acceptBegun hash _ => some hash
  | .acceptFound hash _ => some hash
  | .acceptTokenLocked hash _ => some hash
  | .acceptLocked hash _ => some hash
  | .acceptUsed hash _ => some hash
  | .acceptUpdated hash _ => some hash
  | .acceptInserted hash _ => some hash
  | _ => none

/-- A call within its transaction. -/
def ResetPhase.inTransaction : ResetPhase → Bool
  | .idle => false
  | .loginFound _ _ => false
  | .loginVerified _ _ => false
  | .authenticating _ _ => false
  | .touched _ _ _ _ _ => false
  | .revoking _ _ _ => false
  | .rotating _ _ => false
  | .revokingFamily _ => false
  | .completeHashed _ _ => false
  | .ended => false
  | _ => true

inductive ResetEvent where
  | quiet
  | accepted (id : String)
  | signedIn (password : String) (credential : LocalCredential)
  | setupAccepted (hash : String)
  | completed
  | reset

variable {π : Type}

structure ResetWorld (π : Type) where
  account : Cell π LocalAccount
  credential : Cell π LocalCredential
  /-- By the hash of the token. -/
  tokens : String → Cell π SetupToken
  /-- By their ids. -/
  sessions : String → Cell π LocalSession
  /-- The advisory locks of `resetPassword`. -/
  resetLock : Option π
  phase : π → ResetPhase
  resets : Nat
  sessionSince : String → Option Nat
  credentialSince : LocalCredential → Option Nat
  tokenSince : String → Option Nat
  /-- The setup tokens that were accepted. -/
  acceptedTokens : List String

/-- `authenticateSession` has thrown. -/
def afterRefusal (token : String) : AuthPurpose → ResetPhase
  | .refresh => .revokingFamily token
  | _ => .ended

/-- `authenticateSession` has found that the account allows the session. -/
def afterAllowed (token id : String) : AuthPurpose → ResetPhase
  | .refresh => .rotating token id
  | _ => .ended

/-- A request with a full session whose token is due for rotation is turned away. -/
def allowedEvent (id : String) (onboardingOnly due : Bool) (purpose : AuthPurpose) : ResetEvent :=
  if onboardingOnly then .quiet
  else if purpose = .request ∧ due = true then .quiet
  else .accepted id

section Steps

variable [DecidableEq π]

namespace ResetWorld

section

variable (w : ResetWorld π) (p : π)

def goto (phase : ResetPhase) : ResetWorld π :=
  { w with phase := update w.phase p phase }

def writeAccount (account : LocalAccount) : ResetWorld π :=
  { w with account := w.account.lock p account }

def writeCredential (credential : LocalCredential) : ResetWorld π :=
  { w with credential := w.credential.lock p credential }

def writeToken (hash : String) (token : SetupToken) : ResetWorld π :=
  { w with tokens := update w.tokens hash ((w.tokens hash).lock p token) }

def writeSession (id : String) (row : LocalSession) : ResetWorld π :=
  { w with sessions := update w.sessions id ((w.sessions id).lock p row) }

end

/-- A statement outside a transaction, on a row that nobody holds. -/
def setSession (w : ResetWorld π) (id : String) (row : LocalSession) : ResetWorld π :=
  { w with sessions := update w.sessions id ⟨some row, none⟩ }

section

variable (w : ResetWorld π) (p : π)

def commit : ResetWorld π :=
  { w with
    account := w.account.commit p
    credential := w.credential.commit p
    tokens := fun hash => (w.tokens hash).commit p
    sessions := fun id => (w.sessions id).commit p
    phase := update w.phase p .ended
    resetLock := if w.resetLock = some p then none else w.resetLock }

def abort : ResetWorld π :=
  { w with
    account := w.account.abort p
    credential := w.credential.abort p
    tokens := fun hash => (w.tokens hash).abort p
    sessions := fun id => (w.sessions id).abort p
    phase := update w.phase p .ended
    resetLock := if w.resetLock = some p then none else w.resetLock }

/-- `issueSession` within a transaction. -/
def insertSession (row : LocalSession) (since : Nat) : ResetWorld π :=
  { w.writeSession p row.id row with sessionSince := update w.sessionSince row.id (some since) }

/-- The commit of a reset: the setup token it has issued is handed out. -/
def commitReset (hash : String) : ResetWorld π :=
  { w.commit p with
    resets := w.resets + 1
    tokenSince := update w.tokenSince hash (some (w.resets + 1)) }

/-- The sessions that are not revoked, in the snapshot of a statement. -/
def unrevoked (id : String) : Bool :=
  ((w.sessions id).newest p).any fun row => !row.revoked

/-- The tokens that are neither used nor revoked, in the snapshot of a statement. -/
def liveTokens (hash : String) : Bool :=
  ((w.tokens hash).newest p).any SetupToken.live

end

end ResetWorld

/-- A new session id. -/
structure NewSession (w : ResetWorld π) (id : String) : Prop where
  committed : (w.sessions id).committed = none
  held : (w.sessions id).held = none
  since : w.sessionSince id = none

/-- `login`; `verify` is `verifyCredential`. -/
inductive LoginStep (config : LocalSessionConfig) (crypto : TokenCrypto)
    (verify : String → LocalCredential → Bool)
    (w : ResetWorld π) (p : π) : ResetEvent → ResetWorld π → Prop
  -- two reads, and the verification
  | find (password : String) (account : LocalAccount) (h : w.phase p = .idle)
      (ha : w.account.committed = some account) :
      LoginStep config crypto verify w p .quiet (w.goto p (.loginFound password account))
  | verify (password : String) (account : LocalAccount) (credential : LocalCredential)
      (h : w.phase p = .loginFound password account) (hc : w.credential.committed = some credential)
      (hv : verify password credential = true) (hm : account.mayLogin = true) :
      LoginStep config crypto verify w p .quiet (w.goto p (.loginVerified password credential))
  | refuse (password : String) (account : LocalAccount)
      (h : w.phase p = .loginFound password account)
      (hr : ∀ credential, w.credential.committed = some credential →
        verify password credential = true → account.mayLogin = false) :
      LoginStep config crypto verify w p .quiet (w.goto p .ended)
  | start (password : String) (credential : LocalCredential)
      (h : w.phase p = .loginVerified password credential) :
      LoginStep config crypto verify w p .quiet (w.goto p (.loginBegun password credential w.resets))
  -- FOR UPDATE OF credential, account
  | lockCredential (password : String) (credential current : LocalCredential) (since : Nat)
      (h : w.phase p = .loginBegun password credential since) (hfree : w.credential.Free p)
      (hc : w.credential.committed = some current) :
      LoginStep config crypto verify w p .quiet
        ((w.writeCredential p current).goto p (.loginCredentialLocked password credential since))
  | lockAccount (password : String) (credential : LocalCredential) (account : LocalAccount)
      (since : Nat) (h : w.phase p = .loginCredentialLocked password credential since)
      (hfree : w.account.Free p) (ha : w.account.committed = some account) :
      LoginStep config crypto verify w p .quiet
        ((w.writeAccount p account).goto p (.loginLocked password credential since))
  | insert (password : String) (credential : LocalCredential) (account : LocalAccount)
      (since : Nat) (token : SessionToken) (clock clock' : Nat)
      (h : w.phase p = .loginLocked password credential since)
      (ha : w.account.newest p = some account) (hm : account.mayLogin = true)
      (hc : w.credential.newest p = some credential) (hnew : NewSession w token.sessionId) :
      LoginStep config crypto verify w p .quiet
        ((w.insertSession p (issueSession config crypto token false clock clock') since).goto p
          (.loginInserted password credential token.sessionId))
  | commit (password : String) (credential : LocalCredential) (id : String)
      (h : w.phase p = .loginInserted password credential id) :
      LoginStep config crypto verify w p (.signedIn password credential) (w.commit p)

/-- `authenticateSession`, for whatever token, and `refresh`. -/
inductive AuthenticateStep (config : LocalSessionConfig) (crypto : TokenCrypto)
    (w : ResetWorld π) (p : π) : ResetEvent → ResetWorld π → Prop
  | present (token : String) (purpose : AuthPurpose) (h : w.phase p = .idle) :
      AuthenticateStep config crypto w p .quiet (w.goto p (.authenticating token purpose))
  | touch (token : String) (purpose : AuthPurpose) (id : String) (row : LocalSession)
      (clock clock' : Nat) (h : w.phase p = .authenticating token purpose)
      (hheld : (w.sessions id).held = none) (hrow : (w.sessions id).committed = some row)
      (ha : row.accepts (tokenHash crypto token) purpose clock = true) :
      AuthenticateStep config crypto w p .quiet
        ((w.setSession id (touchRow config (tokenHash crypto token) purpose clock clock' row)).goto p
          (.touched token purpose id row.onboardingOnly (rotationDue config row clock')))
  | touchNothing (token : String) (purpose : AuthPurpose) (clock : Nat)
      (h : w.phase p = .authenticating token purpose)
      (hn : ∀ id row, (w.sessions id).committed = some row →
        row.accepts (tokenHash crypto token) purpose clock = false) :
      AuthenticateStep config crypto w p .quiet (w.goto p (afterRefusal token purpose))
  | allow (token : String) (purpose : AuthPurpose) (id : String) (onboardingOnly due : Bool)
      (account : LocalAccount) (h : w.phase p = .touched token purpose id onboardingOnly due)
      (ha : w.account.committed = some account) (hok : account.allows onboardingOnly = true) :
      AuthenticateStep config crypto w p (allowedEvent id onboardingOnly due purpose)
        (w.goto p (afterAllowed token id purpose))
  | deny (token : String) (purpose : AuthPurpose) (id : String) (onboardingOnly due : Bool)
      (h : w.phase p = .touched token purpose id onboardingOnly due)
      (hok : ∀ account, w.account.committed = some account → account.allows onboardingOnly = false) :
      AuthenticateStep config crypto w p .quiet (w.goto p (.revoking token purpose id))
  | revokeOne (token : String) (purpose : AuthPurpose) (id : String) (row : LocalSession)
      (h : w.phase p = .revoking token purpose id) (hheld : (w.sessions id).held = none)
      (hrow : (w.sessions id).committed = some row) :
      AuthenticateStep config crypto w p .quiet
        ((w.setSession id { row with revoked := true }).goto p (afterRefusal token purpose))
  | revokeNothing (token : String) (purpose : AuthPurpose) (id : String)
      (h : w.phase p = .revoking token purpose id)
      (hn : ∀ row, (w.sessions id).committed = some row → row.revoked = true) :
      AuthenticateStep config crypto w p .quiet (w.goto p (afterRefusal token purpose))
  -- refresh
  | rotate (token id : String) (next : SessionToken) (row : LocalSession) (clock clock' : Nat)
      (h : w.phase p = .rotating token id) (hheld : (w.sessions id).held = none)
      (hrow : (w.sessions id).committed = some row)
      (hr : row.rotates id (tokenHash crypto token) clock = true) (hid : next.sessionId = id) :
      AuthenticateStep config crypto w p .quiet
        ((w.setSession id (rotateRow id (tokenHash crypto token) (tokenHash crypto (next.text crypto))
          clock clock' row)).goto p .ended)
  | race (token id : String) (clock : Nat) (h : w.phase p = .rotating token id)
      (hn : ∀ row, (w.sessions id).committed = some row →
        row.rotates id (tokenHash crypto token) clock = false) :
      AuthenticateStep config crypto w p .quiet (w.goto p .ended)
  | revokeFamily (token id : String) (row : LocalSession) (h : w.phase p = .revokingFamily token)
      (hid : validSessionFamilyId crypto token = some id) (hheld : (w.sessions id).held = none)
      (hrow : (w.sessions id).committed = some row) :
      AuthenticateStep config crypto w p .quiet
        ((w.setSession id { row with revoked := true }).goto p .ended)
  | revokeNoFamily (token : String) (h : w.phase p = .revokingFamily token)
      (hn : ∀ id row, validSessionFamilyId crypto token = some id →
        (w.sessions id).committed = some row → row.revoked = true) :
      AuthenticateStep config crypto w p .quiet (w.goto p .ended)

/-- `acceptSetupToken`, for whatever token. -/
inductive AcceptStep (config : LocalSessionConfig) (crypto : TokenCrypto)
    (w : ResetWorld π) (p : π) : ResetEvent → ResetWorld π → Prop
  | start (hash : String) (h : w.phase p = .idle) :
      AcceptStep config crypto w p .quiet (w.goto p (.acceptBegun hash w.resets))
  -- FOR UPDATE OF token, account: the rows are found, locked one by one and looked at again
  | find (hash : String) (since : Nat) (token : SetupToken) (account : LocalAccount)
      (clock : Nat) (h : w.phase p = .acceptBegun hash since)
      (ht : (w.tokens hash).committed = some token) (hlive : token.live = true)
      (hclock : clock < token.expiresAt) (ha : w.account.committed = some account)
      (hm : account.mayAccept = true) :
      AcceptStep config crypto w p .quiet (w.goto p (.acceptFound hash since))
  | lockToken (hash : String) (since : Nat) (token : SetupToken)
      (h : w.phase p = .acceptFound hash since) (hfree : (w.tokens hash).Free p)
      (ht : (w.tokens hash).committed = some token) :
      AcceptStep config crypto w p .quiet
        ((w.writeToken p hash token).goto p (.acceptTokenLocked hash since))
  | lockAccount (hash : String) (since : Nat) (token : SetupToken) (account : LocalAccount)
      (clock : Nat) (h : w.phase p = .acceptTokenLocked hash since) (hfree : w.account.Free p)
      (ha : w.account.committed = some account) (hm : account.mayAccept = true)
      (ht : (w.tokens hash).held = some (p, token)) (hlive : token.live = true)
      (hclock : clock < token.expiresAt) :
      AcceptStep config crypto w p .quiet
        ((w.writeAccount p account).goto p (.acceptLocked hash since))
  | use (hash : String) (since : Nat) (token : SetupToken)
      (h : w.phase p = .acceptLocked hash since) (ht : (w.tokens hash).newest p = some token)
      (hlive : token.live = true) :
      AcceptStep config crypto w p .quiet
        ((w.writeToken p hash { token with used := true }).goto p (.acceptUsed hash since))
  | update (hash : String) (since : Nat) (account : LocalAccount)
      (h : w.phase p = .acceptUsed hash since) (hfree : w.account.Free p)
      (ha : w.account.newest p = some account) :
      AcceptStep config crypto w p .quiet
        ((w.writeAccount p { account with inviteStatus := .VERIFIED_PENDING_PASSWORD }).goto p
          (.acceptUpdated hash since))
  | insert (hash : String) (since : Nat) (token : SessionToken) (clock clock' : Nat)
      (h : w.phase p = .acceptUpdated hash since) (hnew : NewSession w token.sessionId) :
      AcceptStep config crypto w p .quiet
        ((w.insertSession p (issueSession config crypto token true clock clock') since).goto p
          (.acceptInserted hash token.sessionId))
  | commit (hash id : String) (h : w.phase p = .acceptInserted hash id) :
      AcceptStep config crypto w p (.setupAccepted hash)
        { w.commit p with acceptedTokens := hash :: w.acceptedTokens }

/-- `completeInitialPassword`, with a session that was authenticated. -/
inductive CompleteStep (config : LocalSessionConfig) (crypto : TokenCrypto)
    (w : ResetWorld π) (p : π) : ResetEvent → ResetWorld π → Prop
  | hash (id : String) (row : LocalSession) (credential : LocalCredential)
      (h : w.phase p = .idle) (hrow : (w.sessions id).committed = some row)
      (hnew : w.credentialSince credential = none) :
      CompleteStep config crypto w p .quiet
        { w.goto p (.completeHashed id credential) with
          credentialSince := update w.credentialSince credential (some w.resets) }
  | start (id : String) (credential : LocalCredential)
      (h : w.phase p = .completeHashed id credential) :
      CompleteStep config crypto w p .quiet (w.goto p (.completeBegun id credential w.resets))
  -- FOR UPDATE OF session, account
  | find (id : String) (credential : LocalCredential) (since : Nat) (row : LocalSession)
      (account : LocalAccount) (clock : Nat) (h : w.phase p = .completeBegun id credential since)
      (hrow : (w.sessions id).committed = some row) (hok : row.mayComplete clock = true)
      (ha : w.account.committed = some account) (hm : account.mayComplete = true) :
      CompleteStep config crypto w p .quiet (w.goto p (.completeFound id credential since))
  | lockSession (id : String) (credential : LocalCredential) (since : Nat)
      (row : LocalSession) (h : w.phase p = .completeFound id credential since)
      (hfree : (w.sessions id).Free p) (hrow : (w.sessions id).committed = some row) :
      CompleteStep config crypto w p .quiet
        ((w.writeSession p id row).goto p (.completeSessionLocked id credential since))
  | lockAccount (id : String) (credential : LocalCredential) (since : Nat)
      (row : LocalSession) (account : LocalAccount) (clock : Nat)
      (h : w.phase p = .completeSessionLocked id credential since) (hfree : w.account.Free p)
      (ha : w.account.committed = some account) (hm : account.mayComplete = true)
      (hrow : (w.sessions id).held = some (p, row)) (hok : row.mayComplete clock = true) :
      CompleteStep config crypto w p .quiet
        ((w.writeAccount p account).goto p (.completeLocked credential since))
  | store (credential : LocalCredential) (since : Nat)
      (h : w.phase p = .completeLocked credential since) (hfree : w.credential.Free p) :
      CompleteStep config crypto w p .quiet
        ((w.writeCredential p credential).goto p (.completeStored credential since))
  | update (credential : LocalCredential) (since : Nat) (account : LocalAccount)
      (h : w.phase p = .completeStored credential since) (hfree : w.account.Free p)
      (ha : w.account.newest p = some account) :
      CompleteStep config crypto w p .quiet
        ((w.writeAccount p { account with inviteStatus := .ACTIVE }).goto p
          (.completeUpdated credential since))
  | snapshot (credential : LocalCredential) (since : Nat)
      (h : w.phase p = .completeUpdated credential since) :
      CompleteStep config crypto w p .quiet
        (w.goto p (.completeRevoking credential since (w.unrevoked p)))
  | revoke (credential : LocalCredential) (since : Nat) (pending : String → Bool)
      (id : String) (row : LocalSession) (h : w.phase p = .completeRevoking credential since pending)
      (hid : pending id = true) (hfree : (w.sessions id).Free p)
      (hrow : (w.sessions id).newest p = some row) (hr : row.revoked = false) :
      CompleteStep config crypto w p .quiet
        ((w.writeSession p id { row with revoked := true }).goto p
          (.completeRevoking credential since (update pending id false)))
  | skip (credential : LocalCredential) (since : Nat) (pending : String → Bool)
      (id : String) (row : LocalSession) (h : w.phase p = .completeRevoking credential since pending)
      (hid : pending id = true) (hfree : (w.sessions id).Free p)
      (hrow : (w.sessions id).newest p = some row) (hr : row.revoked = true) :
      CompleteStep config crypto w p .quiet
        (w.goto p (.completeRevoking credential since (update pending id false)))
  | insert (credential : LocalCredential) (since : Nat) (pending : String → Bool)
      (token : SessionToken) (clock clock' : Nat)
      (h : w.phase p = .completeRevoking credential since pending) (hdone : ∀ id, pending id = false)
      (hnew : NewSession w token.sessionId) :
      CompleteStep config crypto w p .quiet
        ((w.insertSession p (issueSession config crypto token false clock clock') since).goto p
          (.completeInserted credential token.sessionId))
  | commit (credential : LocalCredential) (id : String)
      (h : w.phase p = .completeInserted credential id) :
      CompleteStep config crypto w p .completed (w.commit p)

/-- `resetPassword`. -/
inductive ResetPasswordStep
    (w : ResetWorld π) (p : π) : ResetEvent → ResetWorld π → Prop
  | start (h : w.phase p = .idle) :
      ResetPasswordStep w p .quiet (w.goto p .resetBegun)
  | lock (h : w.phase p = .resetBegun) (hfree : w.resetLock = none) :
      ResetPasswordStep w p .quiet { w.goto p .resetLocked with resetLock := some p }
  | check (account : LocalAccount) (h : w.phase p = .resetLocked)
      (ha : w.account.committed = some account) (hm : account.isActive = true) :
      ResetPasswordStep w p .quiet (w.goto p .resetChecked)
  | snapshotTokens (h : w.phase p = .resetChecked) :
      ResetPasswordStep w p .quiet (w.goto p (.resetRevokingTokens (w.liveTokens p)))
  | revokeToken (pending : String → Bool) (hash : String) (token : SetupToken)
      (h : w.phase p = .resetRevokingTokens pending) (hid : pending hash = true)
      (hfree : (w.tokens hash).Free p) (ht : (w.tokens hash).newest p = some token)
      (hlive : token.live = true) :
      ResetPasswordStep w p .quiet
        ((w.writeToken p hash { token with revoked := true }).goto p
          (.resetRevokingTokens (update pending hash false)))
  | skipToken (pending : String → Bool) (hash : String) (token : SetupToken)
      (h : w.phase p = .resetRevokingTokens pending) (hid : pending hash = true)
      (hfree : (w.tokens hash).Free p) (ht : (w.tokens hash).newest p = some token)
      (hlive : token.live = false) :
      ResetPasswordStep w p .quiet
        (w.goto p (.resetRevokingTokens (update pending hash false)))
  | snapshotSessions (pending : String → Bool) (h : w.phase p = .resetRevokingTokens pending)
      (hdone : ∀ hash, pending hash = false) :
      ResetPasswordStep w p .quiet (w.goto p (.resetRevokingSessions (w.unrevoked p)))
  | revokeSession (pending : String → Bool) (id : String) (row : LocalSession)
      (h : w.phase p = .resetRevokingSessions pending) (hid : pending id = true)
      (hfree : (w.sessions id).Free p) (hrow : (w.sessions id).newest p = some row)
      (hr : row.revoked = false) :
      ResetPasswordStep w p .quiet
        ((w.writeSession p id { row with revoked := true }).goto p
          (.resetRevokingSessions (update pending id false)))
  | skipSession (pending : String → Bool) (id : String) (row : LocalSession)
      (h : w.phase p = .resetRevokingSessions pending) (hid : pending id = true)
      (hfree : (w.sessions id).Free p) (hrow : (w.sessions id).newest p = some row)
      (hr : row.revoked = true) :
      ResetPasswordStep w p .quiet
        (w.goto p (.resetRevokingSessions (update pending id false)))
  | createSetupToken (pending : String → Bool) (hash : String) (expiresAt : Nat)
      (h : w.phase p = .resetRevokingSessions pending) (hdone : ∀ id, pending id = false)
      (hnew : (w.tokens hash).committed = none) (hheld : (w.tokens hash).held = none) :
      ResetPasswordStep w p .quiet
        ((w.writeToken p hash ⟨false, false, expiresAt⟩).goto p (.resetIssued hash))
  | update (hash : String) (account : LocalAccount) (h : w.phase p = .resetIssued hash)
      (hfree : w.account.Free p) (ha : w.account.newest p = some account) :
      ResetPasswordStep w p .quiet
        ((w.writeAccount p { account with inviteStatus := .INVITED }).goto p (.resetUpdated hash))
  -- nobody has been given the new setup token before
  | commit (hash : String) (h : w.phase p = .resetUpdated hash)
      (hsecret : ∀ q, (w.phase q).presents ≠ some hash) :
      ResetPasswordStep w p .reset (w.commitReset p hash)

/-- What fails within a transaction is rolled back. -/
inductive ResetStep (config : LocalSessionConfig) (crypto : TokenCrypto)
    (verify : String → LocalCredential → Bool) (w : ResetWorld π) (p : π) :
    ResetEvent → ResetWorld π → Prop
  | login {event : ResetEvent} {w' : ResetWorld π} (h : LoginStep config crypto verify w p event w') :
      ResetStep config crypto verify w p event w'
  | authenticate {event : ResetEvent} {w' : ResetWorld π}
      (h : AuthenticateStep config crypto w p event w') : ResetStep config crypto verify w p event w'
  | accept {event : ResetEvent} {w' : ResetWorld π} (h : AcceptStep config crypto w p event w') :
      ResetStep config crypto verify w p event w'
  | complete {event : ResetEvent} {w' : ResetWorld π} (h : CompleteStep config crypto w p event w') :
      ResetStep config crypto verify w p event w'
  | resetPassword {event : ResetEvent} {w' : ResetWorld π} (h : ResetPasswordStep w p event w') :
      ResetStep config crypto verify w p event w'
  | abort (h : (w.phase p).inTransaction = true) :
      ResetStep config crypto verify w p .quiet (w.abort p)

end Steps

/-- The rows of one account, whatever they are, and no call. -/
structure ResetStart (w : ResetWorld π) : Prop where
  account : w.account.held = none
  credential : w.credential.held = none
  tokens : ∀ hash, (w.tokens hash).held = none
  sessions : ∀ id, (w.sessions id).held = none
  phase : ∀ p, w.phase p = .idle
  resets : w.resets = 0
  sessionSince : ∀ id, w.sessionSince id = (w.sessions id).committed.map fun _ => 0
  credentialSince : ∀ credential,
    w.credentialSince credential = if w.credential.committed = some credential then some 0 else none
  tokenSince : ∀ hash, w.tokenSince hash = (w.tokens hash).committed.map fun _ => 0
  acceptedTokens : w.acceptedTokens = []

end AdsManagement.Auth
