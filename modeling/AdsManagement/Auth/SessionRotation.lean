/-
  File:      Auth/SessionRotation.lean
  Subject:   LOCAL SESSIONS AND THE ROTATION OF THEIR TOKENS (local-auth.service.ts: issueSession,
             authenticateSession, refresh, logout) as statements on `app_auth_sessions`.

  A call runs one statement after another, and between two of them any other call may move. A
  token that is presented is any text. The clock of the database never goes back; a statement
  reads it when it looks for its row and again when it writes. What the account of a session allows
  is decided elsewhere and may change at any time. Beside the table stand, for what is to be
  proved, the tokens that were issued and the rotations that took place; a new token is one that
  nobody has presented and that was not issued before.

  * `LocalSession.accepts`, `touchRow`, `rotateRow` -- the statements;
  * `SessionPhase`, `SessionStep` -- the calls as processes;
  * `SessionEvent` -- what a step does that matters: a session is issued, a token accepted or
    rotated.
-/
import AdsManagement.Auth.SessionTokens

namespace AdsManagement.Auth

/-! ## 1. Rows and statements -/

/-- The lifetimes of a local session; `loadAuthConfig` refuses others. -/
structure LocalSessionConfig where
  idleTtlMs : Nat
  absoluteTtlMs : Nat
  rotationTtlMs : Nat
  idle_le_absolute : idleTtlMs ≤ absoluteTtlMs

structure LocalSession where
  id : String
  localTokenHash : String
  previousLocalTokenHash : Option String
  previousTokenValidUntil : Option Nat
  idleExpiresAt : Nat
  absoluteExpiresAt : Nat
  onboardingOnly : Bool
  revoked : Bool
  refreshedAt : Option Nat
  createdAt : Nat

/-- How long a token that was rotated out can still be refreshed with. -/
def rotationGraceMs : Nat := 5000

/-- What a token is presented for: a request, the question whether a browser is signed in, or
    `refresh`. -/
inductive AuthPurpose where
  | request
  | browserCheck
  | refresh
deriving DecidableEq

def AuthPurpose.allowsPrevious : AuthPurpose → Bool
  | .request => false
  | .browserCheck => true
  | .refresh => true

/-- The condition of the update in `authenticateSession`. -/
def LocalSession.accepts (row : LocalSession) (hash : String) (purpose : AuthPurpose) (clock : Nat) :
    Bool :=
  (row.localTokenHash = hash ||
      (purpose.allowsPrevious && row.previousLocalTokenHash = some hash &&
        row.previousTokenValidUntil.any (clock < ·))) &&
    !row.revoked && clock < row.idleExpiresAt && clock < row.absoluteExpiresAt

/-- What that update writes. -/
def touchRow (config : LocalSessionConfig) (hash : String) (purpose : AuthPurpose) (clock clock' : Nat)
    (row : LocalSession) : LocalSession :=
  if row.accepts hash purpose clock then
    { row with idleExpiresAt := min row.absoluteExpiresAt (clock' + config.idleTtlMs) }
  else row

def rotationDue (config : LocalSessionConfig) (row : LocalSession) (clock : Nat) : Bool :=
  row.refreshedAt.getD row.createdAt + config.rotationTtlMs ≤ clock

/-- The condition of the update in `refresh`. -/
def LocalSession.rotates (row : LocalSession) (sessionId oldHash : String) (clock : Nat) : Bool :=
  row.id = sessionId && row.localTokenHash = oldHash && !row.revoked && clock < row.absoluteExpiresAt

/-- What that update writes. -/
def rotateRow (sessionId oldHash nextHash : String) (clock clock' : Nat) (row : LocalSession) :
    LocalSession :=
  if row.rotates sessionId oldHash clock then
    { row with
      previousLocalTokenHash := some row.localTokenHash
      previousTokenValidUntil := some (clock' + rotationGraceMs)
      localTokenHash := nextHash
      refreshedAt := some clock' }
  else row

/-- `revokeSessionById`. -/
def revokeRow (sessionId : String) (row : LocalSession) : LocalSession :=
  if row.id = sessionId then { row with revoked := true } else row

/-- The update in `logout` for a token that names no session. -/
def revokeHashRow (hash : String) (clock : Nat) (row : LocalSession) : LocalSession :=
  if row.localTokenHash = hash ||
      (row.previousLocalTokenHash = some hash && row.previousTokenValidUntil.any (clock < ·)) then
    { row with revoked := true }
  else row

/-- `issueSession`; the two lifetimes are counted from two readings of the clock. -/
def issueSession (config : LocalSessionConfig) (crypto : TokenCrypto) (token : SessionToken)
    (onboardingOnly : Bool) (clock clock' : Nat) : LocalSession where
  id := token.sessionId
  localTokenHash := tokenHash crypto (token.text crypto)
  previousLocalTokenHash := none
  previousTokenValidUntil := none
  idleExpiresAt := clock + config.idleTtlMs
  absoluteExpiresAt := clock' + config.absoluteTtlMs
  onboardingOnly := onboardingOnly
  revoked := false
  refreshedAt := none
  createdAt := clock'

/-- The revocation after a `refresh` that was not authenticated. -/
def revokeFamily (crypto : TokenCrypto) (token : String) (sessions : List LocalSession) :
    List LocalSession :=
  match validSessionFamilyId crypto token with
  | some id => sessions.map (revokeRow id)
  | none => sessions

/-- The statement of `logout`. -/
def logoutSessions (crypto : TokenCrypto) (token : String) (clock : Nat) (sessions : List LocalSession) :
    List LocalSession :=
  match validSessionFamilyId crypto token with
  | some id => sessions.map (revokeRow id)
  | none => sessions.map (revokeHashRow (tokenHash crypto token) clock)

/-! ## 2. Calls -/

/-- Where a call stands. -/
inductive SessionPhase where
  | idle
  | authenticating (token : String) (purpose : AuthPurpose)
  | touched (token : String) (purpose : AuthPurpose) (sessionId : String)
      (onboardingOnly rotationDue : Bool)
  | revoking (token : String) (purpose : AuthPurpose) (sessionId : String)
  | rotating (token sessionId : String)
  | revokingFamily (token : String)
  | loggingOut (token : String)
  | accepted (token sessionId : String)
  | accessTokenExpired (token : String)
  | renewed (token : String)
  | raced (token : String)
  | refused (token : String)
  | refreshRefused (token : String)
  | loggedOut (token : String)
deriving DecidableEq

/-- The token a call has been given. -/
def SessionPhase.token : SessionPhase → Option String
  | .idle => none
  | .authenticating token _ => some token
  | .touched token _ _ _ _ => some token
  | .revoking token _ _ => some token
  | .rotating token _ => some token
  | .revokingFamily token => some token
  | .loggingOut token => some token
  | .accepted token _ => some token
  | .accessTokenExpired token => some token
  | .renewed token => some token
  | .raced token => some token
  | .refused token => some token
  | .refreshRefused token => some token
  | .loggedOut token => some token

/-- `authenticateSession` has thrown. -/
def failedPhase (token : String) : AuthPurpose → SessionPhase
  | .refresh => .revokingFamily token
  | _ => .refused token

/-- `authenticateSession` has found that the account may use the session. -/
def allowedPhase (token sessionId : String) (onboardingOnly rotationDue : Bool) :
    AuthPurpose → SessionPhase
  | .request =>
    if !onboardingOnly && rotationDue then .accessTokenExpired token else .accepted token sessionId
  | .browserCheck => .accepted token sessionId
  | .refresh => .rotating token sessionId

/-- A token was exchanged for the next one. -/
structure Rotation where
  token : String
  next : SessionToken
  time : Nat

inductive SessionEvent where
  | quiet
  | issued (token : SessionToken)
  | accepted (purpose : AuthPurpose) (token sessionId : String)
  | rotated (rotation : Rotation)

variable {π : Type}

structure SessionWorld (π : Type) where
  now : Nat
  sessions : List LocalSession
  issued : List SessionToken
  rotations : List Rotation
  phase : π → SessionPhase

section Steps

variable [DecidableEq π]

def SessionWorld.goto (w : SessionWorld π) (p : π) (phase : SessionPhase) : SessionWorld π :=
  { w with phase := Function.update w.phase p phase }

/-- A statement that writes rows, and the clock after it. -/
def SessionWorld.write (w : SessionWorld π) (p : π) (clock : Nat) (sessions : List LocalSession)
    (phase : SessionPhase) : SessionWorld π :=
  { w.goto p phase with now := clock, sessions }

/-- A token nobody has presented, that was not issued before. -/
structure NewToken (crypto : TokenCrypto) (w : SessionWorld π) (token : SessionToken) : Prop where
  wellFormed : token.WellFormed
  notIssued : token ∉ w.issued
  notPresented : ∀ p, (w.phase p).token ≠ some (token.text crypto)

inductive SessionStep (config : LocalSessionConfig) (crypto : TokenCrypto) (w : SessionWorld π) :
    SessionEvent → SessionWorld π → Prop
  | tick (ms : Nat) : SessionStep config crypto w .quiet { w with now := w.now + ms }
  -- login, and every other call that issues a session
  | issue (token : SessionToken) (onboardingOnly : Bool) (clock clock' : Nat) (hc : w.now ≤ clock)
      (hc' : clock ≤ clock') (hnew : NewToken crypto w token)
      (hid : ∀ row ∈ w.sessions, row.id ≠ token.sessionId) :
      SessionStep config crypto w (.issued token)
        { w with
          now := clock'
          sessions := issueSession config crypto token onboardingOnly clock clock' :: w.sessions
          issued := token :: w.issued }
  | present (p : π) (token : String) (purpose : AuthPurpose) (h : w.phase p = .idle) :
      SessionStep config crypto w .quiet (w.goto p (.authenticating token purpose))
  | leave (p : π) (token : String) (h : w.phase p = .idle) :
      SessionStep config crypto w .quiet (w.goto p (.loggingOut token))
  -- authenticateSession
  | touch (p : π) (token : String) (purpose : AuthPurpose) (row : LocalSession) (clock clock' : Nat)
      (h : w.phase p = .authenticating token purpose) (hc : w.now ≤ clock) (hc' : clock ≤ clock')
      (hrow : w.sessions.find? (·.accepts (tokenHash crypto token) purpose clock) = some row) :
      SessionStep config crypto w (.accepted purpose token row.id)
        (w.write p clock'
          (w.sessions.map (touchRow config (tokenHash crypto token) purpose clock clock'))
          (.touched token purpose row.id row.onboardingOnly (rotationDue config row clock')))
  | touchNothing (p : π) (token : String) (purpose : AuthPurpose) (clock : Nat)
      (h : w.phase p = .authenticating token purpose) (hc : w.now ≤ clock)
      (hrow : w.sessions.find? (·.accepts (tokenHash crypto token) purpose clock) = none) :
      SessionStep config crypto w .quiet (w.write p clock w.sessions (failedPhase token purpose))
  | allow (p : π) (token : String) (purpose : AuthPurpose) (sessionId : String) (onboardingOnly due : Bool)
      (h : w.phase p = .touched token purpose sessionId onboardingOnly due) :
      SessionStep config crypto w .quiet
        (w.goto p (allowedPhase token sessionId onboardingOnly due purpose))
  | deny (p : π) (token : String) (purpose : AuthPurpose) (sessionId : String) (onboardingOnly due : Bool)
      (h : w.phase p = .touched token purpose sessionId onboardingOnly due) :
      SessionStep config crypto w .quiet (w.goto p (.revoking token purpose sessionId))
  | revokeOne (p : π) (token : String) (purpose : AuthPurpose) (sessionId : String)
      (h : w.phase p = .revoking token purpose sessionId) :
      SessionStep config crypto w .quiet
        (w.write p w.now (w.sessions.map (revokeRow sessionId)) (failedPhase token purpose))
  -- refresh
  | rotate (p : π) (token sessionId : String) (next : SessionToken) (clock clock' : Nat)
      (h : w.phase p = .rotating token sessionId) (hc : w.now ≤ clock) (hc' : clock ≤ clock')
      (hrow : ∃ row ∈ w.sessions, row.rotates sessionId (tokenHash crypto token) clock = true)
      (hnew : NewToken crypto w next) (hid : next.sessionId = sessionId) :
      SessionStep config crypto w (.rotated ⟨token, next, clock'⟩)
        { w.write p clock'
            (w.sessions.map (rotateRow sessionId (tokenHash crypto token)
              (tokenHash crypto (next.text crypto)) clock clock')) (.renewed token) with
          issued := next :: w.issued
          rotations := ⟨token, next, clock'⟩ :: w.rotations }
  | race (p : π) (token sessionId : String) (clock : Nat) (h : w.phase p = .rotating token sessionId)
      (hc : w.now ≤ clock)
      (hrow : ∀ row ∈ w.sessions, row.rotates sessionId (tokenHash crypto token) clock = false) :
      SessionStep config crypto w .quiet (w.write p clock w.sessions (.raced token))
  | revokeFamily (p : π) (token : String) (h : w.phase p = .revokingFamily token) :
      SessionStep config crypto w .quiet
        (w.write p w.now (Auth.revokeFamily crypto token w.sessions) (.refreshRefused token))
  | logout (p : π) (token : String) (clock : Nat) (h : w.phase p = .loggingOut token)
      (hc : w.now ≤ clock) :
      SessionStep config crypto w .quiet
        (w.write p clock (logoutSessions crypto token clock w.sessions) (.loggedOut token))
  -- an administrator
  | revokeElsewhere (sessionId : String) :
      SessionStep config crypto w .quiet
        { w with sessions := w.sessions.map (revokeRow sessionId) }

end Steps

/-- No session, no token and no call. -/
structure SessionStart (w : SessionWorld π) : Prop where
  sessions : w.sessions = []
  issued : w.issued = []
  rotations : w.rotations = []
  phase : ∀ p, w.phase p = .idle

end AdsManagement.Auth
