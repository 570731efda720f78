/-
  File:      Auth/ResetInvariant.lean
  Subject:   THE INVARIANT OF ONE ACCOUNT under logins, setups and password resets.

  The row of the account is what keeps the calls apart: whoever issues a session, stores a password
  or commits a reset holds it to the end of its transaction, so the number of resets stands still
  meanwhile (`ResetFrame.resets_of_holds`). The bulk updates only see what was committed when they
  began; what they miss is caught elsewhere (`Stands`).

  * `Explained` -- a version that a call holds is the committed one, or what its phase says;
  * `Stands` -- what a call in a phase can rely on;
  * `ResetFrame` -- what a step of one call leaves to the others;
  * `ResetInv` -- while the account is active, its password and its full sessions are newer than the
    last reset; setup tokens and onboarding sessions always are;
  * `QuietReset` -- the steps that commit no transaction.
-/
import AdsManagement.Auth.PasswordReset
import AdsManagement.Lib.Runs

namespace AdsManagement.Auth

open Lib Users Function

variable {π : Type} {config : LocalSessionConfig} {crypto : TokenCrypto}
  {verify : String → LocalCredential → Bool} {w w' : ResetWorld π} {p q : π} {phase : ResetPhase}

/-! ## 1. What a call has written -/

/-- The status a call has given to the account. -/
def ResetPhase.writesStatus : ResetPhase → Option InviteStatus
  | .acceptUpdated _ _ => some .VERIFIED_PENDING_PASSWORD
  | .acceptInserted _ _ => some .VERIFIED_PENDING_PASSWORD
  | .completeUpdated _ _ => some .ACTIVE
  | .completeRevoking _ _ _ => some .ACTIVE
  | .completeInserted _ _ => some .ACTIVE
  | .resetUpdated _ => some .INVITED
  | _ => none

def ResetPhase.newCredential : ResetPhase → Option LocalCredential
  | .completeStored credential _ => some credential
  | .completeUpdated credential _ => some credential
  | .completeRevoking credential _ _ => some credential
  | .completeInserted credential _ => some credential
  | _ => none

def ResetPhase.newToken : ResetPhase → Option String
  | .resetIssued hash => some hash
  | .resetUpdated hash => some hash
  | _ => none

/-- The session a call has inserted, and whether it is for onboarding only. -/
def ResetPhase.newSession : ResetPhase → Option (String × Bool)
  | .loginInserted _ _ id => some (id, false)
  | .acceptInserted _ id => some (id, true)
  | .completeInserted _ id => some (id, false)
  | _ => none

/-- What a call holds is as it is committed, or as its phase says; closed rows apart. -/
structure Explained (w : ResetWorld π) (p : π) (phase : ResetPhase) : Prop where
  account : ∀ account, w.account.held = some (p, account) →
    w.account.committed = some account ∨ phase.writesStatus = some account.inviteStatus
  credential : ∀ credential, w.credential.held = some (p, credential) →
    w.credential.committed = some credential ∨ phase.newCredential = some credential
  token : ∀ hash token, (w.tokens hash).held = some (p, token) → token.live = true →
    (w.tokens hash).committed = some token ∨ phase.newToken = some hash
  session : ∀ id row, (w.sessions id).held = some (p, row) → row.revoked = false →
    (w.sessions id).committed = some row ∨ phase.newSession = some (id, row.onboardingOnly)

/-- What is said of a phase is said of the next one too. -/
structure ResetPhase.Extends (phase phase' : ResetPhase) : Prop where
  status : phase.writesStatus = none ∨ phase'.writesStatus = phase.writesStatus
  credential : phase.newCredential = none ∨ phase'.newCredential = phase.newCredential
  token : phase.newToken = none ∨ phase'.newToken = phase.newToken
  session : phase.newSession = none ∨ phase'.newSession = phase.newSession

/-! ## 2. What a call can rely on -/

def HoldsAccount (w : ResetWorld π) (p : π) : Prop := ∃ account, w.account.held = some (p, account)

theorem HoldsAccount.unique (hp : HoldsAccount w p) (hq : HoldsAccount w q) : q = p := by
  obtain ⟨account, hp⟩ := hp
  obtain ⟨account', hq⟩ := hq
  rw [hp] at hq
  cases hq
  rfl

section

variable (w : ResetWorld π)

/-- The credential was made when there were at most so many resets. -/
def MadeBy (credential : LocalCredential) (resets : Nat) : Prop :=
  ∃ k, w.credentialSince credential = some k ∧ k ≤ resets

/-- The setup token is live, and held by the call. -/
def HoldsLive (p : π) (hash : String) : Prop :=
  (∃ token, (w.tokens hash).committed = some token ∧ token.live = true) ∧
    ∃ token, (w.tokens hash).held = some (p, token)

/-- The call has used up the setup token. -/
def HoldsUsed (p : π) (hash : String) : Prop :=
  ∃ token, (w.tokens hash).held = some (p, token) ∧ token.live = false

/-- The call has issued the setup token, which was never accepted. -/
def HoldsNew (p : π) (hash : String) : Prop :=
  hash ∉ w.acceptedTokens ∧ ∃ token, (w.tokens hash).held = some (p, token)

/-- The setup token was not issued after so many resets. -/
def IssuedBy (hash : String) (resets : Nat) : Prop :=
  ∀ k, w.tokenSince hash = some k → k ≤ resets

/-- The session was there before the credential was made, and both before so many resets. -/
def Onboards (id : String) (credential : LocalCredential) (resets : Nat) : Prop :=
  ∃ k j, w.sessionSince id = some k ∧ w.credentialSince credential = some j ∧ k ≤ j ∧ j ≤ resets

end

def LocalSession.isOpen (row : LocalSession) : Bool := !row.revoked

def LocalSession.onboards (row : LocalSession) : Bool := !row.revoked && row.onboardingOnly

/-- The call has the locks of `resetPassword`, and no setup token is live but those it has revoked. -/
def TokensGone (w : ResetWorld π) (p : π) (pending : String → Bool) : Prop :=
  w.resetLock = some p ∧ Swept w.tokens p SetupToken.live pending

/-- The new password is stored, and the account belongs to the call. -/
structure Completing (w : ResetWorld π) (p : π) (credential : LocalCredential) : Prop where
  account : HoldsAccount w p
  since : w.credentialSince credential = some w.resets
  stored : w.credential.held = some (p, credential)

def Stands (w : ResetWorld π) (p : π) : ResetPhase → Prop
  | .loginVerified _ credential => MadeBy w credential w.resets
  | .loginBegun _ credential since => since ≤ w.resets ∧ MadeBy w credential since
  | .loginCredentialLocked _ credential since => since ≤ w.resets ∧ MadeBy w credential since
  | .loginLocked _ credential since => HoldsAccount w p ∧ since ≤ w.resets ∧ MadeBy w credential since
  | .loginInserted _ credential id =>
    HoldsAccount w p ∧ w.credentialSince credential = some w.resets ∧
      w.sessionSince id = some w.resets
  | .acceptBegun hash since => since ≤ w.resets ∧ IssuedBy w hash since
  | .acceptFound hash since => since ≤ w.resets ∧ IssuedBy w hash since
  | .acceptTokenLocked hash since => since ≤ w.resets ∧ IssuedBy w hash since
  | .acceptLocked hash since => HoldsAccount w p ∧ since = w.resets ∧ HoldsLive w p hash
  | .acceptUsed hash since =>
    HoldsAccount w p ∧ since = w.resets ∧ HoldsLive w p hash ∧ HoldsUsed w p hash
  | .acceptUpdated hash since =>
    HoldsAccount w p ∧ since = w.resets ∧ HoldsLive w p hash ∧ HoldsUsed w p hash
  | .acceptInserted hash id =>
    HoldsAccount w p ∧ w.sessionSince id = some w.resets ∧ HoldsLive w p hash ∧ HoldsUsed w p hash
  | .completeHashed id credential => Onboards w id credential w.resets
  | .completeBegun id credential since => since ≤ w.resets ∧ Onboards w id credential since
  | .completeFound id credential since => since ≤ w.resets ∧ Onboards w id credential since
  | .completeSessionLocked id credential since => since ≤ w.resets ∧ Onboards w id credential since
  | .completeLocked credential since =>
    HoldsAccount w p ∧ since = w.resets ∧ w.credentialSince credential = some w.resets
  | .completeStored credential since => since = w.resets ∧ Completing w p credential
  | .completeUpdated credential since => since = w.resets ∧ Completing w p credential
  | .completeRevoking credential since pending =>
    since = w.resets ∧ Completing w p credential ∧ Swept w.sessions p LocalSession.isOpen pending
  | .completeInserted credential id =>
    w.sessionSince id = some w.resets ∧ Completing w p credential ∧
      Swept w.sessions p LocalSession.isOpen fun _ => false
  | .resetLocked => w.resetLock = some p
  | .resetChecked => w.resetLock = some p
  | .resetRevokingTokens pending => TokensGone w p pending
  | .resetRevokingSessions pending =>
    (TokensGone w p fun _ => false) ∧ Swept w.sessions p LocalSession.onboards pending
  | .resetIssued hash =>
    (TokensGone w p fun _ => false) ∧ (Swept w.sessions p LocalSession.onboards fun _ => false) ∧
      HoldsNew w p hash
  | .resetUpdated hash =>
    (TokensGone w p fun _ => false) ∧ (Swept w.sessions p LocalSession.onboards fun _ => false) ∧
      HoldsNew w p hash ∧ ∃ account, w.account.held = some (p, account) ∧ account.inviteStatus = .INVITED
  | _ => True

/-! ## 3. What a step leaves to the others -/

/-- The rows, locks and phases of the others, and what is known of sessions and credentials. -/
structure OthersKept (p : π) (w w' : ResetWorld π) : Prop where
  account : Cell.Keeps p w.account w'.account
  credential : Cell.Keeps p w.credential w'.credential
  tokens : ∀ hash, Cell.Keeps p (w.tokens hash) (w'.tokens hash)
  sessions : ∀ id, Cell.Keeps p (w.sessions id) (w'.sessions id)
  phase : ∀ q, q ≠ p → w'.phase q = w.phase q
  resetLock : ∀ q, q ≠ p → w.resetLock = some q → w'.resetLock = some q
  sessionSince : ∀ id k, w.sessionSince id = some k → w'.sessionSince id = some k
  credentialSince : ∀ credential k,
    w.credentialSince credential = some k → w'.credentialSince credential = some k

structure ResetFrame (p : π) (w w' : ResetWorld π) : Prop extends OthersKept p w w' where
  resets : w'.resets = w.resets ∨ w.resets ≤ w'.resets ∧ HoldsAccount w p
  tokenSince : ∀ hash, w'.tokenSince hash = w.tokenSince hash ∨ ∀ q, (w.phase q).presents ≠ some hash
  /-- A token becomes live by a reset only. -/
  live : ∀ hash token', (w'.tokens hash).committed = some token' → token'.live = true →
    (∃ token, (w.tokens hash).committed = some token ∧ token.live = true) ∨ w.resetLock = some p
  /-- A call accepts a token that it holds. -/
  acceptedTokens : ∀ hash ∈ w'.acceptedTokens,
    hash ∈ w.acceptedTokens ∨ ∃ token, (w.tokens hash).held = some (p, token)
  /-- An open session is committed by a call that holds the account, and for onboarding by one that
      holds a live setup token. -/
  opened : ∀ id row', (w'.sessions id).committed = some row' → row'.revoked = false →
    (∃ row, (w.sessions id).committed = some row ∧ row.revoked = false ∧
      row.onboardingOnly = row'.onboardingOnly) ∨
    HoldsAccount w p ∧ (row'.onboardingOnly = true → ∃ hash, HoldsLive w p hash)

namespace ResetFrame

theorem resets_le (h : ResetFrame p w w') : w.resets ≤ w'.resets := by
  rcases h.resets with he | ⟨hle, -⟩
  · exact Nat.le_of_eq he.symm
  · exact hle

theorem holdsAccount (h : ResetFrame p w w') (hne : q ≠ p) (hq : HoldsAccount w q) :
    HoldsAccount w' q := by
  obtain ⟨account, ha⟩ := hq
  exact ⟨account, h.account.held hne ha⟩

/-- **The number of resets stands still** while another call holds the account. -/
theorem resets_of_holds (h : ResetFrame p w w') (hne : q ≠ p) (hq : HoldsAccount w q) :
    w'.resets = w.resets := by
  rcases h.resets with he | ⟨-, hp⟩
  · exact he
  · exact absurd (hp.unique hq) hne

variable {credential : LocalCredential} {n : Nat}

theorem madeBy (h : ResetFrame p w w') (hm : MadeBy w credential n) : MadeBy w' credential n := by
  obtain ⟨k, hk, hle⟩ := hm
  exact ⟨k, h.credentialSince credential k hk, hle⟩

theorem onboards (h : ResetFrame p w w') {id : String} {m : Nat} (ho : Onboards w id credential n)
    (hnm : n ≤ m) : Onboards w' id credential m := by
  obtain ⟨k, j, hk, hj, hkj, hjn⟩ := ho
  exact ⟨k, j, h.sessionSince id k hk, h.credentialSince credential j hj, hkj, Nat.le_trans hjn hnm⟩

variable {hash : String}

theorem holdsLive (h : ResetFrame p w w') (hne : q ≠ p) (hq : HoldsLive w q hash) :
    HoldsLive w' q hash := by
  have hq' := hq
  obtain ⟨-, token, ht⟩ := hq'
  have he := h.tokens hash q token hne (.inl ht)
  unfold HoldsLive
  rw [he]
  exact hq

theorem holdsUsed (h : ResetFrame p w w') (hne : q ≠ p) (hq : HoldsUsed w q hash) :
    HoldsUsed w' q hash := by
  obtain ⟨token, ht, hl⟩ := hq
  exact ⟨token, (h.tokens hash).held hne ht, hl⟩

theorem issuedBy (h : ResetFrame p w w') (hp : (w.phase q).presents = some hash) (hi : IssuedBy w hash n) :
    IssuedBy w' hash n := by
  intro k hk
  rcases h.tokenSince hash with he | hnone
  · rw [he] at hk
    exact hi k hk
  · exact absurd hp (hnone q)

theorem completing (h : ResetFrame p w w') (hne : q ≠ p) (hc : Completing w q credential) :
    Completing w' q credential where
  account := h.holdsAccount hne hc.account
  since := by
    rw [h.resets_of_holds hne hc.account]
    exact h.credentialSince _ _ hc.since
  stored := h.credential.held hne hc.stored

variable {pending : String → Bool}

section

variable (h : ResetFrame p w w') (hne : q ≠ p)
include h hne

theorem tokensGone (hg : TokensGone w q pending) : TokensGone w' q pending := by
  obtain ⟨hlock, hs⟩ := hg
  refine ⟨h.resetLock q hne hlock, hs.frame hne h.tokens ?_⟩
  intro hash token' ht' hl'
  rcases h.live hash token' ht' hl' with hold | hp
  · exact hold
  · rw [hlock] at hp
    cases hp
    exact absurd rfl hne

/-- A sweep over all sessions, by a call that holds the account. -/
theorem sweptOpen (hq : HoldsAccount w q) (hs : Swept w.sessions q LocalSession.isOpen pending) :
    Swept w'.sessions q LocalSession.isOpen pending := by
  refine hs.frame hne h.sessions ?_
  intro id row' hrow' ho'
  rcases h.opened id row' hrow' (by simpa [LocalSession.isOpen] using ho') with
    ⟨row, hrow, hr, -⟩ | ⟨hp, -⟩
  · exact ⟨row, hrow, by simp [LocalSession.isOpen, hr]⟩
  · exact absurd (hp.unique hq) hne

/-- A sweep over the onboarding sessions, by a call that has revoked the setup tokens: whoever
    issues such a session would hold one that is live. -/
theorem sweptOnboards (hg : TokensGone w q fun _ => false)
    (hs : Swept w.sessions q LocalSession.onboards pending) :
    Swept w'.sessions q LocalSession.onboards pending := by
  refine hs.frame hne h.sessions ?_
  intro id row' hrow' ho'
  simp only [LocalSession.onboards, Bool.and_eq_true, Bool.not_eq_true'] at ho'
  rcases h.opened id row' hrow' ho'.1 with ⟨row, hrow, hr, hb⟩ | ⟨-, hlive⟩
  · exact ⟨row, hrow, by simp [LocalSession.onboards, hr, hb, ho'.2]⟩
  · obtain ⟨hash, ⟨token, ht, hl⟩, held, hp⟩ := hlive ho'.2
    rcases hg.2 hash token ht hl with hpend | ⟨u, hu, -⟩
    · cases hpend
    · rw [hp] at hu
      cases hu
      exact absurd rfl hne

theorem holdsNew (hq : HoldsNew w q hash) : HoldsNew w' q hash := by
  obtain ⟨hnot, token, ht⟩ := hq
  refine ⟨fun hmem => ?_, token, (h.tokens hash).held hne ht⟩
  rcases h.acceptedTokens hash hmem with hold | ⟨token', hp⟩
  · exact hnot hold
  · rw [ht] at hp
    cases hp
    exact hne rfl

/-- **What another call has written stays explained.** -/
theorem explained (he : Explained w q phase) : Explained w' q phase where
  account account ha := by
    have heq := h.account q account hne (.inr ha)
    rw [heq] at ha ⊢
    exact he.account account ha
  credential credential hc := by
    have heq := h.credential q credential hne (.inr hc)
    rw [heq] at hc ⊢
    exact he.credential credential hc
  token hash token ht := by
    have heq := h.tokens hash q token hne (.inr ht)
    rw [heq] at ht ⊢
    exact he.token hash token ht
  session id row hr := by
    have heq := h.sessions id q row hne (.inr hr)
    rw [heq] at hr ⊢
    exact he.session id row hr

/-- **What another call relies on stays.** -/
theorem stands (hs : Stands w q (w.phase q)) : Stands w' q (w.phase q) := by
  have hle := h.resets_le
  cases hphase : w.phase q with
  | loginVerified password credential =>
    rw [hphase] at hs
    obtain ⟨k, hk, hkn⟩ := hs
    exact ⟨k, h.credentialSince _ k hk, Nat.le_trans hkn hle⟩
  | loginBegun password credential since | loginCredentialLocked password credential since =>
    rw [hphase] at hs
    exact ⟨Nat.le_trans hs.1 hle, h.madeBy hs.2⟩
  | loginLocked password credential since =>
    rw [hphase] at hs
    exact ⟨h.holdsAccount hne hs.1, Nat.le_trans hs.2.1 hle, h.madeBy hs.2.2⟩
  | loginInserted password credential id =>
    rw [hphase] at hs
    obtain ⟨ha, hc, hi⟩ := hs
    refine ⟨h.holdsAccount hne ha, ?_⟩
    rw [h.resets_of_holds hne ha]
    exact ⟨h.credentialSince _ _ hc, h.sessionSince _ _ hi⟩
  | acceptBegun hash since | acceptFound hash since | acceptTokenLocked hash since =>
    rw [hphase] at hs
    exact ⟨Nat.le_trans hs.1 hle, h.issuedBy (q := q) (by rw [hphase]; rfl) hs.2⟩
  | acceptLocked hash since =>
    rw [hphase] at hs
    obtain ⟨ha, he, hl⟩ := hs
    exact ⟨h.holdsAccount hne ha, he.trans (h.resets_of_holds hne ha).symm, h.holdsLive hne hl⟩
  | acceptUsed hash since | acceptUpdated hash since =>
    rw [hphase] at hs
    obtain ⟨ha, he, hl, hu⟩ := hs
    exact ⟨h.holdsAccount hne ha, he.trans (h.resets_of_holds hne ha).symm, h.holdsLive hne hl,
      h.holdsUsed hne hu⟩
  | acceptInserted hash id =>
    rw [hphase] at hs
    obtain ⟨ha, hi, hl, hu⟩ := hs
    refine ⟨h.holdsAccount hne ha, ?_, h.holdsLive hne hl, h.holdsUsed hne hu⟩
    rw [h.resets_of_holds hne ha]
    exact h.sessionSince _ _ hi
  | completeHashed id credential =>
    rw [hphase] at hs
    exact h.onboards hs hle
  | completeBegun id credential since | completeFound id credential since
  | completeSessionLocked id credential since =>
    rw [hphase] at hs
    exact ⟨Nat.le_trans hs.1 hle, h.onboards hs.2 (Nat.le_refl _)⟩
  | completeLocked credential since =>
    rw [hphase] at hs
    obtain ⟨ha, he, hc⟩ := hs
    refine ⟨h.holdsAccount hne ha, ?_⟩
    rw [h.resets_of_holds hne ha]
    exact ⟨he, h.credentialSince _ _ hc⟩
  | completeStored credential since | completeUpdated credential since =>
    rw [hphase] at hs
    exact ⟨hs.1.trans (h.resets_of_holds hne hs.2.account).symm, h.completing hne hs.2⟩
  | completeRevoking credential since pending =>
    rw [hphase] at hs
    obtain ⟨he, hc, hsw⟩ := hs
    exact ⟨he.trans (h.resets_of_holds hne hc.account).symm, h.completing hne hc,
      h.sweptOpen hne hc.account hsw⟩
  | completeInserted credential id =>
    rw [hphase] at hs
    obtain ⟨hi, hc, hsw⟩ := hs
    refine ⟨?_, h.completing hne hc, h.sweptOpen hne hc.account hsw⟩
    rw [h.resets_of_holds hne hc.account]
    exact h.sessionSince _ _ hi
  | resetLocked | resetChecked =>
    rw [hphase] at hs
    exact h.resetLock q hne hs
  | resetRevokingTokens pending =>
    rw [hphase] at hs
    exact h.tokensGone hne hs
  | resetRevokingSessions pending =>
    rw [hphase] at hs
    exact ⟨h.tokensGone hne hs.1, h.sweptOnboards hne hs.1 hs.2⟩
  | resetIssued hash =>
    rw [hphase] at hs
    obtain ⟨hg, hsw, hn⟩ := hs
    exact ⟨h.tokensGone hne hg, h.sweptOnboards hne hg hsw, h.holdsNew hne hn⟩
  | resetUpdated hash =>
    rw [hphase] at hs
    obtain ⟨hg, hsw, hn, account, ha, hi⟩ := hs
    exact ⟨h.tokensGone hne hg, h.sweptOnboards hne hg hsw, h.holdsNew hne hn, account,
      h.account.held hne ha, hi⟩
  | _ => trivial

end

end ResetFrame

/-! ## 4. The invariant -/

/-- What holds of the committed rows. -/
structure ResetRows (w : ResetWorld π) : Prop where
  /-- The password of an active account was made after the last reset. -/
  password : ∀ account credential, w.account.committed = some account →
    account.inviteStatus = .ACTIVE → w.credential.committed = some credential →
    w.credentialSince credential = some w.resets
  /-- So were the full sessions of an active account. -/
  full : ∀ account id row, w.account.committed = some account → account.inviteStatus = .ACTIVE →
    (w.sessions id).committed = some row → row.revoked = false → row.onboardingOnly = false →
    w.sessionSince id = some w.resets
  /-- Onboarding sessions and setup tokens do not outlive a reset. -/
  onboarding : ∀ id row, (w.sessions id).committed = some row → row.revoked = false →
    row.onboardingOnly = true → w.sessionSince id = some w.resets
  live : ∀ hash token, (w.tokens hash).committed = some token → token.live = true →
    w.tokenSince hash = some w.resets
  sessionKnown : ∀ id, w.sessionSince id = none →
    (w.sessions id).committed = none ∧ (w.sessions id).held = none
  credentialKnown : ∀ credential, w.credential.committed = some credential →
    ∃ k, w.credentialSince credential = some k
  sessionLe : ∀ id k, w.sessionSince id = some k → k ≤ w.resets
  credentialLe : ∀ credential k, w.credentialSince credential = some k → k ≤ w.resets
  tokenLe : ∀ hash k, w.tokenSince hash = some k → k ≤ w.resets
  accepted : ∀ hash ∈ w.acceptedTokens,
    ∃ token, (w.tokens hash).committed = some token ∧ token.live = false

structure ResetInv (w : ResetWorld π) : Prop where
  explained : ∀ p, Explained w p (w.phase p)
  stands : ∀ p, Stands w p (w.phase p)
  rows : ResetRows w

theorem ResetInv.start (h : ResetStart w) : ResetInv w where
  explained p := by
    constructor
    · intro account ha
      rw [h.account] at ha
      cases ha
    · intro credential hc
      rw [h.credential] at hc
      cases hc
    · intro hash token ht
      rw [h.tokens] at ht
      cases ht
    · intro id row hr
      rw [h.sessions] at hr
      cases hr
  stands p := by
    rw [h.phase p]
    trivial
  rows := by
    constructor
    · intro account credential _ _ hc
      rw [h.credentialSince, if_pos hc, h.resets]
    · intro account id row _ _ hr _ _
      rw [h.sessionSince, hr, h.resets]
      rfl
    · intro id row hr _ _
      rw [h.sessionSince, hr, h.resets]
      rfl
    · intro hash token ht _
      rw [h.tokenSince, ht, h.resets]
      rfl
    · intro id hn
      rw [h.sessionSince, Option.map_eq_none_iff] at hn
      exact ⟨hn, h.sessions id⟩
    · intro credential hc
      exact ⟨0, by rw [h.credentialSince, if_pos hc]⟩
    · intro id k hk
      rw [h.sessionSince, Option.map_eq_some_iff] at hk
      obtain ⟨-, -, rfl⟩ := hk
      exact Nat.zero_le _
    · intro credential k hk
      rw [h.credentialSince] at hk
      split at hk
      · cases hk
        exact Nat.zero_le _
      · cases hk
    · intro hash k hk
      rw [h.tokenSince, Option.map_eq_some_iff] at hk
      obtain ⟨-, -, rfl⟩ := hk
      exact Nat.zero_le _
    · rw [h.acceptedTokens]
      nofun

/-! ## 5. Steps that commit no transaction -/

/-- No transaction is committed; at most a session is touched, rotated or revoked. -/
structure QuietReset (p : π) (w w' : ResetWorld π) : Prop extends OthersKept p w w' where
  accountCommitted : w'.account.committed = w.account.committed
  credentialCommitted : w'.credential.committed = w.credential.committed
  tokenCommitted : ∀ hash, (w'.tokens hash).committed = (w.tokens hash).committed
  opened : ∀ id row', (w'.sessions id).committed = some row' → row'.revoked = false →
    ∃ row, (w.sessions id).committed = some row ∧ row.revoked = false ∧
      row.onboardingOnly = row'.onboardingOnly
  known : ∀ id, w'.sessionSince id = none → (w.sessions id).committed = none →
    (w.sessions id).held = none → (w'.sessions id).committed = none ∧ (w'.sessions id).held = none
  resets : w'.resets = w.resets
  sessionLe : ∀ id k, w'.sessionSince id = some k → w.sessionSince id = some k ∨ k ≤ w.resets
  credentialLe : ∀ credential k,
    w'.credentialSince credential = some k → w.credentialSince credential = some k ∨ k ≤ w.resets
  tokenSince : w'.tokenSince = w.tokenSince
  acceptedTokens : w'.acceptedTokens = w.acceptedTokens

namespace QuietReset

theorem refl (p : π) (w : ResetWorld π) : QuietReset p w w where
  account := .refl _ _
  credential := .refl _ _
  tokens _ := .refl _ _
  sessions _ := .refl _ _
  accountCommitted := rfl
  credentialCommitted := rfl
  tokenCommitted _ := rfl
  opened _ row' hr ho := ⟨row', hr, ho, rfl⟩
  known _ _ hc hh := ⟨hc, hh⟩
  phase _ _ := rfl
  resetLock _ _ h := h
  resets := rfl
  sessionSince _ _ h := h
  sessionLe _ _ h := .inl h
  credentialSince _ _ h := h
  credentialLe _ _ h := .inl h
  tokenSince := rfl
  acceptedTokens := rfl

theorem frame (h : QuietReset p w w') : ResetFrame p w w' where
  toOthersKept := h.toOthersKept
  resets := .inl h.resets
  tokenSince hash := .inl (congrFun h.tokenSince hash)
  live hash token' ht hl := by
    rw [h.tokenCommitted] at ht
    exact .inl ⟨token', ht, hl⟩
  acceptedTokens hash hmem := by
    rw [h.acceptedTokens] at hmem
    exact .inl hmem
  opened id row' hr ho := .inl (h.opened id row' hr ho)

theorem rows (h : QuietReset p w w') (hrows : ResetRows w) : ResetRows w' := by
  constructor
  · intro account credential ha hs hc
    rw [h.accountCommitted] at ha
    rw [h.credentialCommitted] at hc
    rw [h.resets]
    exact h.credentialSince _ _ (hrows.password account credential ha hs hc)
  · intro account id row' ha hs hr ho hb
    obtain ⟨row, hrow, hor, hflag⟩ := h.opened id row' hr ho
    rw [h.accountCommitted] at ha
    rw [h.resets]
    exact h.sessionSince _ _ (hrows.full account id row ha hs hrow hor (hflag.trans hb))
  · intro id row' hr ho hb
    obtain ⟨row, hrow, hor, hflag⟩ := h.opened id row' hr ho
    rw [h.resets]
    exact h.sessionSince _ _ (hrows.onboarding id row hrow hor (hflag.trans hb))
  · intro hash token ht hl
    rw [h.tokenCommitted] at ht
    rw [h.tokenSince, h.resets]
    exact hrows.live hash token ht hl
  · intro id hn
    have hold : w.sessionSince id = none := by
      cases hk : w.sessionSince id with
      | none => rfl
      | some k =>
        rw [h.sessionSince id k hk] at hn
        cases hn
    obtain ⟨hc, hh⟩ := hrows.sessionKnown id hold
    exact h.known id hn hc hh
  · intro credential hc
    rw [h.credentialCommitted] at hc
    obtain ⟨k, hk⟩ := hrows.credentialKnown credential hc
    exact ⟨k, h.credentialSince _ _ hk⟩
  · intro id k hk
    rw [h.resets]
    exact (h.sessionLe id k hk).elim (hrows.sessionLe id k) fun h => h
  · intro credential k hk
    rw [h.resets]
    exact (h.credentialLe credential k hk).elim (hrows.credentialLe credential k) fun h => h
  · intro hash k hk
    rw [h.tokenSince] at hk
    rw [h.resets]
    exact hrows.tokenLe hash k hk
  · intro hash hmem
    rw [h.acceptedTokens] at hmem
    rw [h.tokenCommitted]
    exact hrows.accepted hash hmem

end QuietReset

/-! ## 6. The kinds of steps -/

namespace QuietReset

theorem writeAccount (hfree : w.account.Free p) (account : LocalAccount) :
    QuietReset p w (w.writeAccount p account) :=
  { refl p w with account := Cell.keeps_lock hfree account }

theorem writeCredential (hfree : w.credential.Free p) (credential : LocalCredential) :
    QuietReset p w (w.writeCredential p credential) :=
  { refl p w with credential := Cell.keeps_lock hfree credential }

theorem writeToken {hash : String} (hfree : (w.tokens hash).Free p) (token : SetupToken) :
    QuietReset p w (w.writeToken p hash token) :=
  { refl p w with
    tokens := Cell.keeps_update (Cell.keeps_lock hfree token)
    tokenCommitted := Cell.update_lock_committed }

variable {id : String}

/-- Of the rows that one knows to be sessions. -/
theorem writeSession (hfree : (w.sessions id).Free p) (hknown : w.sessionSince id ≠ none)
    (row : LocalSession) : QuietReset p w (w.writeSession p id row) :=
  { refl p w with
    sessions := Cell.keeps_update (Cell.keeps_lock hfree row)
    opened := by
      intro id' row' hr ho
      simp only [ResetWorld.writeSession, Cell.update_lock_committed] at hr
      exact ⟨row', hr, ho, rfl⟩
    known := by
      intro id' hn hc hh
      have hne : id' ≠ id := by
        rintro rfl
        exact hknown hn
      simp only [ResetWorld.writeSession, update_of_ne hne]
      exact ⟨hc, hh⟩ }

variable {row : LocalSession}

theorem insertSession (hnew : NewSession w row.id) {since : Nat} (hle : since ≤ w.resets) :
    QuietReset p w (w.insertSession p row since) := by
  have hfree : (w.sessions row.id).Free p := by
    intro q v hq
    rw [hnew.held] at hq
    cases hq
  exact
    { refl p w with
      sessions := Cell.keeps_update (Cell.keeps_lock hfree row)
      opened := by
        intro id' row' hr ho
        simp only [ResetWorld.insertSession, ResetWorld.writeSession, Cell.update_lock_committed] at hr
        exact ⟨row', hr, ho, rfl⟩
      known := by
        intro id' hn hc hh
        have hne : id' ≠ row.id := by
          rintro rfl
          simp [ResetWorld.insertSession] at hn
        simp only [ResetWorld.insertSession, ResetWorld.writeSession, update_of_ne hne]
        exact ⟨hc, hh⟩
      sessionSince := by
        intro id' k hk
        have hne : id' ≠ row.id := by
          rintro rfl
          rw [hnew.since] at hk
          cases hk
        simp only [ResetWorld.insertSession, update_of_ne hne]
        exact hk
      sessionLe := by
        intro id' k hk
        rcases update_eq_cases hk with ⟨-, he⟩ | ⟨-, he⟩
        · cases he
          exact .inr hle
        · exact .inl he }

/-- A single statement on a session; it revives none. -/
theorem setSession {row' : LocalSession} (hheld : (w.sessions id).held = none)
    (hrow : (w.sessions id).committed = some row) (hopen : row'.revoked = false → row.revoked = false)
    (hflag : row'.onboardingOnly = row.onboardingOnly) : QuietReset p w (w.setSession id row') :=
  { refl p w with
    sessions := Cell.keeps_update (Cell.keeps_set hheld row')
    opened := by
      intro id' r hr ho
      by_cases he : id' = id
      · subst he
        simp only [ResetWorld.setSession, update_self] at hr
        cases hr
        exact ⟨row, hrow, hopen ho, hflag.symm⟩
      · simp only [ResetWorld.setSession, update_of_ne he] at hr
        exact ⟨r, hr, ho, rfl⟩
    known := by
      intro id' _ hc hh
      have hne : id' ≠ id := by
        rintro rfl
        rw [hrow] at hc
        cases hc
      simp only [ResetWorld.setSession, update_of_ne hne]
      exact ⟨hc, hh⟩ }

variable [DecidableEq π]

theorem goto (h : QuietReset p w w') (phase : ResetPhase) : QuietReset p w (w'.goto p phase) :=
  { h with
    phase := by
      intro q hne
      simp only [ResetWorld.goto, update_of_ne hne]
      exact h.phase q hne }

theorem abort (w : ResetWorld π) (p : π) : QuietReset p w (w.abort p) :=
  { refl p w with
    account := Cell.keeps_abort p _
    credential := Cell.keeps_abort p _
    tokens := fun _ => Cell.keeps_abort p _
    sessions := fun _ => Cell.keeps_abort p _
    accountCommitted := Cell.abort_committed
    credentialCommitted := Cell.abort_committed
    tokenCommitted := fun _ => Cell.abort_committed
    opened := by
      intro id row' hr ho
      simp only [ResetWorld.abort, Cell.abort_committed] at hr
      exact ⟨row', hr, ho, rfl⟩
    known := by
      intro id _ hc hh
      simp only [ResetWorld.abort, Cell.abort_of_unheld hh]
      exact ⟨hc, hh⟩
    phase := fun q hne => update_of_ne hne _ _
    resetLock := by
      intro q hne hq
      have hnot : ¬ w.resetLock = some p := by
        rw [hq]
        rintro h
        cases h
        exact hne rfl
      simp only [ResetWorld.abort, if_neg hnot]
      exact hq }

end QuietReset

namespace Explained

theorem extend {phase' : ResetPhase} (h : Explained w p phase) (hx : phase.Extends phase') :
    Explained w p phase' := by
  have hnext : ∀ {α : Type} {old new : Option α} {a : α}, old = none ∨ new = old → old = some a →
      new = some a := by
    intro α old new a hor ho
    rcases hor with hnone | he
    · rw [hnone] at ho
      cases ho
    · exact he.trans ho
  constructor
  · exact fun account ha => (h.account account ha).imp_right (hnext hx.status)
  · exact fun credential hc => (h.credential credential hc).imp_right (hnext hx.credential)
  · exact fun hash token ht hl => (h.token hash token ht hl).imp_right (hnext hx.token)
  · exact fun id row hr ho => (h.session id row hr ho).imp_right (hnext hx.session)

theorem writeAccount (h : Explained w p phase) {account : LocalAccount}
    (ha : w.account.committed = some account ∨ phase.writesStatus = some account.inviteStatus) :
    Explained (w.writeAccount p account) p phase :=
  { h with
    account := by
      intro account' ha'
      cases ha'
      exact ha }

theorem writeCredential (h : Explained w p phase) {credential : LocalCredential}
    (hc : w.credential.committed = some credential ∨ phase.newCredential = some credential) :
    Explained (w.writeCredential p credential) p phase :=
  { h with
    credential := by
      intro credential' hc'
      cases hc'
      exact hc }

theorem writeToken (h : Explained w p phase) {hash : String} {token : SetupToken}
    (ht : token.live = true → (w.tokens hash).committed = some token ∨ phase.newToken = some hash) :
    Explained (w.writeToken p hash token) p phase :=
  { h with
    token := by
      intro hash' token' ht' hl'
      simp only [ResetWorld.writeToken, Cell.update_lock_committed] at ht' ⊢
      rcases Cell.held_of_update_lock ht' with ⟨rfl, -, rfl⟩ | ⟨-, hold⟩
      · exact ht hl'
      · exact h.token hash' token' hold hl' }

variable {row : LocalSession} {id : String}

theorem writeSession (h : Explained w p phase) (hr : row.revoked = false →
      (w.sessions id).committed = some row ∨ phase.newSession = some (id, row.onboardingOnly)) :
    Explained (w.writeSession p id row) p phase :=
  { h with
    session := by
      intro id' row' hr' ho'
      simp only [ResetWorld.writeSession, Cell.update_lock_committed] at hr' ⊢
      rcases Cell.held_of_update_lock hr' with ⟨rfl, -, rfl⟩ | ⟨-, hold⟩
      · exact hr ho'
      · exact h.session id' row' hold ho' }

theorem insertSession (h : Explained w p phase) (since : Nat)
    (hr : phase.newSession = some (row.id, row.onboardingOnly)) :
    Explained (w.insertSession p row since) p phase := by
  have hw : Explained (w.writeSession p row.id row) p phase := h.writeSession fun _ => .inr hr
  exact ⟨hw.account, hw.credential, hw.token, hw.session⟩

theorem setSession (h : Explained w p phase) (row : LocalSession) :
    Explained (w.setSession id row) p phase :=
  { h with
    session := by
      intro id' row' hr' ho'
      by_cases he : id' = id
      · subst he
        simp only [ResetWorld.setSession, update_self] at hr'
        cases hr'
      · simp only [ResetWorld.setSession, update_of_ne he] at hr' ⊢
        exact h.session id' row' hr' ho' }

variable [DecidableEq π]

/-- After the end of a transaction nothing is held. -/
theorem commit (w : ResetWorld π) (p : π) (phase : ResetPhase) : Explained (w.commit p) p phase where
  account _ h := absurd rfl (Cell.held_of_commit h).1
  credential _ h := absurd rfl (Cell.held_of_commit h).1
  token _ _ h := absurd rfl (Cell.held_of_commit h).1
  session _ _ h := absurd rfl (Cell.held_of_commit h).1

theorem abort (w : ResetWorld π) (p : π) (phase : ResetPhase) : Explained (w.abort p) p phase where
  account _ h := absurd rfl (Cell.held_of_abort h).1
  credential _ h := absurd rfl (Cell.held_of_abort h).1
  token _ _ h := absurd rfl (Cell.held_of_abort h).1
  session _ _ h := absurd rfl (Cell.held_of_abort h).1

end Explained

end AdsManagement.Auth
