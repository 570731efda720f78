/-
  File:      Auth/EdgeNonces.lean
  Subject:   REQUESTS SIGNED BY THE LOCAL EDGE (request-security.service.ts): whether one is
             accepted twice.

  This is `assertTrustedTransport` of a `local_lan` deployment with a key; in the other modes there
  is no edge. The check of the headers runs at once, the insert of the nonce and the deletion of
  old nonces are statements of their own, and between them any other call may move. A nonce is
  kept until the end of the window in which its timestamp is accepted and not longer, so a call
  that has passed the check and has not inserted yet may find it gone. Every six hours
  `LocalAuthMaintenanceService.prune` deletes expired nonces too; it is left out, and would ask of
  the calls at that moment what `TimelyCleanup` asks of them at a clean-up.

  * `authenticatedLocalEdgeIdentity`, `admission` -- the check, at one reading of the clock;
  * `EdgeStep` -- the calls as processes, any number of them in any number of API processes;
  * `TimelyCleanup` -- no call is between its check and its insert with a nonce that is deleted;
  * `edge_request_accepted_once` -- then no two calls with the same headers succeed;
  * `edge_request_accepted_twice` -- a run in which two do.
-/
import AdsManagement.Common.Patterns
import AdsManagement.Lib.Runs

namespace AdsManagement.Auth

open Lib Common List Function

/-! ## 1. The check -/

/-- The headers of the edge, as `request.get` returns them. -/
structure EdgeHeaders where
  clientIp : Option String
  timestamp : Option String
  nonce : Option String
  target : Option String
  bodySha256 : Option String
  signature : Option String

structure EdgeRequest where
  headers : EdgeHeaders
  remoteAddress : String
  method : String
  originalUrl : String
  /-- The digest of the body, once it is complete. -/
  rawBodySha256 : Option String
  /-- The content type is `multipart/form-data`. -/
  multipart : Bool

/-- The functions of Node that the check calls, the key applied. -/
structure EdgeCrypto where
  normalizeClientAddress : String → String
  verify : String → String → Bool
  sha256 : String → String

structure EdgeIdentity where
  address : String
  nonce : String
  timestamp : Nat
  bodySha256 : String

inductive EdgeRefusal where
  | LOCAL_HTTPS_EDGE_REQUIRED
  | LOCAL_EDGE_BODY_DIGEST_MISMATCH
  | LOCAL_EDGE_BODY_DIGEST_INCOMPLETE
deriving DecidableEq

/-- The pattern of a nonce. -/
def isNonce (s : String) : Bool := isUuid ['4'] s

def isTarget (s : String) : Bool :=
  s.toList.length ≤ 8192 && "/api/".toList.isPrefixOf s.toList &&
    s.toList.all fun c => c ≠ '\r' ∧ c ≠ '\n' ∧ c ≠ '\x00'

/-- `Number(timestamp)` of thirteen digits. -/
def digitsValue (s : String) : Nat := s.toList.foldl (fun n c => 10 * n + (c.toNat - '0'.toNat)) 0

/-- How long a timestamp is accepted, before and after. -/
def edgeWindowMs : Nat := 30000

/-- A header that is set and not empty. -/
def present (header : Option String) : Option String := header.filter (· ≠ "")

/-- The patterns the headers have to match. -/
def wellFormed (timestamp nonce target bodySha256 signature : String) : Bool :=
  timestamp.toList.length = 13 && timestamp.toList.all Char.isDigit && isNonce nonce &&
    bodySha256.toList.length = 64 && bodySha256.toList.all isLowerHex && isTarget target &&
    80 ≤ signature.toList.length && signature.toList.length ≤ 128 && signature.toList.all isBase64Url

def authenticatedLocalEdgeIdentity (crypto : EdgeCrypto) (request : EdgeRequest) (now : Nat) :
    Option EdgeIdentity :=
  let remote := crypto.normalizeClientAddress request.remoteAddress
  if remote ≠ "127.0.0.1" ∧ remote ≠ "::1" then none
  else do
    let address ← present request.headers.clientIp
    let timestamp ← present request.headers.timestamp
    let nonce ← present request.headers.nonce
    let target ← present request.headers.target
    let bodySha256 ← present request.headers.bodySha256
    let signature ← present request.headers.signature
    let normalized := crypto.normalizeClientAddress address
    if !wellFormed timestamp nonce target bodySha256 signature then none
    else if normalized = "unknown" ∨ target ≠ request.originalUrl ∨
        digitsValue timestamp + edgeWindowMs < now ∨ now + edgeWindowMs < digitsValue timestamp then none
    else if request.rawBodySha256.any (· ≠ bodySha256) then none
    else if crypto.verify (normalized ++ "\x00" ++ timestamp ++ "\x00" ++ nonce ++ "\x00" ++
        request.method.toUpper ++ "\x00" ++ target ++ "\x00" ++ bodySha256) signature then
      some ⟨normalized, nonce, digitsValue timestamp, bodySha256⟩
    else none

/-- A row of `local_edge_request_nonces`. -/
structure NonceClaim where
  nonceHash : String
  expiresAt : Nat
deriving DecidableEq

/-- `assertTrustedTransport` up to its first statement: the row it goes on to insert. -/
def admission (crypto : EdgeCrypto) (request : EdgeRequest) (now : Nat) : Except EdgeRefusal NonceClaim :=
  match authenticatedLocalEdgeIdentity crypto request now with
  | none => .error .LOCAL_HTTPS_EDGE_REQUIRED
  | some identity =>
    if request.rawBodySha256.any (· ≠ identity.bodySha256) then .error .LOCAL_EDGE_BODY_DIGEST_MISMATCH
    else if request.rawBodySha256 = none ∧ !request.multipart then
      .error .LOCAL_EDGE_BODY_DIGEST_INCOMPLETE
    else
      .ok
        { nonceHash := crypto.sha256
            ("local-edge-nonce\x00" ++ identity.nonce ++ "\x00" ++ identity.bodySha256)
          expiresAt := identity.timestamp + edgeWindowMs }

/-- The row that belongs to the headers. -/
def claimOf (crypto : EdgeCrypto) (headers : EdgeHeaders) : NonceClaim where
  nonceHash := crypto.sha256
    ("local-edge-nonce\x00" ++ headers.nonce.getD "" ++ "\x00" ++ headers.bodySha256.getD "")
  expiresAt := digitsValue (headers.timestamp.getD "") + edgeWindowMs

theorem present_eq_some {header : Option String} {s : String} (h : present header = some s) :
    header.getD "" = s := by
  unfold present at h
  rw [Option.filter_eq_some_iff] at h
  rw [h.1]
  rfl

variable {request : EdgeRequest} {crypto : EdgeCrypto} {now : Nat}

/-- The headers of an identity, and the clock at its check. -/
theorem authenticatedLocalEdgeIdentity_eq_some {identity : EdgeIdentity}
    (h : authenticatedLocalEdgeIdentity crypto request now = some identity) :
    request.headers.nonce.getD "" = identity.nonce ∧
      request.headers.bodySha256.getD "" = identity.bodySha256 ∧
      digitsValue (request.headers.timestamp.getD "") = identity.timestamp ∧
      now ≤ identity.timestamp + edgeWindowMs := by
  obtain ⟨-, h⟩ := Option.ite_none_left_eq_some.mp h
  simp only [Option.bind_eq_bind, Option.bind_eq_some_iff] at h
  obtain ⟨address, -, timestamp, hts, nonce, hn, target, -, body, hb, signature, -, h⟩ := h
  obtain ⟨-, h⟩ := Option.ite_none_left_eq_some.mp h
  obtain ⟨hwindow, h⟩ := Option.ite_none_left_eq_some.mp h
  obtain ⟨-, h⟩ := Option.ite_none_left_eq_some.mp h
  have hsome := Option.ite_none_right_eq_some.mp h
  cases hsome.2
  refine ⟨present_eq_some hn, present_eq_some hb, by rw [present_eq_some hts], ?_⟩
  simp only [not_or] at hwindow
  exact Nat.le_of_not_lt hwindow.2.2.1

variable {claim : NonceClaim}

/-- **What passes the check**: the headers fix the row, and the clock is not past its expiry. -/
theorem admit_ok (h : admission crypto request now = .ok claim) :
    claim = claimOf crypto request.headers ∧ now ≤ claim.expiresAt := by
  unfold admission at h
  split at h
  · cases h
  · rename_i identity hi
    obtain ⟨hn, hb, hts, hnow⟩ := authenticatedLocalEdgeIdentity_eq_some hi
    split at h
    · cases h
    · split at h
      · cases h
      · cases h
        refine ⟨?_, hnow⟩
        simp only [claimOf, hn, hb, hts]

/-! ## 2. Calls -/

/-- Where a call stands. -/
inductive EdgePhase where
  | idle
  | checked (headers : EdgeHeaders) (claim : NonceClaim)
  | inserted (headers : EdgeHeaders)
  | cleaning (headers : EdgeHeaders) (cutoff : Nat)
  | trusted (headers : EdgeHeaders)
  | refused

/-- The headers of a call whose nonce has been inserted. -/
def EdgePhase.claimed : EdgePhase → Option EdgeHeaders
  | .inserted headers => some headers
  | .cleaning headers _ => some headers
  | .trusted headers => some headers
  | _ => none

variable {π ι : Type}

structure EdgeState (π ι : Type) where
  now : Nat
  nonces : List NonceClaim
  /-- `trustedTransportClaims` of each API process. -/
  claims : ι → Nat
  phase : π → EdgePhase

/-- After so many claims a process deletes old nonces. -/
def cleanupInterval : Nat := 256

section Steps

variable [DecidableEq π] [DecidableEq ι]

def EdgeState.goto (s : EdgeState π ι) (p : π) (phase : EdgePhase) : EdgeState π ι :=
  { s with phase := update s.phase p phase }

/-- The step after the insert: the count, and whether it is time to clean up. -/
def EdgeState.count (s : EdgeState π ι) (host : ι) (p : π) (headers : EdgeHeaders) : EdgeState π ι :=
  if cleanupInterval ≤ s.claims host + 1 then
    { s.goto p (.cleaning headers s.now) with claims := update s.claims host 0 }
  else
    { s.goto p (.trusted headers) with claims := update s.claims host (s.claims host + 1) }

inductive EdgeStep (crypto : EdgeCrypto) (host : π → ι) (s : EdgeState π ι) : EdgeState π ι → Prop
  | tick (ms : Nat) : EdgeStep crypto host s { s with now := s.now + ms }
  | call (p : π) (request : EdgeRequest) (h : s.phase p = .idle) :
      EdgeStep crypto host s (s.goto p (match admission crypto request s.now with
        | .ok claim => .checked request.headers claim
        | .error _ => .refused))
  | insert (p : π) (headers : EdgeHeaders) (claim : NonceClaim) (h : s.phase p = .checked headers claim)
      (hfree : ∀ row ∈ s.nonces, row.nonceHash ≠ claim.nonceHash) :
      EdgeStep crypto host s { s.goto p (.inserted headers) with nonces := claim :: s.nonces }
  | replayed (p : π) (headers : EdgeHeaders) (claim : NonceClaim)
      (h : s.phase p = .checked headers claim)
      (hused : ∃ row ∈ s.nonces, row.nonceHash = claim.nonceHash) :
      EdgeStep crypto host s (s.goto p .refused)
  -- the insert fails, or has taken effect and its answer is lost
  | insertFails (p : π) (headers : EdgeHeaders) (claim : NonceClaim)
      (h : s.phase p = .checked headers claim) : EdgeStep crypto host s (s.goto p .refused)
  | insertLost (p : π) (headers : EdgeHeaders) (claim : NonceClaim)
      (h : s.phase p = .checked headers claim)
      (hfree : ∀ row ∈ s.nonces, row.nonceHash ≠ claim.nonceHash) :
      EdgeStep crypto host s { s.goto p .refused with nonces := claim :: s.nonces }
  | count (p : π) (headers : EdgeHeaders) (h : s.phase p = .inserted headers) :
      EdgeStep crypto host s (s.count (host p) p headers)
  | cleanup (p : π) (headers : EdgeHeaders) (cutoff : Nat) (h : s.phase p = .cleaning headers cutoff) :
      EdgeStep crypto host s
        { s.goto p (.trusted headers) with
          nonces := s.nonces.filter fun row => ¬ row.expiresAt < cutoff }
  | cleanupFails (p : π) (headers : EdgeHeaders) (cutoff : Nat)
      (h : s.phase p = .cleaning headers cutoff) : EdgeStep crypto host s (s.goto p (.trusted headers))

/-- Whatever the table and the counts are, no call has begun. -/
def EdgeStart (s : EdgeState π ι) : Prop := ∀ p, s.phase p = .idle

/-- When nonces are deleted, no call is between its check and its insert with a nonce that has
    expired for that deletion. -/
def TimelyCleanup (s s' : EdgeState π ι) : Prop :=
  ∀ p headers cutoff, s.phase p = .cleaning headers cutoff → s'.phase p ≠ s.phase p →
    s'.nonces ≠ s.nonces → ∀ q headers' claim, s.phase q = .checked headers' claim →
      cutoff ≤ claim.expiresAt

end Steps

/-! ## 3. The invariant -/

/-- A row is checked for its headers; a claimed nonce is in the table, or it has expired and no call
    with its headers is before its insert; and no two calls have claimed with the same headers. -/
structure EdgeInv (crypto : EdgeCrypto) (s : EdgeState π ι) : Prop where
  determined : ∀ p headers claim, s.phase p = .checked headers claim → claim = claimOf crypto headers
  cutoff : ∀ p headers cutoff, s.phase p = .cleaning headers cutoff → cutoff ≤ s.now
  kept : ∀ p headers, (s.phase p).claimed = some headers → claimOf crypto headers ∈ s.nonces ∨
    (claimOf crypto headers).expiresAt < s.now ∧ ∀ q claim, s.phase q ≠ .checked headers claim
  once : ∀ p q headers, (s.phase p).claimed = some headers → (s.phase q).claimed = some headers → p = q

variable {s s' : EdgeState π ι}

theorem EdgeInv.start (h : EdgeStart s) : EdgeInv crypto s := by
  constructor <;> intro p <;> simp [h p, EdgePhase.claimed]

theorem EdgeInv.tick (h : EdgeInv crypto s) (ms : Nat) :
    EdgeInv crypto { s with now := s.now + ms } where
  determined := h.determined
  cutoff p headers cutoff hp := Nat.le_trans (h.cutoff p headers cutoff hp) (Nat.le_add_right _ _)
  kept p headers hp := by
    rcases h.kept p headers hp with hmem | ⟨hexp, hnone⟩
    · exact .inl hmem
    · exact .inr ⟨Nat.lt_of_lt_of_le hexp (Nat.le_add_right _ _), hnone⟩
  once := h.once

/-- Expired rows are deleted, and nobody is before the insert of one of them. -/
theorem EdgeInv.filter (h : EdgeInv crypto s) (cutoff : Nat) (hcutoff : cutoff ≤ s.now)
    (htimely : ∀ q headers claim, s.phase q = .checked headers claim → cutoff ≤ claim.expiresAt) :
    EdgeInv crypto { s with nonces := s.nonces.filter fun row => ¬ row.expiresAt < cutoff } where
  determined := h.determined
  cutoff := h.cutoff
  kept p headers hp := by
    rcases h.kept p headers hp with hmem | hgone
    · by_cases hexp : (claimOf crypto headers).expiresAt < cutoff
      · refine .inr ⟨Nat.lt_of_lt_of_le hexp hcutoff, fun q claim hq => ?_⟩
        have hle := htimely q headers claim hq
        rw [h.determined q headers claim hq] at hle
        omega
      · exact .inl (mem_filter.mpr ⟨hmem, by simpa using hexp⟩)
    · exact .inr hgone
  once := h.once

section Moves

variable [DecidableEq π]

/-- A call moves and claims nothing: it is before its insert in time, or has claimed already. -/
theorem EdgeInv.move (h : EdgeInv crypto s) (p : π) (phase : EdgePhase) (hnow : s'.now = s.now)
    (hphase : s'.phase = update s.phase p phase) (hrows : ∀ row ∈ s.nonces, row ∈ s'.nonces)
    (hchecked : ∀ headers claim, phase = .checked headers claim →
      claim = claimOf crypto headers ∧ s.now ≤ claim.expiresAt)
    (hcutoff : ∀ headers cutoff, phase = .cleaning headers cutoff → cutoff ≤ s.now)
    (hclaimed : ∀ headers, phase.claimed = some headers → (s.phase p).claimed = some headers) :
    EdgeInv crypto s' := by
  have hback : ∀ q headers, (s'.phase q).claimed = some headers → (s.phase q).claimed = some headers := by
    intro q headers hq
    rw [hphase] at hq
    rcases update_reads EdgePhase.claimed hq with ⟨rfl, hq'⟩ | ⟨-, hq'⟩
    · exact hclaimed headers hq'
    · exact hq'
  constructor
  · intro q headers claim hq
    rw [hphase] at hq
    rcases update_eq_cases hq with ⟨-, hq⟩ | ⟨-, hq⟩
    · exact (hchecked headers claim hq).1
    · exact h.determined q headers claim hq
  · intro q headers cutoff hq
    rw [hphase] at hq
    rw [hnow]
    rcases update_eq_cases hq with ⟨-, hq⟩ | ⟨-, hq⟩
    · exact hcutoff headers cutoff hq
    · exact h.cutoff q headers cutoff hq
  · intro q headers hq
    rw [hnow]
    rcases h.kept q headers (hback q headers hq) with hmem | ⟨hexp, hnone⟩
    · exact .inl (hrows _ hmem)
    · refine .inr ⟨hexp, fun r claim hr => ?_⟩
      rw [hphase] at hr
      rcases update_eq_cases hr with ⟨-, hr⟩ | ⟨-, hr⟩
      · -- a check that passes now is of a nonce that has not expired
        obtain ⟨rfl, hle⟩ := hchecked headers claim hr
        omega
      · exact hnone r claim hr
  · intro q r headers hq hr
    exact h.once q r headers (hback q headers hq) (hback r headers hr)

/-- A call whose nonce is free inserts it: nobody has claimed with its headers. -/
theorem EdgeInv.insert (h : EdgeInv crypto s) {p : π} {headers : EdgeHeaders} {claim : NonceClaim}
    (hp : s.phase p = .checked headers claim)
    (hfree : ∀ row ∈ s.nonces, row.nonceHash ≠ claim.nonceHash) :
    EdgeInv crypto { s.goto p (.inserted headers) with nonces := claim :: s.nonces } := by
  have hclaim : claim = claimOf crypto headers := h.determined p headers claim hp
  have hnobody : ∀ q, (s.phase q).claimed ≠ some headers := by
    intro q hq
    rcases h.kept q headers hq with hmem | ⟨-, hnone⟩
    · exact hfree _ hmem (by rw [hclaim])
    · exact hnone p claim hp
  have hcases : ∀ q headers', ((s.goto p (.inserted headers)).phase q).claimed = some headers' →
      q = p ∧ headers' = headers ∨ (s.phase q).claimed = some headers' := by
    intro q headers' hq
    rcases update_reads EdgePhase.claimed hq with ⟨he, hq'⟩ | ⟨-, hq'⟩
    · exact .inl ⟨he, (Option.some.inj hq').symm⟩
    · exact .inr hq'
  have hchecked : ∀ q headers' claim', (s.goto p (.inserted headers)).phase q = .checked headers' claim' →
      s.phase q = .checked headers' claim' := by
    intro q headers' claim' hq
    rcases update_eq_cases hq with ⟨-, hq⟩ | ⟨-, hq⟩
    · cases hq
    · exact hq
  constructor
  · intro q headers' claim' hq
    exact h.determined q headers' claim' (hchecked q headers' claim' hq)
  · intro q headers' cutoff hq
    rcases update_eq_cases hq with ⟨-, hq⟩ | ⟨-, hq⟩
    · cases hq
    · exact h.cutoff q headers' cutoff hq
  · intro q headers' hq
    rcases hcases q headers' hq with ⟨-, rfl⟩ | hq
    · exact .inl (hclaim ▸ mem_cons_self)
    · rcases h.kept q headers' hq with hmem | ⟨hexp, hnone⟩
      · exact .inl (mem_cons_of_mem _ hmem)
      · exact .inr ⟨hexp, fun r claim' hr => hnone r claim' (hchecked r headers' claim' hr)⟩
  · intro q r headers' hq hr
    rcases hcases q headers' hq with ⟨rfl, rfl⟩ | hq'
    · rcases hcases r headers' hr with ⟨rfl, -⟩ | hr'
      · rfl
      · exact absurd hr' (hnobody r)
    · rcases hcases r headers' hr with ⟨rfl, rfl⟩ | hr'
      · exact absurd hq' (hnobody q)
      · exact h.once q r headers' hq' hr'

/-- A call is refused. -/
theorem EdgeInv.refuse (h : EdgeInv crypto s) (p : π) (hnow : s'.now = s.now)
    (hphase : s'.phase = update s.phase p .refused)
    (hrows : ∀ row ∈ s.nonces, row ∈ s'.nonces) : EdgeInv crypto s' := by
  refine h.move p .refused hnow hphase hrows ?_ ?_ ?_ <;> simp [EdgePhase.claimed]

/-- A call that has claimed returns. -/
theorem EdgeInv.trust (h : EdgeInv crypto s) (p : π) {headers : EdgeHeaders}
    (hp : (s.phase p).claimed = some headers) (hnow : s'.now = s.now)
    (hphase : s'.phase = update s.phase p (.trusted headers))
    (hrows : s'.nonces = s.nonces) : EdgeInv crypto s' := by
  refine h.move p (.trusted headers) hnow hphase (fun row hrow => hrows ▸ hrow) ?_ ?_ ?_
  · simp
  · simp
  · intro headers' he
    rw [hp]
    exact he

end Moves

/-! ## 4. Runs -/

variable [DecidableEq π] [DecidableEq ι] {host : π → ι}

/-- **One step** keeps the invariant where a deletion is timely. -/
theorem EdgeInv.step (h : EdgeInv crypto s) (hs : EdgeStep crypto host s s') (ht : TimelyCleanup s s') :
    EdgeInv crypto s' := by
  cases hs with
  | tick ms => exact h.tick ms
  | call p request hp =>
    refine h.move p _ rfl rfl (fun _ hrow => hrow) ?_ ?_ ?_
    · intro headers claim he
      cases ha : admission crypto request s.now with
      | error refusal => rw [ha] at he; cases he
      | ok claim' =>
        rw [ha] at he
        cases he
        exact admit_ok ha
    · intro headers cutoff he
      cases ha : admission crypto request s.now <;> rw [ha] at he <;> cases he
    · intro headers he
      cases ha : admission crypto request s.now <;> rw [ha] at he <;> cases he
  | insert p headers claim hp hfree => exact h.insert hp hfree
  | replayed p headers claim hp hused | insertFails p headers claim hp =>
    exact h.refuse p rfl rfl fun _ hrow => hrow
  | insertLost p headers claim hp hfree =>
    exact h.refuse p rfl rfl fun _ hrow => mem_cons_of_mem _ hrow
  | count p headers hp =>
    unfold EdgeState.count
    split
    · refine h.move p (.cleaning headers s.now) rfl rfl (fun _ hrow => hrow) ?_ ?_ ?_ <;>
        simp [EdgePhase.claimed, hp]
    · exact h.trust p (by rw [hp]; rfl) rfl rfl rfl
  | cleanup p headers cutoff hp =>
    have hmoved : EdgeInv crypto (s.goto p (.trusted headers)) :=
      h.trust p (by rw [hp]; rfl) rfl rfl rfl
    by_cases hrows : (s.nonces.filter fun row => ¬ row.expiresAt < cutoff) = s.nonces
    · rw [hrows]
      exact hmoved
    · refine hmoved.filter cutoff (h.cutoff p headers cutoff hp) fun q headers' claim hq => ?_
      refine ht p headers cutoff hp ?_ hrows q headers' claim ?_
      · show update s.phase p (.trusted headers) p ≠ s.phase p
        rw [update_self, hp]
        nofun
      · rcases update_eq_cases hq with ⟨-, hq⟩ | ⟨-, hq⟩
        · cases hq
        · exact hq
  | cleanupFails p headers cutoff hp => exact h.trust p (by rw [hp]; rfl) rfl rfl rfl

/-- **A signed request is accepted at most once** in every run whose deletions are timely: no two
    calls with the same headers succeed. -/
theorem edge_request_accepted_once (crypto : EdgeCrypto) (host : π → ι) {s : EdgeState π ι}
    (hr : Reachable EdgeStart (When (EdgeStep crypto host) TimelyCleanup) s) {p q : π}
    {headers : EdgeHeaders} (hp : s.phase p = .trusted headers) (hq : s.phase q = .trusted headers) :
    p = q := by
  have hinv : EdgeInv crypto s :=
    hr.invariant (fun _ h => EdgeInv.start h) fun _ _ h hs => h.step hs.1 hs.2
  exact hinv.once p q headers (by rw [hp]; rfl) (by rw [hq]; rfl)

/-! ## 5. A nonce deleted too early -/

/-- Signatures that verify, and a hash without collisions. -/
def plainCrypto : EdgeCrypto := ⟨id, fun _ _ => true, id⟩

def edgeRequest (timestamp nonce : String) : EdgeRequest where
  headers :=
    { clientIp := some "192.168.10.21"
      timestamp := some timestamp
      nonce := some nonce
      target := some "/api/metrics"
      bodySha256 := some "e3b0c44298fc1c149afbf4c8996fb92427ae41e4649b934ca495991b7852b855"
      signature := some (String.ofList (replicate 86 'A')) }
  remoteAddress := "127.0.0.1"
  method := "GET"
  originalUrl := "/api/metrics"
  rawBodySha256 := some "e3b0c44298fc1c149afbf4c8996fb92427ae41e4649b934ca495991b7852b855"
  multipart := false

/-- The request that is sent twice, and another one of the same second. -/
def replayedRequest : EdgeRequest :=
  edgeRequest "1700000000000" "0b9f8a52-6c1d-4e3f-9a7b-1c2d3e4f5a6b"

def otherRequest : EdgeRequest :=
  edgeRequest "1700000000500" "7d5e0c11-2a3b-4c4d-8e5f-6a7b8c9d0e1f"

inductive EdgeCaller where
  | first
  | second
  | cleaner
deriving DecidableEq

/-- The last millisecond of the window of `replayedRequest`, shortly before a clean-up is due. -/
def lastMoment : EdgeState EdgeCaller Unit where
  now := 1700000030000
  nonces := []
  claims _ := 254
  phase _ := .idle

theorem admit_replayedRequest :
    admission plainCrypto replayedRequest 1700000030000 =
      .ok (claimOf plainCrypto replayedRequest.headers) := by decide +kernel

theorem admit_otherRequest :
    admission plainCrypto otherRequest 1700000030000 =
      .ok (claimOf plainCrypto otherRequest.headers) := by decide +kernel

theorem claims_differ : (claimOf plainCrypto replayedRequest.headers).nonceHash ≠
    (claimOf plainCrypto otherRequest.headers).nonceHash := by decide +kernel

/-- A call that passes the check. -/
theorem EdgeStep.admitted {p : π} (hp : s.phase p = .idle) (ha : admission crypto request s.now = .ok claim) :
    EdgeStep crypto host s (s.goto p (.checked request.headers claim)) := by
  have h : EdgeStep crypto host s (s.goto p (match admission crypto request s.now with
      | .ok claim => .checked request.headers claim
      | .error _ => .refused)) := .call p request hp
  rw [ha] at h
  exact h

/-- The first of two calls with the same headers is accepted, and only that one: the second finds
    the nonce. When the window is over, a third call deletes it. -/
theorem edge_request_accepted_once_of_first :
    ∃ s : EdgeState EdgeCaller Unit,
      Reachable EdgeStart (When (EdgeStep plainCrypto fun _ => ()) TimelyCleanup) s ∧
      s.phase .first = .trusted replayedRequest.headers ∧ s.phase .second = .refused ∧
      s.nonces = [claimOf plainCrypto otherRequest.headers] ∧
      ∀ q, s.phase q = .trusted replayedRequest.headers → q = .first := by
  have h0 : Reachable EdgeStart (When (EdgeStep plainCrypto fun _ => ()) TimelyCleanup) lastMoment :=
    .start fun _ => rfl
  have h1 := h0.next ⟨.admitted (p := .first) rfl admit_replayedRequest, fun p _ _ hp => by cases p <;> cases hp⟩
  have h2 := h1.next ⟨.insert .first _ _ rfl fun _ h => absurd h not_mem_nil,
    fun p _ _ hp => by cases p <;> cases hp⟩
  have h3 := h2.next ⟨.count .first _ rfl, fun p _ _ hp => by cases p <;> cases hp⟩
  have h4 := h3.next ⟨.admitted (p := .second) rfl admit_replayedRequest, fun p _ _ hp => by cases p <;> cases hp⟩
  have h5 := h4.next ⟨.replayed .second _ _ rfl ⟨_, mem_cons_self, rfl⟩, fun p _ _ hp => by cases p <;> cases hp⟩
  have h6 := h5.next ⟨.admitted (p := .cleaner) rfl admit_otherRequest, fun p _ _ hp => by cases p <;> cases hp⟩
  have h7 := h6.next ⟨.insert .cleaner _ _ rfl fun row hrow => mem_singleton.mp hrow ▸ claims_differ,
    fun p _ _ hp => by cases p <;> cases hp⟩
  have h8 := h7.next ⟨.tick 1, fun p _ _ hp => by cases p <;> cases hp⟩
  have h9 := h8.next ⟨.count .cleaner _ rfl, fun p _ _ hp => by cases p <;> cases hp⟩
  have h10 := h9.next ⟨.cleanup .cleaner _ 1700000030001 rfl,
    fun _ _ _ _ _ _ q _ _ hq => by cases q <;> cases hq⟩
  exact ⟨_, h10, rfl, rfl, by decide +kernel,
    fun q hq => edge_request_accepted_once plainCrypto _ h10 hq rfl⟩

/-- **Accepted twice**: the second call passes the check in the last millisecond of the window, the
    nonce of the first is deleted one millisecond later, and the second inserts it again. -/
theorem edge_request_accepted_twice :
    ¬ ∀ s : EdgeState EdgeCaller Unit, Reachable EdgeStart (EdgeStep plainCrypto fun _ => ()) s →
      ∀ p q headers, s.phase p = .trusted headers → s.phase q = .trusted headers → p = q := by
  intro hclaim
  have h0 : Reachable EdgeStart (EdgeStep plainCrypto fun _ => ()) lastMoment := .start fun _ => rfl
  have h1 := h0.next (.admitted (p := .first) rfl admit_replayedRequest)
  have h2 := h1.next (.insert .first _ _ rfl fun _ h => absurd h not_mem_nil)
  have h3 := h2.next (.count .first _ rfl)
  have h4 := h3.next (.admitted (p := .second) rfl admit_replayedRequest)
  have h5 := h4.next (.admitted (p := .cleaner) rfl admit_otherRequest)
  have h6 := h5.next (.insert .cleaner _ _ rfl fun row hrow => mem_singleton.mp hrow ▸ claims_differ)
  have h7 := h6.next (.tick 1)
  have h8 := h7.next (.count .cleaner _ rfl)
  have h9 := h8.next (.cleanup .cleaner _ 1700000030001 rfl)
  have hrest : [claimOf plainCrypto otherRequest.headers, claimOf plainCrypto replayedRequest.headers].filter
      (fun row => ¬ row.expiresAt < 1700000030001) = [claimOf plainCrypto otherRequest.headers] := by
    decide +kernel
  have h10 := h9.next (.insert .second _ (claimOf plainCrypto replayedRequest.headers) rfl fun row hrow =>
    mem_singleton.mp (hrest ▸ hrow) ▸ claims_differ.symm)
  have h11 := h10.next (.count .second _ rfl)
  cases hclaim _ h11 .first .second replayedRequest.headers rfl rfl

end AdsManagement.Auth
