/-
  File:      Auth/ProviderRefresh.lean
  Subject:   CONCURRENT REFRESHES OF ONE PROVIDER-BACKED SESSION (auth.service.ts, `refresh` and
             `runRefreshTransaction`).

  Every request reads the clock of the database, waits for the advisory lock of the session, reads
  the session and, if no later refresh is recorded there, hands the refresh token to the provider;
  a second reading of the clock is stored as `refreshedAt`. All requests carry the same token. The
  provider rotates it on its first use and rejects it afterwards. What a transaction writes is seen
  once it has committed, and the lock goes with it. Provider and key server answer, and whether
  the session is idle and its user may sign in does not change while the requests run.

  * `refreshDecision` -- what a request makes of the session it reads under the lock;
  * `RefreshStep` -- the requests as processes, any number of them;
  * `ClocksInOrder` -- a request reads its clock after the refresh before and not after the
    winner has read his;
  * `concurrent_refreshes_safe` -- then one request gets new tokens and the session lives;
  * `concurrent_refresh_revokes` -- a run in which the session is revoked.
-/
import AdsManagement.Lib.Runs

namespace AdsManagement.Auth

open Lib Function

/-! ## 1. Sessions and requests -/

structure RefreshSession where
  revoked : Bool
  /-- `sessionIsIdle(lastSeenAt)`. -/
  idle : Bool
  /-- `assertAuthenticatableUser` passes. -/
  authenticatable : Bool
  refreshedAt : Option Nat

inductive RefreshOutcome where
  | obtained
  | REFRESH_RACE_RETRY
  | SESSION_INVALID
  | SESSION_REVOKED
  | ACCOUNT_REFUSED
deriving DecidableEq

/-- What a request does with the session it has read: it ends, or it calls the provider. -/
def refreshDecision (session : RefreshSession) (requestClock : Nat) : Option RefreshOutcome :=
  if session.revoked then some .SESSION_REVOKED
  else if session.idle then some .SESSION_INVALID
  else if session.refreshedAt.any (requestClock ≤ ·) then some .REFRESH_RACE_RETRY
  else if !session.authenticatable then some .ACCOUNT_REFUSED
  else none

/-- Where a request stands. -/
inductive RefreshPhase where
  | idle
  | sent
  | observed (requestClock : Nat)
  | locked (requestClock : Nat)
  | calling
  | rotated
  | clocked (refreshedAt : Nat)
  | rejected
  | ended (outcome : RefreshOutcome)

structure RefreshState (π : Type) where
  now : Nat
  session : RefreshSession
  lock : Option π
  /-- How often the provider has seen the token. -/
  uses : Nat
  phase : π → RefreshPhase

variable {π : Type} [DecidableEq π]

def RefreshState.goto (s : RefreshState π) (p : π) (phase : RefreshPhase) : RefreshState π :=
  { s with phase := update s.phase p phase }

/-- The transaction ends: its write is seen, and the lock is free. -/
def RefreshState.finish (s : RefreshState π) (p : π) (session : RefreshSession)
    (outcome : RefreshOutcome) : RefreshState π :=
  { s.goto p (.ended outcome) with session, lock := none }

/-- What is left of the session: one whose user may not sign in is revoked. -/
def afterDecision (session : RefreshSession) (outcome : RefreshOutcome) : RefreshSession :=
  if outcome = .ACCOUNT_REFUSED then { session with revoked := true } else session

inductive RefreshStep (s : RefreshState π) : RefreshState π → Prop
  | tick (ms : Nat) : RefreshStep s { s with now := s.now + ms }
  -- sent before any of them has committed
  | send (p : π) (h : s.phase p = .idle) (hopen : ∀ q outcome, s.phase q ≠ .ended outcome) :
      RefreshStep s (s.goto p .sent)
  | observe (p : π) (h : s.phase p = .sent) : RefreshStep s (s.goto p (.observed s.now))
  | acquire (p : π) (c : Nat) (h : s.phase p = .observed c) (hfree : s.lock = none) :
      RefreshStep s { s.goto p (.locked c) with lock := some p }
  | decline (p : π) (c : Nat) (outcome : RefreshOutcome) (h : s.phase p = .locked c)
      (hd : refreshDecision s.session c = some outcome) :
      RefreshStep s (s.finish p (afterDecision s.session outcome) outcome)
  | proceed (p : π) (c : Nat) (h : s.phase p = .locked c) (hd : refreshDecision s.session c = none) :
      RefreshStep s (s.goto p .calling)
  | rotate (p : π) (h : s.phase p = .calling) (hfirst : s.uses = 0) :
      RefreshStep s { s.goto p .rotated with uses := s.uses + 1 }
  | reject (p : π) (h : s.phase p = .calling) (hused : s.uses ≠ 0) :
      RefreshStep s { s.goto p .rejected with uses := s.uses + 1 }
  | clock (p : π) (h : s.phase p = .rotated) : RefreshStep s (s.goto p (.clocked s.now))
  | commit (p : π) (r : Nat) (h : s.phase p = .clocked r) :
      RefreshStep s (s.finish p { s.session with refreshedAt := some r } .obtained)
  | revoke (p : π) (h : s.phase p = .rejected) :
      RefreshStep s (s.finish p { s.session with revoked := true } .SESSION_REVOKED)

/-- A session that can be refreshed, and no request yet. -/
structure RefreshStart (s : RefreshState π) : Prop where
  live : s.session.revoked = false
  notIdle : s.session.idle = false
  authenticatable : s.session.authenticatable = true
  free : s.lock = none
  unused : s.uses = 0
  noRequest : ∀ p, s.phase p = .idle

/-- **What is to hold**: no request has ended but with new tokens or with the retry, one at most has
    new tokens, the provider has not seen the token twice, the session lives; and once all that
    were sent have ended, one has new tokens. -/
structure RefreshesSafe (s : RefreshState π) : Prop where
  outcomes : ∀ p outcome, s.phase p = .ended outcome →
    outcome = .obtained ∨ outcome = .REFRESH_RACE_RETRY
  one : ∀ p q, s.phase p = .ended .obtained → s.phase q = .ended .obtained → p = q
  seenOnce : s.uses ≤ 1
  live : s.session.revoked = false
  someone : (∀ p, s.phase p = .idle ∨ ∃ outcome, s.phase p = .ended outcome) →
    (∃ p, s.phase p ≠ .idle) → ∃ p, s.phase p = .ended .obtained

/-- A request reads its clock later than the stored refresh of an earlier token, and not later than
    a request of this token has read the clock it stores. -/
def ClocksInOrder (s s' : RefreshState π) : Prop :=
  ∀ p, s.phase p = .sent → s'.phase p ≠ s.phase p →
    (∀ q r, s.phase q = .clocked r → s.now ≤ r) ∧
    ((∃ q, s.phase q = .ended .obtained) → ∀ r, s.session.refreshedAt = some r → s.now ≤ r) ∧
    ((∀ q, s.phase q ≠ .ended .obtained) → ∀ r, s.session.refreshedAt = some r → r < s.now)

/-! ## 2. The invariant -/

/-- The clock a request has read and not used yet. -/
def RefreshPhase.requestClock : RefreshPhase → Option Nat
  | .observed c => some c
  | .locked c => some c
  | _ => none

/-- The request holds the lock. -/
def RefreshPhase.holds : RefreshPhase → Bool
  | .locked _ => true
  | .calling => true
  | .rotated => true
  | .clocked _ => true
  | .rejected => true
  | _ => false

/-- The request has not got the lock. -/
def RefreshPhase.waits : RefreshPhase → Bool
  | .idle => true
  | .sent => true
  | .observed _ => true
  | _ => false

/-- Every clock read and not used is later than the stored refresh. -/
def ClocksAfter (refreshedAt : Option Nat) (phase : π → RefreshPhase) : Prop :=
  ∀ q c, (phase q).requestClock = some c → ∀ r, refreshedAt = some r → r < c

/-- Every clock read and not used is not later than `r`. -/
def ClocksUpTo (r : Nat) (phase : π → RefreshPhase) : Prop :=
  ∀ q c, (phase q).requestClock = some c → c ≤ r

/-- How far the token has come: nobody has used it; one request has, and has not committed; or that
    request has committed, and every clock read before is not later than what it has stored. -/
inductive RefreshStage (s : RefreshState π) : Prop
  | unused (hu : s.uses = 0)
      (hp : ∀ p, (s.phase p).waits = true ∨ (∃ c, s.phase p = .locked c) ∨ s.phase p = .calling)
      (hc : ClocksAfter s.session.refreshedAt s.phase)
  | rotated (p : π) (hu : s.uses = 1) (hp : s.phase p = .rotated)
      (hothers : ∀ q, q ≠ p → (s.phase q).waits = true) (hc : ClocksAfter s.session.refreshedAt s.phase)
  | clocked (p : π) (r : Nat) (hu : s.uses = 1) (hp : s.phase p = .clocked r)
      (hothers : ∀ q, q ≠ p → (s.phase q).waits = true) (hc : ClocksUpTo r s.phase)
  | committed (p : π) (r : Nat) (hu : s.uses = 1) (hp : s.phase p = .ended .obtained)
      (hr : s.session.refreshedAt = some r)
      (hothers : ∀ q, q ≠ p → (s.phase q).waits = true ∨ (∃ c, s.phase q = .locked c) ∨
        s.phase q = .ended .REFRESH_RACE_RETRY)
      (hc : ClocksUpTo r s.phase)

structure RefreshInv (s : RefreshState π) : Prop where
  live : s.session.revoked = false
  notIdle : s.session.idle = false
  authenticatable : s.session.authenticatable = true
  holder : ∀ p, (s.phase p).holds = true → s.lock = some p
  past : ClocksUpTo s.now s.phase
  stage : RefreshStage s

variable {s s' : RefreshState π}
variable {ph : RefreshPhase}
variable {phase : π → RefreshPhase}

theorem ClocksAfter.update {refreshedAt : Option Nat} (h : ClocksAfter refreshedAt phase) (p : π)
    (hp : ∀ c, ph.requestClock = some c → ∀ r, refreshedAt = some r → r < c) :
    ClocksAfter refreshedAt (update phase p ph) :=
  (forall_update_iff phase
    (p := fun _ x => ∀ c, x.requestClock = some c → ∀ r, refreshedAt = some r → r < c)).mpr
    ⟨hp, fun q _ => h q⟩

variable {r : Nat}

theorem ClocksUpTo.update (h : ClocksUpTo r phase) (p : π) (hp : ∀ c, ph.requestClock = some c → c ≤ r) :
    ClocksUpTo r (update phase p ph) :=
  (forall_update_iff phase
    (p := fun _ x => ∀ c, x.requestClock = some c → c ≤ r)).mpr ⟨hp, fun q _ => h q⟩

/-- A request that has moved to a phase without a clock. -/
theorem noClock {P : Nat → Prop} (h : ph.requestClock = none) :
    ∀ c, ph.requestClock = some c → P c :=
  fun _ hc => absurd (h.symm.trans hc) nofun

variable {p : π}

/-- The holder of the lock after the request `p` has moved to `ph`. -/
theorem holder_update {lock : Option π} (hp : ph.holds = true → lock = some p)
    (hothers : ∀ q, q ≠ p → (s.phase q).holds = true → lock = some q) :
    ∀ q, (update s.phase p ph q).holds = true → lock = some q :=
  (forall_update_iff s.phase (p := fun q x => x.holds = true → lock = some q)).mpr ⟨hp, hothers⟩

omit [DecidableEq π] in
/-- Only one request holds the lock. -/
theorem RefreshInv.not_holds (h : RefreshInv s) {q : π} (hp : (s.phase p).holds = true) (hne : q ≠ p) :
    (s.phase q).holds = false := by
  by_contra hq
  rw [Bool.not_eq_false] at hq
  exact hne (Option.some.inj ((h.holder q hq).symm.trans (h.holder p hp)))

omit [DecidableEq π] in
/-- Nobody holds a lock that is free. -/
theorem RefreshInv.not_holds_of_free (h : RefreshInv s) (hf : s.lock = none) (p : π) :
    (s.phase p).holds = false := by
  by_contra hp
  rw [Bool.not_eq_false] at hp
  exact absurd (hf.symm.trans (h.holder p hp)) nofun

/-- Once the holder has ended, nobody holds the lock. -/
theorem RefreshInv.holder_finish (h : RefreshInv s) (hp : (s.phase p).holds = true)
    (session : RefreshSession) (outcome : RefreshOutcome) :
    ∀ q, ((s.finish p session outcome).phase q).holds = true → (none : Option π) = some q :=
  holder_update nofun fun q hne hq => absurd (h.not_holds hp hne) (by rw [hq]; nofun)

omit [DecidableEq π] in
/-- A request that does not wait is the one that all others wait for. -/
theorem eq_of_not_waits {q : π} (hothers : ∀ q, q ≠ p → (s.phase q).waits = true)
    (hq : (s.phase q).waits = false) : q = p := by
  by_contra hne
  rw [hothers q hne] at hq
  cases hq

/-! ## 3. The decision under the lock -/

variable {c : Nat}
variable {session : RefreshSession}

theorem refreshDecision_eq_none (h1 : session.revoked = false) (h2 : session.idle = false)
    (h3 : session.authenticatable = true) (hc : ∀ r, session.refreshedAt = some r → r < c) :
    refreshDecision session c = none := by
  unfold refreshDecision
  have hany : session.refreshedAt.any (c ≤ ·) = false := by
    cases hr : session.refreshedAt with
    | none => rfl
    | some r => simpa using hc r hr
  simp [h1, h2, h3, hany]

theorem refreshDecision_eq_race (h1 : session.revoked = false) (h2 : session.idle = false)
    (hr : session.refreshedAt = some r) (hc : c ≤ r) :
    refreshDecision session c = some .REFRESH_RACE_RETRY := by
  unfold refreshDecision
  simp [h1, h2, hr, hc]

/-! ## 4. Steps -/

/-- A request that waits moves on and waits still: sent, or its clock read in order. -/
theorem RefreshStage.wait (h : RefreshStage s) (hold : (s.phase p).waits = true) (hnew : ph.waits = true)
    (hclocked : ∀ c, ph.requestClock = some c → ∀ q r, s.phase q = .clocked r → c ≤ r)
    (hdone : ∀ c, ph.requestClock = some c → (∃ q, s.phase q = .ended .obtained) →
      ∀ r, s.session.refreshedAt = some r → c ≤ r)
    (hfirst : ∀ c, ph.requestClock = some c → (∀ q, s.phase q ≠ .ended .obtained) →
      ∀ r, s.session.refreshedAt = some r → r < c) :
    RefreshStage (s.goto p ph) := by
  have hothers : ∀ p0, (∀ q, q ≠ p0 → (s.phase q).waits = true) →
      ∀ q, q ≠ p0 → ((s.goto p ph).phase q).waits = true := fun p0 hw =>
    (forall_update_iff s.phase (p := fun q x => q ≠ p0 → x.waits = true)).mpr
      ⟨fun _ => hnew, fun q _ => hw q⟩
  have hsame : ∀ q x, s.phase q = x → x.waits = false → (s.goto p ph).phase q = x := by
    intro q x hq hx
    refine (update_of_ne ?_ ph s.phase).trans hq
    rintro rfl
    rw [hq, hx] at hold
    cases hold
  have hnone : ∀ p0, (s.phase p0 = .rotated ∨ ∃ r, s.phase p0 = .clocked r) →
      (∀ q, q ≠ p0 → (s.phase q).waits = true) → ∀ q, s.phase q ≠ .ended .obtained := by
    intro p0 h0 hw q hq
    have he := eq_of_not_waits hw (q := q) (by rw [hq]; rfl)
    subst he
    rcases h0 with h0 | ⟨r, h0⟩ <;> rw [hq] at h0 <;> cases h0
  cases h with
  | unused hu hp hc =>
    refine .unused hu ?_ (hc.update p fun c hcl => hfirst c hcl ?_)
    · exact (forall_update_iff s.phase (p := fun _ x => x.waits = true ∨
        (∃ c, x = .locked c) ∨ x = .calling)).mpr ⟨.inl hnew, fun q _ => hp q⟩
    · intro q hq
      rcases hp q with h | ⟨c', h⟩ | h <;> rw [hq] at h <;> cases h
  | rotated p0 hu hp hw hc =>
    exact .rotated p0 hu (hsame p0 _ hp rfl) (hothers p0 hw)
      (hc.update p fun c hcl => hfirst c hcl (hnone p0 (.inl hp) hw))
  | clocked p0 r hu hp hw hc =>
    exact .clocked p0 r hu (hsame p0 _ hp rfl) (hothers p0 hw)
      (hc.update p fun c hcl => hclocked c hcl p0 r hp)
  | committed p0 r hu hp hr hw hc =>
    refine .committed p0 r hu (hsame p0 _ hp rfl) hr ?_
      (hc.update p fun c hcl => hdone c hcl ⟨p0, hp⟩ r hr)
    exact (forall_update_iff s.phase (p := fun q x => q ≠ p0 → x.waits = true ∨
      (∃ c, x = .locked c) ∨ x = .ended .REFRESH_RACE_RETRY)).mpr
      ⟨fun _ => .inl hnew, fun q _ => hw q⟩

theorem RefreshInv.wait (h : RefreshInv s) (hnew : ph.waits = true)
    (hnow : ∀ c, ph.requestClock = some c → c ≤ s.now) (hstage : RefreshStage (s.goto p ph)) :
    RefreshInv (s.goto p ph) where
  live := h.live
  notIdle := h.notIdle
  authenticatable := h.authenticatable
  holder := holder_update (fun hh => by cases ph <;> cases hnew <;> cases hh) fun q _ => h.holder q
  past := h.past.update p hnow
  stage := hstage

/-- The lock is free: the token is unused, or its refresh has been committed. -/
theorem RefreshInv.acquire (h : RefreshInv s) (hp : s.phase p = .observed c) (hfree : s.lock = none) :
    RefreshInv { s.goto p (.locked c) with lock := some p } where
  live := h.live
  notIdle := h.notIdle
  authenticatable := h.authenticatable
  holder := holder_update (fun _ => rfl) fun q _ hq =>
    absurd (h.not_holds_of_free hfree q) (by rw [hq]; nofun)
  past := h.past.update p fun c' hc => h.past p c' (by rw [hp]; exact hc)
  stage := by
    cases h.stage with
    | unused hu hph hc =>
      refine .unused hu ?_ (hc.update p fun c' hc' => hc p c' (by rw [hp]; exact hc'))
      exact (forall_update_iff s.phase (p := fun _ x => x.waits = true ∨
        (∃ c, x = .locked c) ∨ x = .calling)).mpr ⟨.inr (.inl ⟨c, rfl⟩), fun q _ => hph q⟩
    | rotated p0 hu hp0 hw hc | clocked p0 r hu hp0 hw hc =>
      have := h.not_holds_of_free hfree p0
      rw [hp0] at this
      cases this
    | committed p0 r hu hp0 hr hw hc =>
      refine .committed p0 r hu ?_ hr ?_ (hc.update p fun c' hc' => hc p c' (by rw [hp]; exact hc'))
      · refine (update_of_ne ?_ _ s.phase).trans hp0
        rintro rfl
        rw [hp] at hp0
        cases hp0
      · exact (forall_update_iff s.phase (p := fun q x => q ≠ p0 → x.waits = true ∨
          (∃ c, x = .locked c) ∨ x = .ended .REFRESH_RACE_RETRY)).mpr
          ⟨fun _ => .inr (.inl ⟨c, rfl⟩), fun q _ => hw q⟩

omit [DecidableEq π] in
/-- A request that has the lock and has not rotated the token: the token is unused, or its refresh
    has been committed. -/
theorem RefreshInv.cases_of_holds (h : RefreshInv s) (hp : (s.phase p).holds = true)
    (hr : s.phase p ≠ .rotated) (hcl : ∀ r, s.phase p ≠ .clocked r) :
    (s.uses = 0 ∧ (∀ q, q ≠ p → (s.phase q).waits = true) ∧
        ClocksAfter s.session.refreshedAt s.phase) ∨
      ∃ p0 r, p0 ≠ p ∧ s.uses = 1 ∧ s.phase p0 = .ended .obtained ∧ s.session.refreshedAt = some r ∧
        (∃ c, s.phase p = .locked c) ∧ ClocksUpTo r s.phase ∧
        ∀ q, q ≠ p0 → (s.phase q).waits = true ∨ (∃ c, s.phase q = .locked c) ∨
          s.phase q = .ended .REFRESH_RACE_RETRY := by
  have hwaits : (s.phase p).waits = false := by
    cases hph : s.phase p <;> rw [hph] at hp <;> first | rfl | cases hp
  cases h.stage with
  | unused hu hph hc =>
    refine .inl ⟨hu, fun q hne => ?_, hc⟩
    have hq := h.not_holds hp hne
    rcases hph q with hw | ⟨c, hl⟩ | hl
    · exact hw
    · rw [hl] at hq
      cases hq
    · rw [hl] at hq
      cases hq
  | rotated p0 hu hp0 hw hc => exact absurd (eq_of_not_waits hw hwaits ▸ hp0) hr
  | clocked p0 r hu hp0 hw hc => exact absurd (eq_of_not_waits hw hwaits ▸ hp0) (hcl r)
  | committed p0 r hu hp0 hr0 hw hc =>
    have hne : p0 ≠ p := by
      rintro rfl
      rw [hp0] at hp
      cases hp
    refine .inr ⟨p0, r, hne, hu, hp0, hr0, ?_, hc, hw⟩
    rcases hw p hne.symm with hw' | hl | hl
    · rw [hwaits] at hw'
      cases hw'
    · exact hl
    · rw [hl] at hp
      cases hp

variable {outcome : RefreshOutcome}

section

variable (h : RefreshInv s)
include h

/-- A request that is told it came too late: a refresh has been committed. -/
theorem RefreshInv.decline (hp : s.phase p = .locked c) (hd : refreshDecision s.session c = some outcome) :
    RefreshInv (s.finish p (afterDecision s.session outcome) outcome) := by
  have hholds : (s.phase p).holds = true := by rw [hp]; rfl
  have hclock : (s.phase p).requestClock = some c := by rw [hp]; rfl
  rcases h.cases_of_holds hholds (by rw [hp]; nofun) (by rw [hp]; nofun) with
    ⟨-, -, hc⟩ | ⟨p0, r, hne, hu, hp0, hr, -, hc, hw⟩
  · rw [refreshDecision_eq_none h.live h.notIdle h.authenticatable (hc p c hclock)] at hd
    cases hd
  · rw [refreshDecision_eq_race h.live h.notIdle hr (hc p c hclock)] at hd
    cases hd
    refine ⟨h.live, h.notIdle, h.authenticatable, h.holder_finish hholds _ _,
      h.past.update p (noClock rfl), ?_⟩
    refine .committed p0 r hu ((update_of_ne hne _ s.phase).trans hp0) hr ?_
      (hc.update p (noClock rfl))
    exact (forall_update_iff s.phase (p := fun q x => q ≠ p0 → x.waits = true ∨
      (∃ c, x = .locked c) ∨ x = .ended .REFRESH_RACE_RETRY)).mpr
      ⟨fun _ => .inr (.inr rfl), fun q _ => hw q⟩

/-- A request that goes on to the provider: the token is unused. -/
theorem RefreshInv.proceed (hp : s.phase p = .locked c)
    (hd : refreshDecision s.session c = none) : RefreshInv (s.goto p .calling) := by
  have hholds : (s.phase p).holds = true := by rw [hp]; rfl
  have hclock : (s.phase p).requestClock = some c := by rw [hp]; rfl
  rcases h.cases_of_holds hholds (by rw [hp]; nofun) (by rw [hp]; nofun) with
    ⟨hu, hw, hc⟩ | ⟨p0, r, -, -, -, hr, -, hc, -⟩
  · refine ⟨h.live, h.notIdle, h.authenticatable,
      holder_update (fun _ => h.holder p hholds) fun q _ => h.holder q,
      h.past.update p (noClock rfl), ?_⟩
    refine .unused hu ?_ (hc.update p (noClock rfl))
    exact (forall_update_iff s.phase (p := fun _ x => x.waits = true ∨
      (∃ c, x = .locked c) ∨ x = .calling)).mpr ⟨.inr (.inr rfl), fun q hne => .inl (hw q hne)⟩
  · rw [refreshDecision_eq_race h.live h.notIdle hr (hc p c hclock)] at hd
    cases hd

omit [DecidableEq π] in
/-- Only a request with an unused token calls the provider. -/
theorem RefreshInv.unused_of_calling (hp : s.phase p = .calling) :
    s.uses = 0 ∧ (∀ q, q ≠ p → (s.phase q).waits = true) ∧
      ClocksAfter s.session.refreshedAt s.phase := by
  rcases h.cases_of_holds (p := p) (by rw [hp]; rfl) (by rw [hp]; nofun) (by rw [hp]; nofun) with
    hunused | ⟨p0, r, -, -, -, -, ⟨c, hl⟩, -⟩
  · exact hunused
  · rw [hp] at hl
    cases hl

theorem RefreshInv.rotate (hp : s.phase p = .calling) :
    RefreshInv { s.goto p .rotated with uses := s.uses + 1 } := by
  obtain ⟨hu, hw, hc⟩ := h.unused_of_calling hp
  refine ⟨h.live, h.notIdle, h.authenticatable,
    holder_update (fun _ => h.holder p (by rw [hp]; rfl)) fun q _ => h.holder q,
    h.past.update p (noClock rfl), ?_⟩
  refine .rotated p (by show s.uses + 1 = 1; omega) (update_self p _ s.phase) ?_
    (hc.update p (noClock rfl))
  exact fun q hne => (congrArg RefreshPhase.waits (update_of_ne hne _ s.phase)).trans (hw q hne)

/-- The second reading of the clock is not before any of the first ones. -/
theorem RefreshInv.clock (hp : s.phase p = .rotated) : RefreshInv (s.goto p (.clocked s.now)) := by
  refine ⟨h.live, h.notIdle, h.authenticatable,
    holder_update (fun _ => h.holder p (by rw [hp]; rfl)) fun q _ => h.holder q,
    h.past.update p (noClock rfl), ?_⟩
  have hwaits : (s.phase p).waits = false := by rw [hp]; rfl
  cases h.stage with
  | unused hu hph hc => rcases hph p with hx | ⟨c, hx⟩ | hx <;> rw [hp] at hx <;> cases hx
  | rotated p0 hu hp0 hw hc =>
    obtain rfl := eq_of_not_waits hw hwaits
    refine .clocked p s.now hu (update_self p _ s.phase) ?_ (h.past.update p (noClock rfl))
    exact fun q hne => (congrArg RefreshPhase.waits (update_of_ne hne _ s.phase)).trans (hw q hne)
  | clocked p0 r hu hp0 hw hc =>
    obtain rfl := eq_of_not_waits hw hwaits
    rw [hp] at hp0
    cases hp0
  | committed p0 r hu hp0 hr hw hc =>
    by_cases hne : p = p0
    · rw [← hne, hp] at hp0
      cases hp0
    · rcases hw p hne with hx | ⟨c, hx⟩ | hx <;> rw [hp] at hx <;> cases hx

theorem RefreshInv.commit (hp : s.phase p = .clocked r) :
    RefreshInv (s.finish p { s.session with refreshedAt := some r } .obtained) := by
  refine ⟨h.live, h.notIdle, h.authenticatable, h.holder_finish (by rw [hp]; rfl) _ _,
    h.past.update p (noClock rfl), ?_⟩
  have hwaits : (s.phase p).waits = false := by rw [hp]; rfl
  cases h.stage with
  | unused hu hph hc => rcases hph p with hx | ⟨c, hx⟩ | hx <;> rw [hp] at hx <;> cases hx
  | rotated p0 hu hp0 hw hc =>
    obtain rfl := eq_of_not_waits hw hwaits
    rw [hp] at hp0
    cases hp0
  | clocked p0 r0 hu hp0 hw hc =>
    obtain rfl := eq_of_not_waits hw hwaits
    cases hp.symm.trans hp0
    refine .committed p r hu (update_self p _ s.phase) rfl ?_ (hc.update p (noClock rfl))
    exact fun q hne =>
      .inl ((congrArg RefreshPhase.waits (update_of_ne hne _ s.phase)).trans (hw q hne))
  | committed p0 r0 hu hp0 hr hw hc =>
    by_cases hne : p = p0
    · rw [← hne, hp] at hp0
      cases hp0
    · rcases hw p hne with hx | ⟨c, hx⟩ | hx <;> rw [hp] at hx <;> cases hx

omit [DecidableEq π] in
/-- No request is rejected by the provider. -/
theorem RefreshInv.not_rejected (p : π) : s.phase p ≠ .rejected := by
  intro hp
  rcases h.cases_of_holds (p := p) (by rw [hp]; rfl) (by rw [hp]; nofun) (by rw [hp]; nofun) with
    ⟨hu, hw, hc⟩ | ⟨p0, r, -, -, -, -, ⟨c, hl⟩, -⟩
  · cases h.stage with
    | unused hu hph hc => rcases hph p with hx | ⟨c, hx⟩ | hx <;> rw [hp] at hx <;> cases hx
    | rotated p0 hu' | clocked p0 r hu' | committed p0 r hu' => omega
  · rw [hp] at hl
    cases hl

/-- **One step** keeps the invariant where the clocks are read in order. -/
theorem RefreshInv.step (hs : RefreshStep s s') (ho : ClocksInOrder s s') : RefreshInv s' := by
  cases hs with
  | tick ms =>
    refine ⟨h.live, h.notIdle, h.authenticatable, h.holder,
      fun p c hc => Nat.le_trans (h.past p c hc) (Nat.le_add_right _ _), ?_⟩
    cases h.stage with
    | unused hu hp hc => exact .unused hu hp hc
    | rotated p hu hp hw hc => exact .rotated p hu hp hw hc
    | clocked p r hu hp hw hc => exact .clocked p r hu hp hw hc
    | committed p r hu hp hr hw hc => exact .committed p r hu hp hr hw hc
  | send p hp hopen =>
    exact h.wait rfl (noClock rfl) (h.stage.wait (by rw [hp]; rfl) rfl (noClock rfl) (noClock rfl)
      (noClock rfl))
  | observe p hp =>
    obtain ⟨h1, h2, h3⟩ := ho p hp (by
      show update s.phase p (.observed s.now) p ≠ s.phase p
      rw [update_self, hp]
      nofun)
    have hnow : ∀ c, (RefreshPhase.observed s.now).requestClock = some c → c = s.now :=
      fun c hc => (Option.some.inj hc).symm
    refine h.wait rfl (fun c hc => Nat.le_of_eq (hnow c hc)) (h.stage.wait (by rw [hp]; rfl) rfl ?_ ?_ ?_)
    · intro c hc
      rw [hnow c hc]
      exact h1
    · intro c hc
      rw [hnow c hc]
      exact h2
    · intro c hc
      rw [hnow c hc]
      exact h3
  | acquire p c hp hfree => exact h.acquire hp hfree
  | decline p c outcome hp hd => exact h.decline hp hd
  | proceed p c hp hd => exact h.proceed hp hd
  | rotate p hp hfirst => exact h.rotate hp
  | reject p hp hused => exact absurd (h.unused_of_calling hp).1 hused
  | clock p hp => exact h.clock hp
  | commit p r hp => exact h.commit hp
  | revoke p hp => exact absurd hp (h.not_rejected p)

end

section

omit [DecidableEq π]

theorem RefreshInv.start (h : RefreshStart s) : RefreshInv s where
  live := h.live
  notIdle := h.notIdle
  authenticatable := h.authenticatable
  holder p hp := by
    rw [h.noRequest p] at hp
    cases hp
  past p c hc := by
    rw [h.noRequest p] at hc
    cases hc
  stage := .unused h.unused (fun p => .inl (by rw [h.noRequest p]; rfl)) fun p c hc => by
    rw [h.noRequest p] at hc
    cases hc

/-- Where a request has ended, one has committed, and every other one that has ended came too late. -/
theorem RefreshInv.committed_of_ended (h : RefreshInv s) (hp : s.phase p = .ended outcome) :
    ∃ p0, s.phase p0 = .ended .obtained ∧
      ∀ q outcome, q ≠ p0 → s.phase q = .ended outcome → outcome = .REFRESH_RACE_RETRY := by
  have hwaits : (s.phase p).waits = false := by rw [hp]; rfl
  cases h.stage with
  | unused hu hph hc => rcases hph p with hx | ⟨c, hx⟩ | hx <;> rw [hp] at hx <;> cases hx
  | rotated p0 hu hp0 hw hc | clocked p0 r hu hp0 hw hc =>
    obtain rfl := eq_of_not_waits hw hwaits
    rw [hp] at hp0
    cases hp0
  | committed p0 r hu hp0 hr hw hc =>
    refine ⟨p0, hp0, fun q outcome hne hq => ?_⟩
    rcases hw q hne with hx | ⟨c, hx⟩ | hx
    · rw [hq] at hx
      cases hx
    · rw [hq] at hx
      cases hx
    · rw [hq] at hx
      cases hx
      rfl

/-- What the invariant gives. -/
theorem RefreshInv.safe (h : RefreshInv s) : RefreshesSafe s := by
  constructor
  · intro p outcome hp
    obtain ⟨p0, hp0, hrest⟩ := h.committed_of_ended hp
    by_cases hne : p = p0
    · rw [hne, hp0] at hp
      cases hp
      exact .inl rfl
    · exact .inr (hrest p outcome hne hp)
  · intro p q hp hq
    obtain ⟨p0, -, hrest⟩ := h.committed_of_ended hp
    have hself : ∀ x, s.phase x = .ended .obtained → x = p0 := by
      intro x hx
      by_contra hne
      cases hrest x _ hne hx
    rw [hself p hp, hself q hq]
  · cases h.stage with
    | unused hu | rotated p0 hu | clocked p0 r hu | committed p0 r hu => omega
  · exact h.live
  · rintro hall ⟨p, hp⟩
    rcases hall p with hidle | ⟨outcome, hend⟩
    · exact absurd hidle hp
    · obtain ⟨p0, hp0, -⟩ := h.committed_of_ended hend
      exact ⟨p0, hp0⟩

end

/-! ## 5. Runs -/

/-- **Concurrent refreshes do not end the session** in every run in which the requests read their
    clocks in order. -/
theorem concurrent_refreshes_safe {s : RefreshState π}
    (hr : Reachable RefreshStart (When RefreshStep ClocksInOrder) s) : RefreshesSafe s :=
  RefreshInv.safe (hr.invariant (fun _ h => RefreshInv.start h) fun _ _ h hs => h.step hs.1 hs.2)

/-- A session that was never refreshed, and two requests to come. -/
def freshSession : RefreshState Bool where
  now := 1
  session := ⟨false, false, true, none⟩
  lock := none
  uses := 0
  phase _ := .idle

theorem freshSession_start : RefreshStart freshSession :=
  ⟨rfl, rfl, rfl, rfl, rfl, fun _ => rfl⟩

omit [DecidableEq π] in
/-- No request reads its clock in the step. -/
theorem ClocksInOrder.of_quiet {s s' : RefreshState π}
    (h : ∀ p, s.phase p = .sent → s'.phase p = s.phase p) : ClocksInOrder s s' :=
  fun p hp hne => absurd (h p hp) hne

/-- Two requests with the clocks in order: one has new tokens, the other is to retry. -/
theorem concurrent_refreshes_safe_of_two :
    ∃ s : RefreshState Bool, Reachable RefreshStart (When RefreshStep ClocksInOrder) s ∧
      s.phase true = .ended .obtained ∧ s.phase false = .ended .REFRESH_RACE_RETRY ∧
      RefreshesSafe s := by
  have hquiet : ∀ {s s' : RefreshState Bool}, (s.phase true = .sent → s'.phase true = s.phase true) →
      (s.phase false = .sent → s'.phase false = s.phase false) → ClocksInOrder s s' :=
    fun ht hf => .of_quiet fun p => by cases p <;> assumption
  have hopen : ∀ {s : RefreshState Bool}, (∀ p, s.session.refreshedAt = none ∧
      (s.phase p = .sent ∨ s.phase p = .observed 1)) → ∀ s', ClocksInOrder s s' := by
    intro s hs s' p _ _
    refine ⟨fun q r hq => ?_, fun hx r hr => ?_, fun _ r hr => ?_⟩
    · rcases (hs q).2 with hx | hx <;> rw [hx] at hq <;> cases hq
    · rw [(hs p).1] at hr
      cases hr
    · rw [(hs p).1] at hr
      cases hr
  have h0 : Reachable RefreshStart (When RefreshStep ClocksInOrder) freshSession :=
    .start freshSession_start
  have h1 := h0.next ⟨.send true rfl nofun, hquiet nofun nofun⟩
  have h2 := h1.next ⟨.send false rfl (by intro q; cases q <;> nofun), hquiet (fun _ => rfl) nofun⟩
  have h3 := h2.next ⟨.observe true rfl, hopen (by intro p; cases p <;> exact ⟨rfl, .inl rfl⟩) _⟩
  have h4 := h3.next ⟨.observe false rfl, hopen (fun p => ⟨rfl, by cases p; exacts [.inl rfl, .inr rfl]⟩) _⟩
  have h5 := h4.next ⟨.acquire true 1 rfl rfl, hquiet nofun nofun⟩
  have h6 := h5.next ⟨.proceed true 1 rfl rfl, hquiet nofun nofun⟩
  have h7 := h6.next ⟨.rotate true rfl rfl, hquiet nofun nofun⟩
  have h8 := h7.next ⟨.clock true rfl, hquiet nofun nofun⟩
  have h9 := h8.next ⟨.commit true 1 rfl, hquiet nofun nofun⟩
  have h10 := h9.next ⟨.acquire false 1 rfl rfl, hquiet nofun nofun⟩
  have h11 := h10.next ⟨.decline false 1 .REFRESH_RACE_RETRY rfl rfl, hquiet nofun nofun⟩
  exact ⟨_, h11, rfl, rfl, concurrent_refreshes_safe h11⟩

/-- **The second request reads its clock after the winner has read his and before he commits**: the
    stored time is before its own, the provider sees the token twice and the session is revoked. -/
theorem concurrent_refresh_revokes :
    ¬ ∀ s : RefreshState Bool, Reachable RefreshStart RefreshStep s → RefreshesSafe s := by
  intro hclaim
  have h0 : Reachable RefreshStart RefreshStep freshSession := .start freshSession_start
  have h1 := h0.next (.send true rfl nofun)
  have h2 := h1.next (.send false rfl (by intro q; cases q <;> nofun))
  have h3 := h2.next (.observe true rfl)
  have h4 := h3.next (.acquire true 1 rfl rfl)
  have h5 := h4.next (.proceed true 1 rfl rfl)
  have h6 := h5.next (.rotate true rfl rfl)
  have h7 := h6.next (.clock true rfl)
  have h8 := h7.next (.tick 1)
  have h9 := h8.next (.observe false rfl)
  have h10 := h9.next (.commit true 1 rfl)
  have h11 := h10.next (.acquire false 2 rfl rfl)
  have h12 := h11.next (.proceed false 2 rfl rfl)
  have h13 := h12.next (.reject false rfl nofun)
  have h14 := h13.next (.revoke false rfl)
  cases (hclaim _ h14).live

end AdsManagement.Auth
