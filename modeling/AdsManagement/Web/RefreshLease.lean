/-
  File:      Web/RefreshLease.lean
  Subject:   THE LEASE IN `localStorage` that stands in for the Web Locks API
             (auth-coordination.ts: acquireLease, releaseLease, runRefreshWithLease, runExclusive).

  A call reads the lease, writes its own and reads it again; another tab may move between any two
  accesses of the storage. What one tab does without awaiting is not interrupted by its other
  calls. Tabs are named by their sender ids. As for the lock, the number of refreshes that have
  succeeded is counted beside the state.

  * `blocked`, `LeasePhase`, `LeaseStep`;
  * `LeaseCondition` -- the check still holds when the lease is written, no other call of the tab
    has it, and no lease expires before it is released;
  * `lease_excludes` -- under that condition one task runs at a time, and one refresh succeeds for
    each expiry;
  * `two_tabs_inside` -- without it two tabs are inside: both read before either writes.
-/
import AdsManagement.Lib.Runs
import AdsManagement.Web.AuthCoordinator

namespace AdsManagement.Web

open Common Lib Function

/-! ## 1. Leases and calls -/

variable {τ κ : Type}

/-- What `parseLease` returns. -/
structure Lease (τ : Type) where
  sender : τ
  expiresAt : Nat

def leaseMs : Nat := 4000

/-- The check of `acquireLease`: the lease of another tab that has not expired. -/
def blocked [DecidableEq τ] (lease : Option (Lease τ)) (now : Nat) (sender : τ) : Bool :=
  lease.any fun current => now < current.expiresAt && current.sender ≠ sender

/-- What a call is for; a refresh comes with the generation at its start. -/
inductive LeaseTask where
  | refresh (generation : Nat)
  | exclusive

/-- A call, with the number of successes at its start; `last` when its loop is over. -/
structure LeaseCall where
  task : LeaseTask
  deadline : Nat
  began : Nat
  last : Bool

inductive LeaseResult where
  | performed (completed : Nat)
  | peerCompleted
  | finished
  | failed

/-- Where a call stands. It awaits in `looping` and `running`; `now` is the constant of
    `acquireLease`. -/
inductive LeasePhase where
  | idle
  | looping (call : LeaseCall)
  | acquiring (call : LeaseCall) (now : Nat)
  | writing (call : LeaseCall) (now : Nat)
  | confirming (call : LeaseCall) (expiresAt : Nat)
  | acquired (call : LeaseCall) (expiresAt : Nat)
  | running (call : LeaseCall) (expiresAt : Nat)
  | completing (call : LeaseCall) (expiresAt : Nat)
  | storing (call : LeaseCall) (expiresAt next : Nat)
  | releasing (call : LeaseCall) (expiresAt : Nat) (result : LeaseResult)
  | removing (call : LeaseCall) (expiresAt : Nat) (result : LeaseResult)
  | ended (call : LeaseCall) (result : LeaseResult)

/-- The call is between two awaits: no other call of its tab can move. -/
def LeasePhase.synchronous : LeasePhase → Bool
  | .idle => false
  | .looping _ => false
  | .running _ _ => false
  | .ended _ _ => false
  | _ => true

/-- The expiry of the lease that the call has written and not yet removed. -/
def LeasePhase.holds : LeasePhase → Option Nat
  | .confirming _ expiresAt => some expiresAt
  | .acquired _ expiresAt => some expiresAt
  | .running _ expiresAt => some expiresAt
  | .completing _ expiresAt => some expiresAt
  | .storing _ expiresAt _ => some expiresAt
  | .releasing _ expiresAt _ => some expiresAt
  | .removing _ expiresAt _ => some expiresAt
  | _ => none

structure LeaseState (τ κ : Type) where
  now : Nat
  lease : Option (Lease τ)
  observed : τ → Nat
  stored : Option String
  messages : List (τ × Nat)
  phase : κ → LeasePhase
  successes : Nat

def LeaseState.seen (s : LeaseState τ κ) (t : τ) : Nat := generation (s.observed t) s.stored

def LeaseState.storedGeneration (s : LeaseState τ κ) : Nat := readGeneration s.stored

/-- No call of the tab is between two awaits. -/
def TabIdle (tab : κ → τ) (s : LeaseState τ κ) (t : τ) : Prop :=
  ∀ d, tab d = t → (s.phase d).synchronous = false

section Steps

variable [DecidableEq τ] [DecidableEq κ]

def LeaseState.goto (s : LeaseState τ κ) (c : κ) (phase : LeasePhase) : LeaseState τ κ :=
  { s with phase := update s.phase c phase }

/-- The end of `performRefresh`. -/
def LeaseState.store (s : LeaseState τ κ) (c : κ) (t : τ) (call : LeaseCall) (expiresAt next : Nat) :
    LeaseState τ κ :=
  { s.goto c (.releasing call expiresAt (.performed (s.successes + 1))) with
    observed := update s.observed t next
    stored := some (generationText next)
    messages := (t, next) :: s.messages
    successes := s.successes + 1 }

inductive LeaseStep (tab : κ → τ) (s : LeaseState τ κ) : LeaseState τ κ → Prop
  | tick (ms : Nat) : LeaseStep tab s { s with now := s.now + ms }
  | runRefresh (c : κ) (hi : TabIdle tab s (tab c)) (h : s.phase c = .idle) :
      LeaseStep tab s
        (s.goto c (.looping ⟨.refresh (s.seen (tab c)), s.now + leaseMs, s.successes, false⟩))
  | runExclusive (c : κ) (hi : TabIdle tab s (tab c)) (h : s.phase c = .idle) :
      LeaseStep tab s (s.goto c (.looping ⟨.exclusive, s.now + leaseMs, s.successes, false⟩))
  -- the head of the loop, and what `waitForPeerRefresh` finds
  | peer (c : κ) (call : LeaseCall) (g : Nat) (hi : TabIdle tab s (tab c)) (h : s.phase c = .looping call)
      (ht : call.task = .refresh g) (hg : g < s.seen (tab c)) :
      LeaseStep tab s (s.goto c (.ended call .peerCompleted))
  | attempt (c : κ) (call : LeaseCall) (hi : TabIdle tab s (tab c)) (h : s.phase c = .looping call)
      (hl : call.last = false) (hd : s.now < call.deadline)
      (hg : ∀ g, call.task = .refresh g → s.seen (tab c) ≤ g) :
      LeaseStep tab s (s.goto c (.acquiring call s.now))
  | attemptLast (c : κ) (call : LeaseCall) (g : Nat) (hi : TabIdle tab s (tab c))
      (h : s.phase c = .looping call) (hl : call.last = false) (hd : call.deadline ≤ s.now)
      (ht : call.task = .refresh g) :
      LeaseStep tab s (s.goto c (.acquiring { call with last := true } s.now))
  | timeout (c : κ) (call : LeaseCall) (hi : TabIdle tab s (tab c)) (h : s.phase c = .looping call)
      (hd : call.deadline ≤ s.now) (ht : call.task = .exclusive ∨ call.last = true) :
      LeaseStep tab s (s.goto c (.ended call .failed))
  -- acquireLease
  | readFree (c : κ) (call : LeaseCall) (now : Nat) (h : s.phase c = .acquiring call now)
      (hb : blocked s.lease now (tab c) = false) : LeaseStep tab s (s.goto c (.writing call now))
  | readBlocked (c : κ) (call : LeaseCall) (now : Nat) (h : s.phase c = .acquiring call now)
      (hb : blocked s.lease now (tab c) = true) : LeaseStep tab s (s.goto c (.looping call))
  | write (c : κ) (call : LeaseCall) (now : Nat) (h : s.phase c = .writing call now) :
      LeaseStep tab s
        { s.goto c (.confirming call (now + leaseMs)) with lease := some ⟨tab c, now + leaseMs⟩ }
  | confirm (c : κ) (call : LeaseCall) (e : Nat) (h : s.phase c = .confirming call e)
      (ho : s.lease.any (·.sender = tab c) = true) : LeaseStep tab s (s.goto c (.acquired call e))
  | confirmLost (c : κ) (call : LeaseCall) (e : Nat) (h : s.phase c = .confirming call e)
      (ho : s.lease.any (·.sender = tab c) = false) : LeaseStep tab s (s.goto c (.looping call))
  -- the task
  | enter (c : κ) (call : LeaseCall) (e : Nat) (h : s.phase c = .acquired call e)
      (hg : ∀ g, call.task = .refresh g → s.seen (tab c) ≤ g) :
      LeaseStep tab s (s.goto c (.running call e))
  | enterPeer (c : κ) (call : LeaseCall) (e g : Nat) (h : s.phase c = .acquired call e)
      (ht : call.task = .refresh g) (hg : g < s.seen (tab c)) :
      LeaseStep tab s (s.goto c (.releasing call e .peerCompleted))
  | succeed (c : κ) (call : LeaseCall) (e g : Nat) (hi : TabIdle tab s (tab c))
      (h : s.phase c = .running call e) (ht : call.task = .refresh g) :
      LeaseStep tab s (s.goto c (.completing call e))
  | finish (c : κ) (call : LeaseCall) (e : Nat) (hi : TabIdle tab s (tab c))
      (h : s.phase c = .running call e) (ht : call.task = .exclusive) :
      LeaseStep tab s (s.goto c (.releasing call e .finished))
  | fail (c : κ) (call : LeaseCall) (e : Nat) (hi : TabIdle tab s (tab c))
      (h : s.phase c = .running call e) : LeaseStep tab s (s.goto c (.releasing call e .failed))
  | readNext (c : κ) (call : LeaseCall) (e : Nat) (h : s.phase c = .completing call e) :
      LeaseStep tab s (s.goto c (.storing call e (nextGeneration (s.seen (tab c)))))
  | store (c : κ) (call : LeaseCall) (e next : Nat) (h : s.phase c = .storing call e next) :
      LeaseStep tab s (s.store c (tab c) call e next)
  -- releaseLease
  | releaseOwn (c : κ) (call : LeaseCall) (e : Nat) (result : LeaseResult)
      (h : s.phase c = .releasing call e result) (ho : s.lease.any (·.sender = tab c) = true) :
      LeaseStep tab s (s.goto c (.removing call e result))
  | releaseLost (c : κ) (call : LeaseCall) (e : Nat) (result : LeaseResult)
      (h : s.phase c = .releasing call e result) (ho : s.lease.any (·.sender = tab c) = false) :
      LeaseStep tab s (s.goto c (.ended call result))
  | remove (c : κ) (call : LeaseCall) (e : Nat) (result : LeaseResult)
      (h : s.phase c = .removing call e result) :
      LeaseStep tab s { s.goto c (.ended call result) with lease := none }
  -- onMessage
  | receive (t sender : τ) (g : Nat) (hi : TabIdle tab s t) (hm : (sender, g) ∈ s.messages)
      (hne : sender ≠ t) :
      LeaseStep tab s { s with observed := update s.observed t (max (s.observed t) g) }

end Steps

/-- New tabs, whatever earlier ones have left in the storage, also as the lease. -/
structure LeaseStart (s : LeaseState τ κ) : Prop where
  observed : ∀ t, s.observed t = 0
  messages : s.messages = []
  phase : ∀ c, s.phase c = .idle

/-- The condition on a step. -/
structure LeaseCondition [DecidableEq τ] (tab : κ → τ) (s s' : LeaseState τ κ) : Prop where
  /-- A lease is written while its check still holds, and no other call of the tab has one. -/
  write : ∀ c call now, s.phase c = .writing call now → s'.phase c ≠ s.phase c →
    blocked s.lease now (tab c) = false ∧ ∀ d e, tab d = tab c → (s.phase d).holds ≠ some e
  /-- No lease expires before it is released. -/
  time : ∀ c e, (s'.phase c).holds = some e → s'.now < e
  /-- No refresh succeeds at the greatest safe integer. -/
  limit : s'.successes = s.successes ∨ s.storedGeneration < maxSafeInteger

/-! ## 2. The invariant -/

/-- The call, until it releases the lease. -/
def LeasePhase.pending : LeasePhase → Option LeaseCall
  | .looping call => some call
  | .acquiring call _ => some call
  | .writing call _ => some call
  | .confirming call _ => some call
  | .acquired call _ => some call
  | .running call _ => some call
  | .completing call _ => some call
  | .storing call _ _ => some call
  | _ => none

/-- The call, from the start of its task until the generation is stored. -/
def LeasePhase.inside : LeasePhase → Option LeaseCall
  | .running call _ => some call
  | .completing call _ => some call
  | .storing call _ _ => some call
  | _ => none

/-- The call, after a refresh has succeeded and until the generation is stored. -/
def LeasePhase.refreshed : LeasePhase → Option LeaseCall
  | .completing call _ => some call
  | .storing call _ _ => some call
  | _ => none

/-- The clock as `acquireLease` has read it. -/
def LeasePhase.localNow : LeasePhase → Option Nat
  | .acquiring _ now => some now
  | .writing _ now => some now
  | _ => none

def LeaseResult.completed : LeaseResult → Option Nat
  | .performed completed => some completed
  | _ => none

/-- For a refresh that has succeeded, the number of successes at its start and after it. -/
def LeasePhase.performedAt : LeasePhase → Option (Nat × Nat)
  | .releasing call _ result => result.completed.map (call.began, ·)
  | .removing call _ result => result.completed.map (call.began, ·)
  | .ended call result => result.completed.map (call.began, ·)
  | _ => none

variable {phase : LeasePhase} {call : LeaseCall}

theorem LeasePhase.inside_of_refreshed (h : phase.refreshed = some call) : phase.inside = some call := by
  cases phase <;> first | exact h | cases h

theorem LeasePhase.pending_of_inside (h : phase.inside = some call) : phase.pending = some call := by
  cases phase <;> first | exact h | cases h

/-- What the phase of a call says about the clock and the generation. -/
structure LeasePhaseOk (s : LeaseState τ κ) (phase : LeasePhase) : Prop where
  clock : ∀ now, phase.localNow = some now → now ≤ s.now
  counted : ∀ call g, phase.pending = some call → call.task = .refresh g →
    call.began ≤ s.successes ∧ g + s.successes = s.storedGeneration + call.began
  current : ∀ call g, phase.inside = some call → call.task = .refresh g → call.began = s.successes
  refreshed : ∀ call, phase.refreshed = some call → ∃ g, call.task = .refresh g
  next : ∀ call e n, phase = .storing call e n → n = s.storedGeneration + 1
  performed : ∀ began completed, phase.performedAt = some (began, completed) →
    completed = began + 1 ∧ completed ≤ s.successes

structure LeaseInv (tab : κ → τ) (s : LeaseState τ κ) : Prop where
  held : ∀ c e, (s.phase c).holds = some e → s.lease = some ⟨tab c, e⟩ ∧ s.now < e
  single : ∀ c d e e', (s.phase c).holds = some e → (s.phase d).holds = some e' → c = d
  observed : ∀ t, s.observed t ≤ s.storedGeneration
  messages : ∀ m ∈ s.messages, m.2 ≤ s.storedGeneration
  phases : ∀ c, LeasePhaseOk s (s.phase c)
  once : ∀ c d began began' completed, (s.phase c).performedAt = some (began, completed) →
    (s.phase d).performedAt = some (began', completed) → c = d

variable {tab : κ → τ} {s s' : LeaseState τ κ}

theorem LeaseInv.seen (h : LeaseInv tab s) (t : τ) : s.seen t = s.storedGeneration :=
  Nat.max_eq_right (h.observed t)

theorem LeaseInv.start (h : LeaseStart s) : LeaseInv tab s where
  held c e hc := by rw [h.phase c] at hc; cases hc
  single c d e e' hc := by rw [h.phase c] at hc; cases hc
  observed t := by rw [h.observed t]; exact Nat.zero_le _
  messages m hm := by rw [h.messages] at hm; cases hm
  phases c := by rw [h.phase c]; exact ⟨nofun, nofun, nofun, nofun, nofun, nofun⟩
  once c d began began' completed hc := by rw [h.phase c] at hc; cases hc

/-- A later clock, and the same generation. -/
theorem LeasePhaseOk.later (h : LeasePhaseOk s phase) (hnow : s.now ≤ s'.now) (hst : s'.stored = s.stored)
    (hn : s'.successes = s.successes) : LeasePhaseOk s' phase where
  clock now hp := Nat.le_trans (h.clock now hp) hnow
  counted call g hp ht := by
    unfold LeaseState.storedGeneration
    rw [hst, hn]
    exact h.counted call g hp ht
  current call g hp ht := by
    rw [hn]
    exact h.current call g hp ht
  refreshed := h.refreshed
  next call e n hp := by
    unfold LeaseState.storedGeneration
    rw [hst]
    exact h.next call e n hp
  performed began completed hp := by
    rw [hn]
    exact h.performed began completed hp

section Invariant

variable [DecidableEq κ]

/-- A call moves, without a new lease. -/
theorem LeaseInv.move (h : LeaseInv tab s) {c : κ}
    (hholds : ∀ e, phase.holds = some e → (s.phase c).holds = some e) (hok : LeasePhaseOk s phase)
    (hperf : ∀ r, phase.performedAt = some r → (s.phase c).performedAt = some r) :
    LeaseInv tab (s.goto c phase) := by
  have holds_old : ∀ d e, ((s.goto c phase).phase d).holds = some e → (s.phase d).holds = some e := by
    intro d e hd
    rcases update_reads LeasePhase.holds hd with ⟨rfl, hd'⟩ | ⟨-, hd'⟩
    · exact hholds e hd'
    · exact hd'
  have performed_old : ∀ d r, ((s.goto c phase).phase d).performedAt = some r →
      (s.phase d).performedAt = some r := by
    intro d r hd
    rcases update_reads LeasePhase.performedAt hd with ⟨rfl, hd'⟩ | ⟨-, hd'⟩
    · exact hperf r hd'
    · exact hd'
  exact
    { held := fun d e hd => h.held d e (holds_old d e hd)
      single := fun d d' e e' hd hd' => h.single d d' e e' (holds_old d e hd) (holds_old d' e' hd')
      observed := h.observed
      messages := h.messages
      phases := fun d => by
        by_cases hd : d = c
        · subst hd
          change LeasePhaseOk _ (update s.phase d phase d)
          rw [update_self]
          exact hok.later (Nat.le_refl _) rfl rfl
        · change LeasePhaseOk _ (update s.phase c phase d)
          rw [update_of_ne hd]
          exact (h.phases d).later (Nat.le_refl _) rfl rfl
      once := fun d d' began began' completed hd hd' =>
        h.once d d' began began' completed (performed_old d _ hd) (performed_old d' _ hd') }

omit [DecidableEq κ] in
/-- A call that is not inside its task. -/
theorem LeasePhaseOk.outside (clock : ∀ now, phase.localNow = some now → now ≤ s.now)
    (counted : ∀ call g, phase.pending = some call → call.task = .refresh g →
      call.began ≤ s.successes ∧ g + s.successes = s.storedGeneration + call.began)
    (hin : phase.inside = none) (hper : phase.performedAt = none) : LeasePhaseOk s phase where
  clock := clock
  counted := counted
  current call g hp := by rw [hin] at hp; cases hp
  refreshed call hp := by
    have := LeasePhase.inside_of_refreshed hp
    rw [hin] at this
    cases this
  next call e n hp := by rw [hp] at hin; cases hin
  performed began completed hp := by rw [hper] at hp; cases hp

omit [DecidableEq κ] in
/-- A call that gives the lease back, or has ended. -/
theorem LeasePhaseOk.released (hp : phase.pending = none) (hnow : phase.localNow = none)
    (performed : ∀ began completed, phase.performedAt = some (began, completed) →
      completed = began + 1 ∧ completed ≤ s.successes) : LeasePhaseOk s phase where
  clock now h := by rw [hnow] at h; cases h
  counted call g h := by rw [hp] at h; cases h
  current call g h := by
    have := LeasePhase.pending_of_inside h
    rw [hp] at this
    cases this
  refreshed call h := by
    have := LeasePhase.pending_of_inside (LeasePhase.inside_of_refreshed h)
    rw [hp] at this
    cases this
  next call e n h := by rw [h] at hp; cases hp
  performed := performed

/-- The lease is written: nobody else has one. -/
theorem LeaseInv.write [DecidableEq τ] (h : LeaseInv tab s) {c : κ} {now : Nat}
    (hc : s.phase c = .writing call now) (hb : blocked s.lease now (tab c) = false)
    (hown : ∀ d e, tab d = tab c → (s.phase d).holds ≠ some e) (htime : s.now < now + leaseMs) :
    LeaseInv tab { s.goto c (.confirming call (now + leaseMs)) with
      lease := some ⟨tab c, now + leaseMs⟩ } := by
  have hclock : now ≤ s.now := (h.phases c).clock now (by rw [hc]; rfl)
  have hnobody : ∀ d e, (s.phase d).holds ≠ some e := by
    intro d e hd
    obtain ⟨hlease, hlt⟩ := h.held d e hd
    by_cases ht : tab d = tab c
    · exact hown d e ht hd
    · -- a lease of another tab that has not expired would have stopped the call
      rw [hlease] at hb
      simp only [blocked, Option.any_some, Bool.and_eq_false_iff, decide_eq_false_iff_not,
        Decidable.not_not] at hb
      rcases hb with hexp | hsame
      · omega
      · exact ht hsame
  have holds_new : ∀ d e, (update s.phase c (.confirming call (now + leaseMs)) d).holds = some e →
      d = c ∧ e = now + leaseMs := by
    intro d e hd
    rcases update_reads LeasePhase.holds hd with ⟨rfl, hd'⟩ | ⟨-, hd'⟩
    · exact ⟨rfl, (Option.some.inj hd').symm⟩
    · exact absurd hd' (hnobody d e)
  exact
    { held := fun d e hd => by
        obtain ⟨rfl, rfl⟩ := holds_new d e hd
        exact ⟨rfl, htime⟩
      single := fun d d' e e' hd hd' => (holds_new d e hd).1.trans (holds_new d' e' hd').1.symm
      observed := h.observed
      messages := h.messages
      phases := fun d => by
        by_cases hd : d = c
        · subst hd
          change LeasePhaseOk _ (update s.phase d _ d)
          rw [update_self]
          refine .outside nofun (fun call' g hp ht => ?_) rfl rfl
          exact (h.phases d).counted call' g (by rw [hc]; exact hp) ht
        · change LeasePhaseOk _ (update s.phase c _ d)
          rw [update_of_ne hd]
          exact (h.phases d).later (Nat.le_refl _) rfl rfl
      once := fun d d' began began' completed hd hd' => by
        have old : ∀ e r, (update s.phase c (.confirming call (now + leaseMs)) e).performedAt = some r →
            (s.phase e).performedAt = some r := by
          intro e r he
          rcases update_reads LeasePhase.performedAt he with ⟨-, he'⟩ | ⟨-, he'⟩
          · cases he'
          · exact he'
        exact h.once d d' began began' completed (old d _ hd) (old d' _ hd') }

/-- The lease is removed by the one that has it. -/
theorem LeaseInv.remove (h : LeaseInv tab s) {c : κ} {e : Nat} {result : LeaseResult}
    (hc : s.phase c = .removing call e result) :
    LeaseInv tab { s.goto c (.ended call result) with lease := none } := by
  have hmoved : LeaseInv tab (s.goto c (.ended call result)) := by
    refine h.move nofun (.released rfl rfl fun began completed hp => ?_) fun r hr => ?_
    · exact (h.phases c).performed began completed (by rw [hc]; exact hp)
    · rw [hc]
      exact hr
  have hnobody : ∀ d e', ((s.goto c (.ended call result)).phase d).holds ≠ some e' := by
    intro d e' hd
    rcases update_reads LeasePhase.holds hd with ⟨-, hd'⟩ | ⟨hne, hd'⟩
    · cases hd'
    · exact hne (h.single d c e' e hd' (by rw [hc]; rfl))
  exact
    { held := fun d e' hd => absurd hd (hnobody d e')
      single := hmoved.single
      observed := hmoved.observed
      messages := hmoved.messages
      phases := fun d => (hmoved.phases d).later (Nat.le_refl _) rfl rfl
      once := hmoved.once }

variable [DecidableEq τ]

/-- The generation is stored: the only call inside is this one. -/
theorem LeaseInv.store (h : LeaseInv tab s) {c : κ} {e next : Nat} (hc : s.phase c = .storing call e next)
    (hl : s.storedGeneration < maxSafeInteger) :
    LeaseInv tab (s.store c (tab c) call e next) := by
  have hnext : next = s.storedGeneration + 1 := (h.phases c).next call e next hc
  obtain ⟨g, hg⟩ := (h.phases c).refreshed call (by rw [hc]; rfl)
  have hbegan : call.began = s.successes := (h.phases c).current call g (by rw [hc]; rfl) hg
  have hholds : (s.phase c).holds = some e := by rw [hc]; rfl
  have hstored : (s.store c (tab c) call e next).storedGeneration = s.storedGeneration + 1 := by
    change readGeneration (some (generationText next)) = _
    rw [readGeneration_generationText, hnext, if_pos (Nat.succ_le_of_lt hl)]
  have hinside : ∀ d call', (s.phase d).inside = some call' → ∃ e', (s.phase d).holds = some e' := by
    intro d call' hd
    cases hp : s.phase d <;> rw [hp] at hd <;> first | exact ⟨_, rfl⟩ | cases hd
  have holds_old : ∀ d e', ((s.store c (tab c) call e next).phase d).holds = some e' →
      (s.phase d).holds = some e' := by
    intro d e' hd
    rcases update_reads LeasePhase.holds hd with ⟨rfl, hd'⟩ | ⟨-, hd'⟩
    · rw [hholds]
      exact hd'
    · exact hd'
  refine { held := fun d e' hd => h.held d e' (holds_old d e' hd), single := ?_, observed := ?_,
           messages := ?_, phases := ?_, once := ?_ }
  · exact fun d d' e' e'' hd hd' => h.single d d' e' e'' (holds_old d e' hd) (holds_old d' e'' hd')
  · intro t
    rw [hstored]
    change update s.observed (tab c) next t ≤ _
    by_cases ht : t = tab c
    · subst ht
      rw [update_self, hnext]
    · rw [update_of_ne ht]
      exact Nat.le_succ_of_le (h.observed t)
  · intro m hm
    rw [hstored]
    rcases List.mem_cons.mp hm with rfl | hm
    · exact Nat.le_of_eq hnext
    · exact Nat.le_succ_of_le (h.messages m hm)
  · intro d
    by_cases hd : d = c
    · subst hd
      change LeasePhaseOk _ (update s.phase d _ d)
      rw [update_self]
      refine .released rfl rfl fun began completed hp => ?_
      cases hp
      exact ⟨by rw [hbegan], Nat.le_refl _⟩
    · change LeasePhaseOk _ (update s.phase c _ d)
      rw [update_of_ne hd]
      have hout : (s.phase d).inside = none := by
        cases hin : (s.phase d).inside with
        | none => rfl
        | some call' =>
          obtain ⟨e', he'⟩ := hinside d call' hin
          exact absurd (h.single d c e' e he' hholds) hd
      have hd' := h.phases d
      exact
        { clock := hd'.clock
          counted := fun call' g' hp ht => by
            obtain ⟨hle, hsum⟩ := hd'.counted call' g' hp ht
            exact ⟨Nat.le_succ_of_le hle, by change g' + (s.successes + 1) = _; omega⟩
          current := fun call' g' hp => by rw [hout] at hp; cases hp
          refreshed := hd'.refreshed
          next := fun call' e' n hp => by rw [hp] at hout; cases hout
          performed := fun began completed hp => by
            obtain ⟨heq, hle⟩ := hd'.performed began completed hp
            exact ⟨heq, Nat.le_succ_of_le hle⟩ }
  · intro d d' began began' completed hd hd'
    rcases update_reads LeasePhase.performedAt hd with ⟨rfl, hd1⟩ | ⟨-, hd1⟩
    · rcases update_reads LeasePhase.performedAt hd' with ⟨rfl, -⟩ | ⟨-, hd2⟩
      · rfl
      · cases hd1
        -- the number of this success is new
        have := ((h.phases d').performed began' _ hd2).2
        omega
    · rcases update_reads LeasePhase.performedAt hd' with ⟨rfl, hd2⟩ | ⟨-, hd2⟩
      · cases hd2
        have := ((h.phases d).performed began _ hd1).2
        omega
      · exact h.once d d' began began' completed hd1 hd2

omit [DecidableEq κ] in
theorem LeaseInv.receive (h : LeaseInv tab s) {t sender : τ} {g : Nat} (hm : (sender, g) ∈ s.messages) :
    LeaseInv tab { s with observed := update s.observed t (max (s.observed t) g) } where
  held := h.held
  single := h.single
  observed t' := by
    change update s.observed t (max (s.observed t) g) t' ≤ s.storedGeneration
    by_cases ht : t' = t
    · subst ht
      rw [update_self]
      exact Nat.max_le.mpr ⟨h.observed t', h.messages _ hm⟩
    · rw [update_of_ne ht]
      exact h.observed t'
  messages := h.messages
  phases c := (h.phases c).later (Nat.le_refl _) rfl rfl
  once := h.once

theorem LeaseInv.step (h : LeaseInv tab s) (hs : LeaseStep tab s s') (hcond : LeaseCondition tab s s') :
    LeaseInv tab s' := by
  have counted : ∀ {c : κ} {phase : LeasePhase}, s.phase c = phase → ∀ call g,
      phase.pending = some call → call.task = .refresh g →
        call.began ≤ s.successes ∧ g + s.successes = s.storedGeneration + call.began := by
    rintro c _ rfl
    exact (h.phases c).counted
  cases hs with
  | tick ms =>
    exact
      { held := fun c e hc => ⟨(h.held c e hc).1, hcond.time c e hc⟩
        single := h.single
        observed := h.observed
        messages := h.messages
        phases := fun c => (h.phases c).later (Nat.le_add_right _ _) rfl rfl
        once := h.once }
  | runRefresh c hi hc =>
    refine h.move nofun (.outside nofun (fun call g hp ht => ?_) rfl rfl) nofun
    cases hp
    cases ht
    exact ⟨Nat.le_refl _, by rw [h.seen]⟩
  | runExclusive c hi hc =>
    refine h.move nofun (.outside nofun (fun call g hp ht => ?_) rfl rfl) nofun
    cases hp
    cases ht
  | peer c call g hi hc ht hg | timeout c call hi hc hd ht =>
    exact h.move nofun (.released rfl rfl nofun) nofun
  | attempt c call hi hc hl hd hg =>
    refine h.move nofun (.outside ?_ ?_ rfl rfl) nofun
    · intro now hnow
      cases hnow
      exact Nat.le_refl _
    · intro call' g hp ht
      exact counted hc call' g hp ht
  | attemptLast c call g hi hc hl hd ht =>
    refine h.move nofun (.outside ?_ ?_ rfl rfl) nofun
    · intro now hnow
      cases hnow
      exact Nat.le_refl _
    · intro call' g' hp ht'
      cases hp
      exact counted hc call g' rfl ht'
  | readFree c call now hc hb =>
    refine h.move nofun (.outside ?_ (fun call' g hp ht => counted hc call' g hp ht) rfl rfl) nofun
    exact fun now' hnow => (h.phases c).clock now' (by rw [hc]; exact hnow)
  | readBlocked c call now hc hb | confirmLost c call e hc ho =>
    exact h.move nofun (.outside nofun (fun call' g hp ht => counted hc call' g hp ht) rfl rfl) nofun
  | write c call now hc =>
    have hmoved : update s.phase c (.confirming call (now + leaseMs)) c ≠ s.phase c := by
      rw [update_self, hc]
      exact LeasePhase.noConfusion
    obtain ⟨hb, hown⟩ := hcond.write c call now hc hmoved
    refine h.write hc hb hown (hcond.time c (now + leaseMs) ?_)
    change (update s.phase c _ c).holds = _
    rw [update_self]
    rfl
  | confirm c call e hc ho =>
    refine h.move (fun e' he' => ?_) (.outside nofun (fun call' g hp ht => counted hc call' g hp ht) rfl rfl)
      nofun
    rw [hc]
    exact he'
  | enter c call e hc hg =>
    refine h.move (fun e' he' => ?_) ?_ nofun
    · rw [hc]
      exact he'
    · refine ⟨nofun, fun call' g hp ht => counted hc call' g hp ht, ?_, nofun, nofun, nofun⟩
      intro call' g hp ht
      cases hp
      -- the generation has not grown since the start
      have hsame := hg g ht
      rw [h.seen] at hsame
      have := counted hc call g rfl ht
      omega
  | enterPeer c call e g hc ht hg | finish c call e hi hc ht | fail c call e hi hc =>
    refine h.move (fun e' he' => ?_) (.released rfl rfl nofun) nofun
    rw [hc]
    exact he'
  | succeed c call e g hi hc ht =>
    refine h.move (fun e' he' => ?_) ?_ nofun
    · rw [hc]
      exact he'
    · refine ⟨nofun, fun call' g' hp ht' => counted hc call' g' hp ht', ?_, ?_, nofun, nofun⟩
      · exact fun call' g' hp ht' => (h.phases c).current call' g' (by rw [hc]; exact hp) ht'
      · intro call' hp
        cases hp
        exact ⟨g, ht⟩
  | readNext c call e hc =>
    have hok := h.phases c
    rw [hc] at hok
    refine h.move (fun e' he' => ?_) ⟨nofun, hok.counted, hok.current, hok.refreshed, ?_, nofun⟩ nofun
    · rw [hc]
      exact he'
    · intro call' e' n hp
      cases hp
      rw [h.seen]
      exact if_pos (readGeneration_le s.stored)
  | store c call e next hc =>
    rcases hcond.limit with hsame | hlt
    · exact absurd hsame (Nat.succ_ne_self _)
    · exact h.store hc hlt
  | releaseOwn c call e result hc ho =>
    refine h.move (fun e' he' => ?_) (.released rfl rfl fun began completed hp => ?_) fun r hr => ?_
    · rw [hc]
      exact he'
    · exact (h.phases c).performed began completed (by rw [hc]; exact hp)
    · rw [hc]
      exact hr
  | releaseLost c call e result hc ho =>
    refine h.move nofun (.released rfl rfl fun began completed hp => ?_) fun r hr => ?_
    · exact (h.phases c).performed began completed (by rw [hc]; exact hp)
    · rw [hc]
      exact hr
  | remove c call e result hc => exact h.remove hc
  | receive t sender g hi hm hne => exact h.receive hm

/-! ## 3. Runs -/

/-- One tab is inside a task at any moment, and of two refreshes that succeeded one began after
    the success of the other. -/
structure LeaseSafe (tab : κ → τ) (s : LeaseState τ κ) : Prop where
  oneTab : ∀ c d call call' e e', s.phase c = .running call e → s.phase d = .running call' e' →
    tab c = tab d
  oneSuccess : ∀ c d began began' completed completed', c ≠ d →
    (s.phase c).performedAt = some (began, completed) →
    (s.phase d).performedAt = some (began', completed') → completed ≤ began' ∨ completed' ≤ began

omit [DecidableEq κ] [DecidableEq τ] in
theorem LeaseInv.safe (h : LeaseInv tab s) : LeaseSafe tab s where
  oneTab c d call call' e e' hc hd := by
    rw [h.single c d e e' (by rw [hc]; rfl) (by rw [hd]; rfl)]
  oneSuccess c d began began' completed completed' hne hc hd := by
    have hc' := (h.phases c).performed began completed hc
    have hd' := (h.phases d).performed began' completed' hd
    have hdiff : completed ≠ completed' := by
      rintro rfl
      exact hne (h.once c d began began' completed hc hd)
    omega

/-- **The lease excludes**, in every run that meets the condition. -/
theorem lease_excludes (tab : κ → τ) {s : LeaseState τ κ}
    (hr : Reachable LeaseStart (When (LeaseStep tab) (LeaseCondition tab)) s) : LeaseSafe tab s := by
  have hinv : LeaseInv tab s :=
    hr.invariant (fun _ h => LeaseInv.start h) fun _ _ h hs => h.step hs.1 hs.2
  exact hinv.safe

end Invariant

/-! ## 4. Two tabs inside -/

/-- Two tabs, named by the values of `Bool`, each with one call. -/
def twoLeaseTabs : LeaseState Bool Bool where
  now := 0
  lease := none
  observed _ := 0
  stored := none
  messages := []
  phase _ := .idle
  successes := 0

theorem twoLeaseTabs_start : LeaseStart twoLeaseTabs := ⟨fun _ => rfl, rfl, fun _ => rfl⟩

def exclusiveCall : LeaseCall := ⟨.exclusive, leaseMs, 0, false⟩

theorem TabIdle.own {s : LeaseState Bool Bool} {t : Bool} (h : (s.phase t).synchronous = false) :
    TabIdle id s t := by
  rintro _ rfl
  exact h

/-- A step at time 0 that writes no lease. -/
theorem quietly {s s' : LeaseState Bool Bool}
    (hr : Reachable LeaseStart (When (LeaseStep id) (LeaseCondition id)) s) (hs : LeaseStep id s s')
    (hfirst : ∀ call now, s.phase true ≠ .writing call now := by nofun)
    (hsecond : ∀ call now, s.phase false ≠ .writing call now := by nofun)
    (ht : (s'.phase true).holds.all (· = leaseMs) = true := by rfl)
    (hf : (s'.phase false).holds.all (· = leaseMs) = true := by rfl)
    (h0 : s'.now = 0 := by rfl) (hn : s.successes = 0 := by rfl) (hn' : s'.successes = 0 := by rfl) :
    Reachable LeaseStart (When (LeaseStep id) (LeaseCondition id)) s' := by
  refine hr.next ⟨hs, fun c call now hc => ?_, fun c e hc => ?_, .inl (hn'.trans hn.symm)⟩
  · cases c with
    | true => exact absurd hc (hfirst call now)
    | false => exact absurd hc (hsecond call now)
  · have he : e = leaseMs := by
      cases c with
      | true => simpa [hc] using ht
      | false => simpa [hc] using hf
    rw [h0, he]
    decide

/-- The second tab finds the lease of the first and waits, and enters after the release. -/
theorem lease_excludes_of_first :
    ∃ s : LeaseState Bool Bool,
      Reachable LeaseStart (When (LeaseStep id) (LeaseCondition id)) s ∧
      s.phase true = .ended exclusiveCall .finished ∧ s.phase false = .running exclusiveCall leaseMs ∧
      ∀ c call e, s.phase c = .running call e → c = false := by
  have hmax : (0 : Nat) < leaseMs := by decide
  have h0 : Reachable LeaseStart (When (LeaseStep id) (LeaseCondition id)) twoLeaseTabs :=
    .start twoLeaseTabs_start
  have h1 := quietly h0 (.runExclusive true (.own rfl) rfl)
  have h2 := quietly h1 (.attempt true exclusiveCall (.own rfl) rfl rfl hmax nofun)
  have h3 := quietly h2 (.readFree true exclusiveCall 0 rfl rfl)
  have h4 := h3.next ⟨.write true exclusiveCall 0 rfl, ?_⟩
  · have h5 := quietly h4 (.confirm true exclusiveCall leaseMs rfl rfl)
    have h6 := quietly h5 (.enter true exclusiveCall leaseMs rfl nofun)
    have h7 := quietly h6 (.runExclusive false (.own rfl) rfl)
    have h8 := quietly h7 (.attempt false exclusiveCall (.own rfl) rfl rfl hmax nofun)
    have h9 := quietly h8 (.readBlocked false exclusiveCall 0 rfl rfl)
    -- the first tab releases the lease
    have h10 := quietly h9 (.finish true exclusiveCall leaseMs (.own rfl) rfl rfl)
    have h11 := quietly h10 (.releaseOwn true exclusiveCall leaseMs .finished rfl rfl)
    have h12 := quietly h11 (.remove true exclusiveCall leaseMs .finished rfl)
    have h13 := quietly h12 (.attempt false exclusiveCall (.own rfl) rfl rfl hmax nofun)
    have h14 := quietly h13 (.readFree false exclusiveCall 0 rfl rfl)
    have h15 := h14.next ⟨.write false exclusiveCall 0 rfl, ?_⟩
    · have h16 := quietly h15 (.confirm false exclusiveCall leaseMs rfl rfl)
      have h17 := quietly h16 (.enter false exclusiveCall leaseMs rfl nofun)
      refine ⟨_, h17, rfl, rfl, fun c call e hc => ?_⟩
      exact (lease_excludes id h17).oneTab c false call exclusiveCall e leaseMs hc rfl
    · refine ⟨?_, ?_, .inl (show (0 : Nat) = 0 from rfl)⟩
      · rintro (_ | _) call now hc -
        · exact ⟨by cases hc; rfl, by rintro (_ | _) e - <;> exact nofun⟩
        · cases hc
      · rintro (_ | _) e he <;> cases he
        exact hmax
  · refine ⟨?_, ?_, .inl (show (0 : Nat) = 0 from rfl)⟩
    · rintro (_ | _) call now hc -
      · cases hc
      · exact ⟨by cases hc; rfl, by rintro (_ | _) e - <;> exact nofun⟩
    · rintro (_ | _) e he <;> cases he
      exact hmax

/-- **Two tabs inside**: both have read the storage without a lease before either writes one; the
    first writes, confirms and enters, then the second does. -/
theorem two_tabs_inside :
    ¬ ∀ s : LeaseState Bool Bool, Reachable LeaseStart (LeaseStep id) s → LeaseSafe id s := by
  intro hclaim
  have hmax : (0 : Nat) < leaseMs := by decide
  have h0 : Reachable LeaseStart (LeaseStep id) twoLeaseTabs := .start twoLeaseTabs_start
  have h1 := h0.next (.runExclusive true (.own rfl) rfl)
  have h2 := h1.next (.runExclusive false (.own rfl) rfl)
  have h3 := h2.next (.attempt true exclusiveCall (.own rfl) rfl rfl hmax nofun)
  have h4 := h3.next (.attempt false exclusiveCall (.own rfl) rfl rfl hmax nofun)
  have h5 := h4.next (.readFree true exclusiveCall 0 rfl rfl)
  have h6 := h5.next (.readFree false exclusiveCall 0 rfl rfl)
  have h7 := h6.next (.write true exclusiveCall 0 rfl)
  have h8 := h7.next (.confirm true exclusiveCall leaseMs rfl rfl)
  have h9 := h8.next (.enter true exclusiveCall leaseMs rfl nofun)
  have h10 := h9.next (.write false exclusiveCall 0 rfl)
  have h11 := h10.next (.confirm false exclusiveCall leaseMs rfl rfl)
  have h12 := h11.next (.enter false exclusiveCall leaseMs rfl nofun)
  cases (hclaim _ h12).oneTab true false exclusiveCall exclusiveCall leaseMs leaseMs rfl rfl

end AdsManagement.Web
