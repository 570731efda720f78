/-
  File:      Auth/WorkLimiter.lean
  Subject:   THE LIMITER OF THE SCRYPT WORK (`ScryptWorkLimiter` of local-credentials.ts): its slots
             over every order of calls and completions.

  A call of `run` goes on at once to its first `await`. What follows an `await` is a microtask:
  a caller whose slot was taken resumes in `run`, one whose slot was handed over resumes in
  `acquire` first and in `run` after it. The microtasks of the limiter run in the order in which
  they were queued; between two of them any call and any completion may come. `active` is an
  integer, so that a decrement too many would show.

  * `LimiterCounts`, `LimiterOrder` -- what every step keeps;
  * `limiter_hands_over` -- slots, queue, order of the starts and refusals in every run;
  * `limiter_settles` -- without further calls, the completions empty the limiter.
-/
import Mathlib.Data.List.Infix
import AdsManagement.Lib.Runs

namespace AdsManagement.Auth

open Lib List

/-! ## 1. The limiter -/

/-- The callers are numbered in the order of their calls. -/
abbrev Caller := Nat

/-- The fields of `ScryptWorkLimiter`. Of the resolvers in `waiters` each is the one of a caller. -/
structure ScryptWorkLimiter where
  active : Int
  waiters : List Caller

inductive Acquired where
  | taken
  | queued
  | refused (retryAfterSeconds : Nat)

/-- `acquire`, up to its first `await`. -/
def acquire (concurrency queueLimit : Nat) (caller : Caller) (limiter : ScryptWorkLimiter) :
    ScryptWorkLimiter × Acquired :=
  if limiter.active < concurrency then ({ limiter with active := limiter.active + 1 }, .taken)
  else if limiter.waiters.length ≥ queueLimit then (limiter, .refused 1)
  else ({ limiter with waiters := limiter.waiters ++ [caller] }, .queued)

/-- `release`, with the caller whose promise it resolves. -/
def release (limiter : ScryptWorkLimiter) : ScryptWorkLimiter × Option Caller :=
  match limiter.waiters with
  | next :: rest => ({ limiter with waiters := rest }, some next)
  | [] => ({ limiter with active := limiter.active - 1 }, none)

/-! ## 2. Its runs -/

/-- What a caller that holds a slot resumes in. -/
inductive Resume where
  | acquire (caller : Caller)
  | run (caller : Caller)

/-- The limiter among its callers: the microtasks that are queued, the callers whose work runs, and
    how many have called. -/
structure LimiterWorld where
  limiter : ScryptWorkLimiter
  resuming : List Resume
  running : List Caller
  calls : Nat

inductive LimiterMove where
  | call
  | resume
  | finish (caller : Caller) (resolved : Bool)
deriving DecidableEq

inductive LimiterEvent where
  | taken (caller : Caller)
  | queued (caller : Caller)
  | refused (caller : Caller) (retryAfterSeconds : Nat)
  | acquired (caller : Caller)
  | started (caller : Caller)
  | finished (caller : Caller) (resolved : Bool)

/-- `run`, one piece at a time. -/
def limiterStep (concurrency queueLimit : Nat) (w : LimiterWorld) : LimiterMove → Option (LimiterWorld × LimiterEvent)
  | .call =>
    let caller := w.calls
    let w := { w with calls := w.calls + 1 }
    match acquire concurrency queueLimit caller w.limiter with
    | (limiter, .taken) => some ({ w with limiter, resuming := w.resuming ++ [.run caller] }, .taken caller)
    | (limiter, .queued) => some ({ w with limiter }, .queued caller)
    | (limiter, .refused seconds) => some ({ w with limiter }, .refused caller seconds)
  | .resume =>
    match w.resuming with
    | [] => none
    | .acquire caller :: rest => some ({ w with resuming := rest ++ [.run caller] }, .acquired caller)
    | .run caller :: rest => some ({ w with resuming := rest, running := w.running ++ [caller] }, .started caller)
  | .finish caller resolved =>
    if caller ∈ w.running then
      let (limiter, next) := release w.limiter
      some ({ w with
        limiter
        running := w.running.erase caller
        resuming := w.resuming ++ (next.map Resume.acquire).toList }, .finished caller resolved)
    else none

def idleLimiter : LimiterWorld := { limiter := { active := 0, waiters := [] }, resuming := [], running := [], calls := 0 }

/-- The events so far and the world they have led to. -/
def LimiterRun (concurrency queueLimit : Nat) : List LimiterEvent × LimiterWorld → Prop :=
  Reachable (· = ([], idleLimiter)) fun a b =>
    ∃ move w e, limiterStep concurrency queueLimit a.2 move = some (w, e) ∧ b = (a.1 ++ [e], w)

def LimiterEvent.queued? : LimiterEvent → Option Caller
  | .queued caller => some caller
  | _ => none

def LimiterEvent.started? : LimiterEvent → Option Caller
  | .started caller => some caller
  | _ => none

/-- The callers that had to wait, in the order in which they came. -/
def queuedCallers (events : List LimiterEvent) : List Caller := events.filterMap LimiterEvent.queued?

/-- The callers whose work has started, in the order of the starts. -/
def startedCallers (events : List LimiterEvent) : List Caller := events.filterMap LimiterEvent.started?

def Resume.acquire? : Resume → Option Caller
  | .acquire caller => some caller
  | .run _ => none

def Resume.run? : Resume → Option Caller
  | .acquire _ => none
  | .run caller => some caller

/-! ## 3. One step -/

/-- What a step can do. -/
inductive LimiterStep (concurrency queueLimit : Nat) (w : LimiterWorld) :
    LimiterMove → LimiterWorld → LimiterEvent → Prop where
  | taken (free : w.limiter.active < concurrency) :
      LimiterStep concurrency queueLimit w .call
        { w with limiter := { w.limiter with active := w.limiter.active + 1 },
                 resuming := w.resuming ++ [.run w.calls], calls := w.calls + 1 } (.taken w.calls)
  | refused (full : ¬ w.limiter.active < concurrency) (crowded : queueLimit ≤ w.limiter.waiters.length) :
      LimiterStep concurrency queueLimit w .call { w with calls := w.calls + 1 } (.refused w.calls 1)
  | queued (full : ¬ w.limiter.active < concurrency) (room : w.limiter.waiters.length < queueLimit) :
      LimiterStep concurrency queueLimit w .call
        { w with limiter := { w.limiter with waiters := w.limiter.waiters ++ [w.calls] }, calls := w.calls + 1 }
        (.queued w.calls)
  | acquired (caller : Caller) (rest : List Resume) (head : w.resuming = .acquire caller :: rest) :
      LimiterStep concurrency queueLimit w .resume { w with resuming := rest ++ [.run caller] } (.acquired caller)
  | started (caller : Caller) (rest : List Resume) (head : w.resuming = .run caller :: rest) :
      LimiterStep concurrency queueLimit w .resume
        { w with resuming := rest, running := w.running ++ [caller] } (.started caller)
  | handed (caller next : Caller) (rest : List Caller) (resolved : Bool) (running : caller ∈ w.running)
      (head : w.limiter.waiters = next :: rest) :
      LimiterStep concurrency queueLimit w (.finish caller resolved)
        { w with limiter := { w.limiter with waiters := rest }, running := w.running.erase caller,
                 resuming := w.resuming ++ [.acquire next] } (.finished caller resolved)
  | freed (caller : Caller) (resolved : Bool) (running : caller ∈ w.running) (empty : w.limiter.waiters = []) :
      LimiterStep concurrency queueLimit w (.finish caller resolved)
        { w with limiter := { w.limiter with active := w.limiter.active - 1 },
                 running := w.running.erase caller } (.finished caller resolved)

section
variable {concurrency queueLimit : Nat} {w w' : LimiterWorld} {e : LimiterEvent} {move : LimiterMove}

/-- **Every step is one of these.** -/
theorem limiterStep_cases (h : limiterStep concurrency queueLimit w move = some (w', e)) :
    LimiterStep concurrency queueLimit w move w' e := by
  cases move with
  | call =>
    simp only [limiterStep, acquire] at h
    by_cases hfree : w.limiter.active < concurrency
    · rw [if_pos hfree] at h
      cases h
      exact .taken hfree
    · by_cases hqueue : w.limiter.waiters.length ≥ queueLimit
      · rw [if_neg hfree, if_pos hqueue] at h
        cases h
        exact .refused hfree hqueue
      · rw [if_neg hfree, if_neg hqueue] at h
        cases h
        exact .queued hfree (by omega)
  | resume =>
    simp only [limiterStep] at h
    cases hresuming : w.resuming with
    | nil =>
      rw [hresuming] at h
      cases h
    | cons job rest =>
      rw [hresuming] at h
      cases job with
      | acquire caller =>
        cases h
        exact .acquired caller rest hresuming
      | run caller =>
        cases h
        exact .started caller rest hresuming
  | finish caller resolved =>
    simp only [limiterStep, release] at h
    by_cases hrunning : caller ∈ w.running
    · rw [if_pos hrunning] at h
      cases hwaiters : w.limiter.waiters with
      | nil =>
        rw [hwaiters] at h
        simp only [Option.map_none, Option.toList_none, append_nil] at h
        cases h
        have hstep := @LimiterStep.freed concurrency queueLimit w caller resolved hrunning hwaiters
        simp only [hwaiters] at hstep
        exact hstep
      | cons next rest =>
        rw [hwaiters] at h
        cases h
        exact .handed caller next rest resolved hrunning hwaiters
    · rw [if_neg hrunning] at h
      cases h

/-! ## 4. Slots -/

/-- A slot belongs to a work that runs or to a caller that resumes, and callers wait only when all
    slots are taken. -/
structure LimiterCounts (concurrency queueLimit : Nat) (w : LimiterWorld) : Prop where
  slots : w.limiter.active = w.running.length + w.resuming.length
  bounded : w.limiter.active ≤ concurrency
  queue : w.limiter.waiters.length ≤ queueLimit
  full : w.limiter.waiters ≠ [] → w.limiter.active = concurrency

theorem limiterCounts_idle : LimiterCounts concurrency queueLimit idleLimiter where
  slots := rfl
  bounded := Int.natCast_nonneg _
  queue := Nat.zero_le _
  full := fun h => absurd rfl h

theorem LimiterCounts.next (h : LimiterCounts concurrency queueLimit w)
    (hstep : LimiterStep concurrency queueLimit w move w' e) : LimiterCounts concurrency queueLimit w' := by
  obtain ⟨slots, bounded, queue, full⟩ := h
  cases hstep with
  | taken free =>
    -- a slot is free, so nobody waits
    have hnobody : w.limiter.waiters = [] := by
      by_contra hne
      have := full hne
      omega
    refine ⟨?_, ?_, queue, fun hne => absurd hnobody hne⟩
    · simp only [length_append, length_singleton]
      omega
    · show w.limiter.active + 1 ≤ concurrency
      omega
  | refused hfull crowded => exact ⟨slots, bounded, queue, full⟩
  | queued hfull room =>
    refine ⟨slots, bounded, ?_, fun _ => ?_⟩
    · simp only [length_append, length_singleton]
      omega
    · show w.limiter.active = concurrency
      omega
  | acquired caller rest head =>
    rw [head] at slots
    refine ⟨?_, bounded, queue, full⟩
    simp only [length_append] at slots ⊢
    omega
  | started caller rest head =>
    rw [head] at slots
    refine ⟨?_, bounded, queue, full⟩
    simp only [length_append, length_cons, length_nil] at slots ⊢
    omega
  | handed caller next rest resolved running head =>
    -- the slot passes from one list to the other
    have hpos : 0 < w.running.length := length_pos_of_mem running
    rw [head] at queue full
    refine ⟨?_, bounded, ?_, fun _ => full (cons_ne_nil _ _)⟩
    · simp only [length_append, length_singleton, length_erase_of_mem running]
      omega
    · exact Nat.le_of_succ_le queue
  | freed caller resolved running empty =>
    have hpos : 0 < w.running.length := length_pos_of_mem running
    refine ⟨?_, ?_, queue, fun hne => absurd empty hne⟩
    · simp only [length_erase_of_mem running]
      omega
    · show w.limiter.active - 1 ≤ concurrency
      omega

/-- With no work and no microtask left, nothing is taken and nobody waits. -/
theorem LimiterCounts.empty (h : LimiterCounts concurrency queueLimit w) (hpos : 1 ≤ concurrency)
    (hrunning : w.running = []) (hresuming : w.resuming = []) : w.limiter.active = 0 ∧ w.limiter.waiters = [] := by
  obtain ⟨slots, bounded, queue, full⟩ := h
  have hactive : w.limiter.active = 0 := by
    rw [hrunning, hresuming] at slots
    exact slots
  refine ⟨hactive, ?_⟩
  by_contra hne
  have := full hne
  omega

/-! ## 5. The order of the starts -/

def acquiring (resuming : List Resume) : List Caller := resuming.filterMap Resume.acquire?

def starting (resuming : List Resume) : List Caller := resuming.filterMap Resume.run?

/-- The callers that had to wait stand in one order, from those that have started over those that
    resume to those that wait still. -/
structure LimiterOrder (events : List LimiterEvent) (w : LimiterWorld) : Prop where
  order : queuedCallers events =
    (startedCallers events ++ starting w.resuming).filter (fun caller => caller ∈ queuedCallers events) ++
      (acquiring w.resuming ++ w.limiter.waiters)
  fresh : ∀ caller ∈ queuedCallers events ++ (startedCallers events ++ starting w.resuming), caller < w.calls

section
variable {events : List LimiterEvent} {caller : Caller}

theorem queuedCallers_append : queuedCallers (events ++ [e]) = queuedCallers events ++ e.queued?.toList := by
  unfold queuedCallers
  rw [filterMap_append]
  cases e <;> rfl

theorem startedCallers_append : startedCallers (events ++ [e]) = startedCallers events ++ e.started?.toList := by
  unfold startedCallers
  rw [filterMap_append]
  cases e <;> rfl

@[simp]
theorem acquiring_append (a b : List Resume) : acquiring (a ++ b) = acquiring a ++ acquiring b := filterMap_append

@[simp]
theorem starting_append (a b : List Resume) : starting (a ++ b) = starting a ++ starting b := filterMap_append

@[simp]
theorem acquiring_acquire (rest : List Resume) : acquiring (.acquire caller :: rest) = caller :: acquiring rest := rfl

@[simp]
theorem acquiring_run (rest : List Resume) : acquiring (.run caller :: rest) = acquiring rest := rfl

@[simp]
theorem starting_acquire (rest : List Resume) : starting (.acquire caller :: rest) = starting rest := rfl

@[simp]
theorem starting_run (rest : List Resume) : starting (.run caller :: rest) = caller :: starting rest := rfl

@[simp]
theorem acquiring_nil : acquiring [] = [] := rfl

@[simp]
theorem starting_nil : starting [] = [] := rfl

variable {callers : List Caller} {p : Caller → Bool}

theorem filter_append_of_neg (h : p caller = false) :
    (callers ++ [caller]).filter p = callers.filter p := by
  rw [filter_append, filter_cons_of_neg (by simp [h]), filter_nil, append_nil]

theorem filter_append_of_pos (h : p caller = true) :
    (callers ++ [caller]).filter p = callers.filter p ++ [caller] := by
  rw [filter_append, filter_cons_of_pos h, filter_nil]

theorem limiterOrder_idle : LimiterOrder [] idleLimiter where
  order := rfl
  fresh := fun _ h => absurd h not_mem_nil

/-- A caller that has come only now is none of those before. -/
theorem LimiterOrder.not_mem (h : LimiterOrder events w) :
    w.calls ∉ queuedCallers events ++ (startedCallers events ++ starting w.resuming) := fun hmem =>
  Nat.lt_irrefl _ (h.fresh _ hmem)

section

variable (h : LimiterOrder events w) (hstep : LimiterStep concurrency queueLimit w move w' e)
include h hstep

theorem LimiterOrder.next_order : queuedCallers (events ++ [e]) =
      (startedCallers (events ++ [e]) ++ starting w'.resuming).filter
          (fun caller => caller ∈ queuedCallers (events ++ [e])) ++
        (acquiring w'.resuming ++ w'.limiter.waiters) := by
  have order := h.order
  have hnew := h.not_mem
  rw [queuedCallers_append, startedCallers_append]
  cases hstep with
  | taken free =>
    have hnotQueued : w.calls ∉ queuedCallers events := fun hmem => hnew (mem_append_left _ hmem)
    simp only [LimiterEvent.queued?, LimiterEvent.started?, Option.toList_none, append_nil, starting_append,
      starting_run, starting_nil, acquiring_append, acquiring_run, acquiring_nil]
    rw [← append_assoc (startedCallers events), filter_append_of_neg (by simpa using hnotQueued)]
    exact order
  | refused hfull crowded | freed caller resolved running empty =>
    simp only [LimiterEvent.queued?, LimiterEvent.started?, Option.toList_none, append_nil]
    exact order
  | queued hfull room =>
    -- the new caller is the last that waits, and has not started
    have hsame : (startedCallers events ++ starting w.resuming).filter
          (fun caller => caller ∈ queuedCallers events ++ [w.calls]) =
        (startedCallers events ++ starting w.resuming).filter fun caller => caller ∈ queuedCallers events := by
      refine filter_congr fun caller hmem => ?_
      have hne : caller ≠ w.calls := by
        intro heq
        rw [heq] at hmem
        exact hnew (mem_append_right _ hmem)
      simp [hne]
    simp only [LimiterEvent.queued?, LimiterEvent.started?, Option.toList_some, Option.toList_none, append_nil]
    refine Eq.trans ?_ (congrArg (· ++ _) hsame.symm)
    rw [← append_assoc (acquiring w.resuming), ← append_assoc, ← order]
  | acquired caller rest head =>
    rw [head] at order
    have hmem : caller ∈ queuedCallers events := by
      rw [order]
      simp
    simp only [LimiterEvent.queued?, LimiterEvent.started?, Option.toList_none, append_nil, starting_append,
      starting_run, starting_nil, acquiring_append, acquiring_run,
      acquiring_nil] at order ⊢
    rw [← append_assoc (startedCallers events), filter_append_of_pos (by simpa using hmem), append_assoc,
      singleton_append]
    exact order
  | started caller rest head =>
    rw [head] at order
    simp only [LimiterEvent.queued?, LimiterEvent.started?, Option.toList_none, Option.toList_some, append_nil] at order ⊢
    rw [append_assoc]
    exact order
  | handed caller next rest resolved running head =>
    rw [head] at order
    simp only [LimiterEvent.queued?, LimiterEvent.started?, Option.toList_none, append_nil, starting_append,
      starting_acquire, starting_nil, acquiring_append, acquiring_acquire, acquiring_nil]
    rw [append_assoc (acquiring w.resuming)]
    exact order

theorem LimiterOrder.next_fresh :
    ∀ caller ∈ queuedCallers (events ++ [e]) ++ (startedCallers (events ++ [e]) ++ starting w'.resuming),
      caller < w'.calls := by
  have hacquiring : ∀ caller ∈ acquiring w.resuming, caller < w.calls := by
    intro caller hmem
    refine h.fresh caller (mem_append_left _ ?_)
    rw [h.order]
    exact mem_append_right _ (mem_append_left _ hmem)
  have fresh := h.fresh
  rw [queuedCallers_append, startedCallers_append]
  intro caller hmem
  cases hstep with
  | taken free =>
    have hcases : caller ∈ queuedCallers events ++ (startedCallers events ++ starting w.resuming) ∨
        caller = w.calls := by
      simpa [LimiterEvent.queued?, LimiterEvent.started?, or_assoc] using hmem
    rcases hcases with hold | heq
    · exact Nat.lt_succ_of_lt (fresh caller hold)
    · exact heq ▸ Nat.lt_succ_self _
  | refused hfull crowded =>
    simp only [LimiterEvent.queued?, LimiterEvent.started?, Option.toList_none, append_nil] at hmem
    exact Nat.lt_succ_of_lt (fresh caller hmem)
  | queued hfull room =>
    have hcases : caller ∈ queuedCallers events ++ (startedCallers events ++ starting w.resuming) ∨
        caller = w.calls := by
      simp only [LimiterEvent.queued?, Option.toList_some, mem_append, mem_singleton] at hmem ⊢
      tauto
    rcases hcases with hold | heq
    · exact Nat.lt_succ_of_lt (fresh caller hold)
    · exact heq ▸ Nat.lt_succ_self _
  | acquired resumed rest head =>
    rw [head] at fresh hacquiring
    simp only [LimiterEvent.queued?, LimiterEvent.started?, Option.toList_none, append_nil, starting_append,
      starting_run, starting_nil, mem_append, mem_singleton] at hmem
    rcases hmem with hmem | hmem | hmem | rfl
    · exact fresh caller (mem_append_left _ hmem)
    · exact fresh caller (mem_append_right _ (mem_append_left _ hmem))
    · exact fresh caller (mem_append_right _ (mem_append_right _ hmem))
    · exact hacquiring caller mem_cons_self
  | started resumed rest head =>
    rw [head] at fresh
    refine fresh caller ?_
    simpa [LimiterEvent.queued?, LimiterEvent.started?] using hmem
  | handed finished next rest resolved running head | freed finished resolved running empty =>
    refine fresh caller ?_
    simpa [LimiterEvent.queued?, LimiterEvent.started?] using hmem

end

end

/-! ## 6. Runs -/

variable {run : List LimiterEvent × LimiterWorld}

/-- **Slots and order in every run.** -/
theorem limiterRun_invariant (h : LimiterRun concurrency queueLimit run) :
    LimiterCounts concurrency queueLimit run.2 ∧ LimiterOrder run.1 run.2 := by
  refine Reachable.invariant (I := fun run => LimiterCounts concurrency queueLimit run.2 ∧ LimiterOrder run.1 run.2)
    ?_ ?_ h
  · rintro run rfl
    exact ⟨limiterCounts_idle, limiterOrder_idle⟩
  · rintro run _ ⟨hcounts, horder⟩ ⟨move, w, e, hstep, rfl⟩
    have hcase := limiterStep_cases hstep
    exact ⟨hcounts.next hcase, horder.next_order hcase, horder.next_fresh hcase⟩

/-- **The limiter bounds and hands over its slots**, in every run. -/
theorem limiter_hands_over (concurrency queueLimit : Nat) (hpos : 1 ≤ concurrency) (events : List LimiterEvent)
    (w : LimiterWorld) (h : LimiterRun concurrency queueLimit (events, w)) :
    w.running.length ≤ concurrency ∧ w.limiter.waiters.length ≤ queueLimit ∧
      w.limiter.active = w.running.length + w.resuming.length ∧
      (w.limiter.waiters ≠ [] → w.limiter.active = concurrency) ∧
      (startedCallers events).filter (fun caller => caller ∈ queuedCallers events) <+: queuedCallers events ∧
      (∀ move w' caller, limiterStep concurrency queueLimit w move = some (w', .queued caller) →
        w.limiter.active = concurrency) ∧
      (∀ move w' caller seconds, limiterStep concurrency queueLimit w move = some (w', .refused caller seconds) →
        w.limiter.active = concurrency ∧ w.limiter.waiters.length = queueLimit) ∧
      (w.running = [] → w.resuming = [] → w.limiter.active = 0 ∧ w.limiter.waiters = []) := by
  obtain ⟨hcounts, horder⟩ : LimiterCounts concurrency queueLimit w ∧ LimiterOrder events w := limiterRun_invariant h
  have slots := hcounts.slots
  have bounded := hcounts.bounded
  have order := horder.order
  refine ⟨by omega, hcounts.queue, slots, hcounts.full, ?_, ?_, ?_, hcounts.empty hpos⟩
  · rw [filter_append, append_assoc] at order
    exact ⟨_, order.symm⟩
  · intro move w' caller hstep
    cases limiterStep_cases hstep with
    | queued hfull room => omega
  · intro move w' caller seconds hstep
    cases limiterStep_cases hstep with
    | refused hfull crowded =>
      have := hcounts.queue
      omega

/-- One caller after the other: the second waits, the third is refused, the slot is handed over. -/
theorem limiter_hands_over_contended :
    let w : LimiterWorld :=
      { limiter := { active := 1, waiters := [] }, resuming := [.acquire 1], running := [], calls := 3 }
    w.running.length ≤ 1 ∧ w.limiter.waiters.length ≤ 1 ∧ w.limiter.active = w.running.length + w.resuming.length := by
  have h : LimiterRun 1 1 ([.taken 0, .started 0, .queued 1, .refused 2 1, .finished 0 false],
      { limiter := { active := 1, waiters := [] }, resuming := [.acquire 1], running := [], calls := 3 }) := by
    refine Reachable.next (Reachable.next (Reachable.next (Reachable.next (Reachable.next (Reachable.start rfl)
      ⟨.call, _, _, rfl, rfl⟩) ⟨.resume, _, _, rfl, rfl⟩) ⟨.call, _, _, rfl, rfl⟩) ⟨.call, _, _, rfl, rfl⟩)
      ⟨.finish 0 false, _, _, rfl, rfl⟩
  obtain ⟨hrunning, hwaiters, hactive, -⟩ := limiter_hands_over 1 1 (Nat.le_refl 1) _ _ h
  exact ⟨hrunning, hwaiters, hactive⟩

/-! ## 7. Without further calls -/

/-- The moves that a world still has in it. -/
def LimiterWorld.load (w : LimiterWorld) : Nat :=
  4 * w.limiter.waiters.length + 3 * (acquiring w.resuming).length + 2 * (starting w.resuming).length + w.running.length

/-- **Completions come to an end.** -/
theorem LimiterStep.load_lt (h : LimiterStep concurrency queueLimit w move w' e) (hmove : move ≠ .call) :
    w'.load < w.load := by
  unfold LimiterWorld.load
  cases h with
  | taken free | refused hfull crowded | queued hfull room => exact absurd rfl hmove
  | acquired caller rest head =>
    rw [head]
    simp only [acquiring_append, starting_append, acquiring_acquire, starting_acquire, acquiring_run, starting_run,
      acquiring_nil, starting_nil, length_append, length_cons, length_nil]
    omega
  | started caller rest head =>
    rw [head]
    simp only [acquiring_run, starting_run, length_append, length_cons, length_nil]
    omega
  | handed caller next rest resolved running head =>
    rw [head]
    simp only [acquiring_append, starting_append, acquiring_acquire, starting_acquire, acquiring_nil, starting_nil,
      length_append, length_cons, length_nil, length_erase_of_mem running]
    omega
  | freed caller resolved running empty =>
    have hpos : 0 < w.running.length := length_pos_of_mem running
    simp only [length_erase_of_mem running]
    omega

/-- **The limiter settles.** Without further calls every move brings it closer to its end, and where no
    microtask and no work is left, no slot is taken and all that had to wait have started, in their order. -/
theorem limiter_settles (hpos : 1 ≤ concurrency) (h : LimiterRun concurrency queueLimit run) :
    (∀ move w' e, move ≠ .call → limiterStep concurrency queueLimit run.2 move = some (w', e) →
      w'.load < run.2.load) ∧
    ((∀ move, move ≠ .call → limiterStep concurrency queueLimit run.2 move = none) →
      run.2.limiter.active = 0 ∧ run.2.limiter.waiters = [] ∧
        (startedCallers run.1).filter (fun caller => caller ∈ queuedCallers run.1) = queuedCallers run.1) := by
  refine ⟨fun move w' e hmove hstep => (limiterStep_cases hstep).load_lt hmove, fun hstuck => ?_⟩
  have hrunning : run.2.running = [] := by
    cases hlist : run.2.running with
    | nil => rfl
    | cons caller rest => simpa [limiterStep, hlist] using hstuck (.finish caller true) nofun
  have hresuming : run.2.resuming = [] := by
    cases hlist : run.2.resuming with
    | nil => rfl
    | cons job rest =>
      have hnone := hstuck .resume nofun
      cases job <;> simp [limiterStep, hlist] at hnone
  obtain ⟨hcounts, horder⟩ := limiterRun_invariant h
  obtain ⟨hactive, hwaiters⟩ := hcounts.empty hpos hrunning hresuming
  have order := horder.order
  rw [hresuming, hwaiters, starting_nil, acquiring_nil, append_nil, append_nil, append_nil] at order
  exact ⟨hactive, hwaiters, order.symm⟩

theorem limiter_settles_contended : ∃ w' e,
    limiterStep 1 1 ⟨⟨1, [1]⟩, [], [0], 2⟩ (.finish 0 true) = some (w', e) ∧ w'.load < 5 := by
  have h : LimiterRun 1 1 ([.taken 0, .started 0, .queued 1], ⟨⟨1, [1]⟩, [], [0], 2⟩) :=
    Reachable.next (Reachable.next (Reachable.next (Reachable.start rfl) ⟨.call, _, _, rfl, rfl⟩)
      ⟨.resume, _, _, rfl, rfl⟩) ⟨.call, _, _, rfl, rfl⟩
  exact ⟨_, _, rfl, (limiter_settles (Nat.le_refl 1) h).1 (.finish 0 true) _ _ (by decide) rfl⟩

end

end AdsManagement.Auth
