/-
  File:      Web/RefreshLocks.lean
  Subject:   ONE REFRESH AT A TIME under the Web Locks API (auth-coordination.ts: runRefresh,
             runExclusive, performRefresh, onMessage).

  The calls of all tabs wait in one queue for one lock. A refresh remembers the generation it
  starts from, and compares it again when it has the lock; messages between the tabs arrive late
  or never. Beside the state stands the number of refreshes that have succeeded so far, and with
  each call that number at its start.

  * `LockPhase`, `LockStep`;
  * `LockInv` -- nobody sees a generation that is not stored, and the stored one counts the
    successes;
  * `refresh_coordinated` -- what holds of every run, as long as no refresh succeeds at the
    greatest safe integer;
  * `generation_lost` -- what happens there.
-/
import AdsManagement.Lib.Runs
import AdsManagement.Web.AuthCoordinator

namespace AdsManagement.Web

open Common Lib Function

/-! ## 1. Calls and the lock -/

variable {τ κ : Type}

/-- What a call wants the lock for; a refresh comes with the generation at its start. -/
inductive LockTask where
  | refresh (generation : Nat)
  | exclusive
deriving DecidableEq

/-- Where a call stands, with the number of successes at its start and after its own. -/
inductive LockPhase where
  | idle
  | waiting (task : LockTask) (began : Nat)
  | running (task : LockTask) (began : Nat)
  | performed (began completed : Nat)
  | peerCompleted (began : Nat)
  | finished
  | failed
deriving DecidableEq

structure LockState (τ κ : Type) where
  /-- `observedGeneration` of each tab. -/
  observed : τ → Nat
  stored : Option String
  /-- The `refresh-complete` messages that were sent, with their sender. -/
  messages : List (τ × Nat)
  queue : List κ
  holder : Option κ
  phase : κ → LockPhase
  successes : Nat

/-- The generation a tab sees. -/
def LockState.seen (s : LockState τ κ) (t : τ) : Nat := generation (s.observed t) s.stored

/-- The generation in the storage. -/
def LockState.storedGeneration (s : LockState τ κ) : Nat := readGeneration s.stored

section Steps

variable [DecidableEq τ] [DecidableEq κ]

def LockState.goto (s : LockState τ κ) (c : κ) (phase : LockPhase) : LockState τ κ :=
  { s with phase := update s.phase c phase }

/-- The call asks for the lock. -/
def LockState.enqueue (s : LockState τ κ) (c : κ) (task : LockTask) : LockState τ κ :=
  { s.goto c (.waiting task s.successes) with queue := s.queue ++ [c] }

/-- The end of `performRefresh`. -/
def LockState.complete (s : LockState τ κ) (c : κ) (t : τ) (began : Nat) : LockState τ κ :=
  let next := nextGeneration (s.seen t)
  { s.goto c (.performed began (s.successes + 1)) with
    observed := update s.observed t next
    stored := some (generationText next)
    messages := (t, next) :: s.messages
    holder := none
    successes := s.successes + 1 }

inductive LockStep (tab : κ → τ) (s : LockState τ κ) : LockState τ κ → Prop
  | runRefresh (c : κ) (h : s.phase c = .idle) :
      LockStep tab s (s.enqueue c (.refresh (s.seen (tab c))))
  | runExclusive (c : κ) (h : s.phase c = .idle) : LockStep tab s (s.enqueue c .exclusive)
  -- the lock is granted in the order of the requests
  | grant (c : κ) (rest : List κ) (task : LockTask) (began : Nat) (hq : s.queue = c :: rest)
      (hf : s.holder = none) (h : s.phase c = .waiting task began)
      (hg : ∀ g, task = .refresh g → s.seen (tab c) ≤ g) :
      LockStep tab s { s.goto c (.running task began) with queue := rest, holder := some c }
  | grantPeer (c : κ) (rest : List κ) (g began : Nat) (hq : s.queue = c :: rest)
      (hf : s.holder = none) (h : s.phase c = .waiting (.refresh g) began) (hg : g < s.seen (tab c)) :
      LockStep tab s { s.goto c (.peerCompleted began) with queue := rest }
  | succeed (c : κ) (g began : Nat) (h : s.phase c = .running (.refresh g) began) :
      LockStep tab s (s.complete c (tab c) began)
  | finish (c : κ) (began : Nat) (h : s.phase c = .running .exclusive began) :
      LockStep tab s { s.goto c .finished with holder := none }
  | fail (c : κ) (task : LockTask) (began : Nat) (h : s.phase c = .running task began) :
      LockStep tab s { s.goto c .failed with holder := none }
  -- onMessage, for a message of another tab
  | receive (t sender : τ) (g : Nat) (hm : (sender, g) ∈ s.messages) (hne : sender ≠ t) :
      LockStep tab s { s with observed := update s.observed t (max (s.observed t) g) }

end Steps

/-- New tabs, whatever earlier ones have left in the storage. -/
structure LockStart (s : LockState τ κ) : Prop where
  observed : ∀ t, s.observed t = 0
  messages : s.messages = []
  queue : s.queue = []
  holder : s.holder = none
  phase : ∀ c, s.phase c = .idle

/-! ## 2. The invariant -/

/-- A refresh that waits or runs, with the generation and the number of successes at its start. -/
def LockPhase.refreshing : LockPhase → Option (Nat × Nat)
  | .waiting (.refresh g) began => some (g, began)
  | .running (.refresh g) began => some (g, began)
  | _ => none

structure LockInv (s : LockState τ κ) : Prop where
  holder : ∀ c task began, s.phase c = .running task began → s.holder = some c
  observed : ∀ t, s.observed t ≤ s.storedGeneration
  messages : ∀ m ∈ s.messages, m.2 ≤ s.storedGeneration
  /-- Since the start of a call the generation has grown by the number of successes. -/
  counted : ∀ c g began, (s.phase c).refreshing = some (g, began) →
    began ≤ s.successes ∧ g + s.successes = s.storedGeneration + began
  current : ∀ c g began, s.phase c = .running (.refresh g) began → began = s.successes
  performed : ∀ c began completed, s.phase c = .performed began completed →
    completed = began + 1 ∧ completed ≤ s.successes
  once : ∀ c d began began' completed, s.phase c = .performed began completed →
    s.phase d = .performed began' completed → c = d
  peer : ∀ c began, s.phase c = .peerCompleted began → began < s.successes

variable {tab : κ → τ} {s s' : LockState τ κ}

/-- **Every tab sees what is stored.** -/
theorem LockInv.seen (h : LockInv s) (t : τ) : s.seen t = s.storedGeneration :=
  Nat.max_eq_right (h.observed t)

theorem LockInv.start (h : LockStart s) : LockInv s where
  holder c task began hc := by rw [h.phase c] at hc; cases hc
  observed t := by rw [h.observed t]; exact Nat.zero_le _
  messages m hm := by rw [h.messages] at hm; cases hm
  counted c g began hc := by rw [h.phase c] at hc; cases hc
  current c g began hc := by rw [h.phase c] at hc; cases hc
  performed c began completed hc := by rw [h.phase c] at hc; cases hc
  once c d began began' completed hc := by rw [h.phase c] at hc; cases hc
  peer c began hc := by rw [h.phase c] at hc; cases hc

/-- No refresh succeeds at the greatest safe integer. -/
def BelowLimit (s s' : LockState τ κ) : Prop :=
  s'.successes = s.successes ∨ s.storedGeneration < maxSafeInteger

section Invariant

variable [DecidableEq κ]
variable {phase : LockPhase} {c : κ}

/-- A call moves, and the generation stays as it is. -/
theorem LockInv.move (h : LockInv s) (ho : s'.observed = s.observed) (hst : s'.stored = s.stored)
    (hm : s'.messages = s.messages) (hn : s'.successes = s.successes)
    (hp : s'.phase = update s.phase c phase)
    (holder : ∀ d task began, update s.phase c phase d = .running task began → s'.holder = some d)
    (counted : ∀ g began, phase.refreshing = some (g, began) →
      began ≤ s.successes ∧ g + s.successes = s.storedGeneration + began)
    (current : ∀ g began, phase = .running (.refresh g) began → began = s.successes)
    (performed : ∀ began completed, phase ≠ .performed began completed)
    (peer : ∀ began, phase = .peerCompleted began → began < s.successes) : LockInv s' where
  holder d task began hd := holder d task began (hp ▸ hd)
  observed t := by
    unfold LockState.storedGeneration
    rw [ho, hst]
    exact h.observed t
  messages m hm' := by
    unfold LockState.storedGeneration
    rw [hst]
    exact h.messages m (hm ▸ hm')
  counted d g began hd := by
    unfold LockState.storedGeneration
    rw [hp] at hd
    rw [hn, hst]
    rcases update_reads LockPhase.refreshing hd with ⟨-, hd'⟩ | ⟨-, hd'⟩
    · exact counted g began hd'
    · exact h.counted d g began hd'
  current d g began hd := by
    rw [hp] at hd
    rw [hn]
    rcases update_eq_cases hd with ⟨-, hd'⟩ | ⟨-, hd'⟩
    · exact current g began hd'
    · exact h.current d g began hd'
  performed d began completed hd := by
    rw [hp] at hd
    rw [hn]
    rcases update_eq_cases hd with ⟨-, hd'⟩ | ⟨-, hd'⟩
    · exact absurd hd' (performed began completed)
    · exact h.performed d began completed hd'
  once d e began began' completed hd he := by
    rw [hp] at hd he
    rcases update_eq_cases hd with ⟨-, hd'⟩ | ⟨-, hd'⟩
    · exact absurd hd' (performed began completed)
    · rcases update_eq_cases he with ⟨-, he'⟩ | ⟨-, he'⟩
      · exact absurd he' (performed began' completed)
      · exact h.once d e began began' completed hd' he'
  peer d began hd := by
    rw [hp] at hd
    rw [hn]
    rcases update_eq_cases hd with ⟨-, hd'⟩ | ⟨-, hd'⟩
    · exact peer began hd'
    · exact h.peer d began hd'

/-- A call that does not run has moved: the lock stays with the one that does. -/
theorem LockInv.holder_of_not_running (h : LockInv s) (hp : ∀ task began, phase ≠ .running task began) :
    ∀ d task began, update s.phase c phase d = .running task began → s.holder = some d := by
  intro d task began hd
  rcases update_eq_cases hd with ⟨-, hd'⟩ | ⟨-, hd'⟩
  · exact absurd hd' (hp task began)
  · exact h.holder d task began hd'

variable {task : LockTask} {began : Nat}

/-- The call that ran has ended: no other one runs. -/
theorem LockInv.none_running (h : LockInv s) (hc : s.phase c = .running task began)
    (hp : ∀ task began, phase ≠ .running task began) {d : κ} {task' : LockTask} {began' : Nat}
    (hd : update s.phase c phase d = .running task' began') :
    False := by
  rcases update_eq_cases hd with ⟨-, hd'⟩ | ⟨hne, hd'⟩
  · exact hp task' began' hd'
  · have hsame := (h.holder c task began hc).symm.trans (h.holder d task' began' hd')
    exact hne (Option.some.inj hsame).symm

theorem LockInv.enqueue (h : LockInv s) (c : κ) (htask : ∀ g, task = .refresh g → g = s.storedGeneration) :
    LockInv (s.enqueue c task) := by
  refine h.move (c := c) rfl rfl rfl rfl rfl (h.holder_of_not_running (by simp)) ?_ (by simp) (by simp)
    (by simp)
  intro g began hg
  cases task with
  | exclusive => cases hg
  | refresh g' =>
    cases hg
    exact ⟨Nat.le_refl _, by rw [htask _ rfl]⟩

variable [DecidableEq τ]

theorem LockInv.complete (h : LockInv s) {g : Nat} (hc : s.phase c = .running (.refresh g) began) (t : τ)
    (hl : s.storedGeneration < maxSafeInteger) :
    LockInv (s.complete c t began) ∧
      (s.complete c t began).storedGeneration = s.storedGeneration + 1 := by
  have hnext : (s.complete c t began).storedGeneration = s.storedGeneration + 1 := by
    change readGeneration (some (generationText (nextGeneration (s.seen t)))) = _
    rw [h.seen t]
    exact readGeneration_next hl
  have hseen : nextGeneration (s.seen t) = s.storedGeneration + 1 := by
    rw [h.seen t]
    exact if_pos (Nat.le_of_lt hl)
  refine ⟨{ holder := ?_, observed := ?_, messages := ?_, counted := ?_, current := ?_,
            performed := ?_, once := ?_, peer := ?_ }, hnext⟩
  · intro d task began' hd
    exact (h.none_running hc (by simp) hd).elim
  · intro t'
    rw [hnext]
    rcases update_cases (fun n => (s.complete c t began).observed t' = n) rfl with ⟨-, ht⟩ | ⟨-, ht⟩
    · exact ht ▸ hseen ▸ Nat.le_refl _
    · exact ht ▸ Nat.le_succ_of_le (h.observed t')
  · intro m hm
    rw [hnext]
    rcases List.mem_cons.mp hm with rfl | hm
    · exact Nat.le_of_eq hseen
    · exact Nat.le_succ_of_le (h.messages m hm)
  · intro d g' began' hd
    rcases update_reads LockPhase.refreshing hd with ⟨-, hd'⟩ | ⟨-, hd'⟩
    · cases hd'
    · obtain ⟨hle, hsum⟩ := h.counted d g' began' hd'
      exact ⟨Nat.le_succ_of_le hle, by change g' + (s.successes + 1) = _; omega⟩
  · intro d g' began' hd
    exact (h.none_running hc (by simp) hd).elim
  · intro d began' completed hd
    rcases update_eq_cases hd with ⟨-, hd'⟩ | ⟨-, hd'⟩
    · cases hd'
      exact ⟨by rw [h.current c g began hc], Nat.le_refl _⟩
    · obtain ⟨heq, hle⟩ := h.performed d began' completed hd'
      exact ⟨heq, Nat.le_succ_of_le hle⟩
  · intro d e began' began'' completed hd he
    rcases update_eq_cases hd with ⟨rfl, hd'⟩ | ⟨-, hd'⟩
    · rcases update_eq_cases he with ⟨rfl, -⟩ | ⟨-, he'⟩
      · rfl
      · cases hd'
        -- the number of this success is new
        have := (h.performed e began'' _ he').2
        omega
    · rcases update_eq_cases he with ⟨rfl, he'⟩ | ⟨-, he'⟩
      · cases he'
        have := (h.performed d began' _ hd').2
        omega
      · exact h.once d e began' began'' completed hd' he'
  · intro d began' hd
    rcases update_eq_cases hd with ⟨-, hd'⟩ | ⟨-, hd'⟩
    · cases hd'
    · exact Nat.lt_succ_of_lt (h.peer d began' hd')

omit [DecidableEq κ] in
theorem LockInv.receive (h : LockInv s) {t sender : τ} {g : Nat} (hm : (sender, g) ∈ s.messages) :
    LockInv { s with observed := update s.observed t (max (s.observed t) g) } where
  holder := h.holder
  observed t' := by
    change update s.observed t (max (s.observed t) g) t' ≤ s.storedGeneration
    by_cases ht : t' = t
    · subst ht
      rw [update_self]
      exact Nat.max_le.mpr ⟨h.observed t', h.messages _ hm⟩
    · rw [update_of_ne ht]
      exact h.observed t'
  messages := h.messages
  counted := h.counted
  current := h.current
  performed := h.performed
  once := h.once
  peer := h.peer

theorem LockInv.step (h : LockInv s) (hs : LockStep tab s s') (hl : BelowLimit s s') : LockInv s' := by
  cases hs with
  | runRefresh c hc => exact h.enqueue c fun g hg => LockTask.refresh.inj hg ▸ h.seen (tab c)
  | runExclusive c hc => exact h.enqueue c nofun
  | grant c rest task began hq hf hc hg =>
    have hcounted : ∀ g began', (LockPhase.running task began).refreshing = some (g, began') →
        began' ≤ s.successes ∧ g + s.successes = s.storedGeneration + began' := by
      intro g began' hr
      refine h.counted c g began' ?_
      rw [hc]
      cases task with
      | refresh g' => exact hr
      | exclusive => cases hr
    refine h.move (c := c) rfl rfl rfl rfl rfl ?_ hcounted ?_ (by simp) (by simp)
    · intro d task' began' hd
      rcases update_eq_cases hd with ⟨rfl, -⟩ | ⟨-, hd'⟩
      · rfl
      · have := h.holder d task' began' hd'
        rw [hf] at this
        cases this
    · intro g began' hr
      obtain ⟨rfl, rfl⟩ := LockPhase.running.inj hr
      -- the generation has not grown since the start
      have hsame := hg g rfl
      rw [h.seen] at hsame
      have hcount := hcounted g began rfl
      omega
  | grantPeer c rest g began hq hf hc hg =>
    refine h.move (c := c) rfl rfl rfl rfl rfl (h.holder_of_not_running (by simp)) nofun (by simp)
      (by simp) ?_
    intro began' hp
    cases hp
    rw [h.seen] at hg
    have hcount := h.counted c g began (by rw [hc]; rfl)
    omega
  | succeed c g began hc =>
    rcases hl with hsame | hlt
    · exact absurd hsame (Nat.succ_ne_self _)
    · exact (h.complete hc (tab c) hlt).1
  | finish c began hc | fail c task began hc =>
    exact h.move (c := c) rfl rfl rfl rfl rfl (fun d _ _ hd => (h.none_running hc (by simp) hd).elim)
      nofun (by simp) (by simp) (by simp)
  | receive t sender g hm hne => exact h.receive hm

/-! ## 3. Runs -/

/-- What holds of the calls at any moment. -/
structure LockSafe (s : LockState τ κ) : Prop where
  oneTask : ∀ c d task task' began began', s.phase c = .running task began →
    s.phase d = .running task' began' → c = d
  /-- A peer has completed: some task has succeeded since the call began. -/
  peerCompleted : ∀ c began, s.phase c = .peerCompleted began → began < s.successes
  /-- Of two calls that succeeded, one began after the success of the other. -/
  oneSuccess : ∀ c d began began' completed completed', c ≠ d →
    s.phase c = .performed began completed → s.phase d = .performed began' completed' →
    completed ≤ began' ∨ completed' ≤ began

/-- What holds of every step. -/
structure LockStepSafe (s s' : LockState τ κ) : Prop where
  seen : ∀ t, s.seen t ≤ s'.seen t
  /-- The stored generation grows by one for each success. -/
  stored : s'.storedGeneration + s.successes = s.storedGeneration + s'.successes
  success : s'.successes = s.successes ∨ s'.successes = s.successes + 1 ∧
    ∃ c g began, s.phase c = .running (.refresh g) began ∧
      s'.phase c = .performed began s'.successes
  /-- A task that fails leaves the generation as it was … -/
  failed : ∀ c task began, s.phase c = .running task began → s'.phase c = .failed →
    s'.stored = s.stored ∧ s'.observed = s.observed ∧ s'.successes = s.successes
  /-- … and a call that waits, and since whose start no task has succeeded, will run its own. -/
  retry : ∀ c g began, s.phase c = .waiting (.refresh g) began → began = s.successes →
    s'.phase c = s.phase c ∨ s'.phase c = .running (.refresh g) began

omit [DecidableEq κ] [DecidableEq τ] in
theorem LockInv.safe (h : LockInv s) : LockSafe s where
  oneTask c d task task' began began' hc hd := by
    have hsame := (h.holder c task began hc).symm.trans (h.holder d task' began' hd)
    exact Option.some.inj hsame
  peerCompleted := h.peer
  oneSuccess c d began began' completed completed' hne hc hd := by
    have hc' := h.performed c began completed hc
    have hd' := h.performed d began' completed' hd
    have hdiff : completed ≠ completed' := by
      rintro rfl
      exact hne (h.once c d began began' completed hc hd)
    omega

theorem LockInv.stepSafe (h : LockInv s) (hs : LockStep tab s s') (hl : BelowLimit s s') :
    LockStepSafe s s' := by
  have h' : LockInv s' := h.step hs hl
  have hstored : s'.storedGeneration + s.successes = s.storedGeneration + s'.successes ∧
      (s'.successes = s.successes ∨ s'.successes = s.successes + 1 ∧
        ∃ c g began, s.phase c = .running (.refresh g) began ∧
          s'.phase c = .performed began s'.successes) := by
    cases hs with
    | succeed c g began hc =>
      rcases hl with hsame | hlt
      · exact absurd hsame (Nat.succ_ne_self _)
      · have hnext := (h.complete hc (tab c) hlt).2
        refine ⟨?_, .inr ⟨rfl, c, g, began, hc, update_self _ _ _⟩⟩
        change _ = s.storedGeneration + (s.successes + 1)
        omega
    | _ => exact ⟨rfl, .inl rfl⟩
  refine { seen := fun t => ?_, stored := hstored.1, success := hstored.2, failed := ?_, retry := ?_ }
  · rw [h.seen, h'.seen]
    rcases hstored.2 with hsame | ⟨hsucc, -⟩
    · omega
    · omega
  · intro c task began hc hf
    cases hs with
    | succeed d g began' hd =>
      rcases update_eq_cases hf with ⟨-, hf'⟩ | ⟨hne, hf'⟩
      · cases hf'
      · rw [hc] at hf'
        cases hf'
    | receive t sender g hm hne =>
      rw [show s.phase c = .failed from hf] at hc
      cases hc
    | _ => exact ⟨rfl, rfl, rfl⟩
  · intro c g began hc hb
    cases hs with
    | runRefresh d hd | runExclusive d hd | succeed d g' began' hd | finish d began' hd
    | fail d task began' hd => exact .inl (update_other hc hd (by simp))
    | grant d rest task began' hq hf hd hg =>
      by_cases he : c = d
      · subst he
        refine .inr ((update_self _ _ _).trans ?_)
        obtain ⟨rfl, rfl⟩ := LockPhase.waiting.inj (hd.symm.trans hc)
        rfl
      · exact .inl (update_of_ne he _ _)
    | grantPeer d rest g' began' hq hf hd hg =>
      by_cases he : c = d
      · subst he
        -- it would have seen a success since its start
        obtain ⟨htask, rfl⟩ := LockPhase.waiting.inj (hd.symm.trans hc)
        have hcount := h.counted c g' began' (by rw [hd]; rfl)
        rw [h.seen] at hg
        omega
      · exact .inl (update_of_ne he _ _)
    | receive t sender g' hm hne => exact .inl rfl

/-- **The tabs refresh one at a time, and once for each expiry.** In every run in which no refresh
    succeeds at the greatest safe integer. -/
theorem refresh_coordinated (tab : κ → τ) {s : LockState τ κ}
    (hr : Reachable LockStart (When (LockStep tab) BelowLimit) s) :
    LockSafe s ∧ ∀ s', LockStep tab s s' → BelowLimit s s' → LockStepSafe s s' := by
  have hinv : LockInv s :=
    hr.invariant (fun _ h => LockInv.start h) fun _ _ h hs => h.step hs.1 hs.2
  exact ⟨hinv.safe, fun s' hs hl => hinv.stepSafe hs hl⟩

end Invariant

/-! ## 4. The greatest safe integer -/

/-- Two tabs, each with one call, after as many refreshes as given. -/
def twoTabs (generation : Nat) : LockState Bool Bool where
  observed _ := 0
  stored := some (generationText generation)
  messages := []
  queue := []
  holder := none
  phase _ := .idle
  successes := 0

theorem twoTabs_start (n : Nat) : LockStart (twoTabs n) :=
  ⟨fun _ => rfl, rfl, rfl, rfl, fun _ => rfl⟩

/-- The first call asks for the lock and has it. -/
def firstWaits (generation : Nat) : LockState Bool Bool :=
  (twoTabs generation).enqueue true (.refresh ((twoTabs generation).seen true))

def firstRuns (generation : Nat) : LockState Bool Bool :=
  { (firstWaits generation).goto true (.running (.refresh ((twoTabs generation).seen true)) 0) with
    queue := []
    holder := some true }

theorem reachable_firstRuns (n : Nat) :
    Reachable LockStart (When (LockStep id) BelowLimit) (firstRuns n) := by
  have h0 : Reachable LockStart (When (LockStep id) BelowLimit) (twoTabs n) := .start (twoTabs_start n)
  have h1 := h0.next (t := firstWaits n) ⟨.runRefresh true rfl, .inl rfl⟩
  refine h1.next ⟨.grant true [] _ 0 rfl rfl rfl ?_, .inl rfl⟩
  intro g hg
  cases hg
  exact Nat.le_refl _

/-- A refresh that succeeds: the generation goes from 7 to 8. -/
theorem refresh_coordinated_of_success :
    ∃ s s' : LockState Bool Bool, Reachable LockStart (When (LockStep id) BelowLimit) s ∧
      LockStep id s s' ∧ s.storedGeneration = 7 ∧ s'.storedGeneration = 8 ∧ LockStepSafe s s' := by
  have hr := reachable_firstRuns 7
  have hstored : (firstRuns 7).storedGeneration = 7 := by
    exact (readGeneration_generationText 7).trans (if_pos (by decide))
  have hs : LockStep id (firstRuns 7) ((firstRuns 7).complete true true 0) := .succeed true _ 0 rfl
  have hsafe := (refresh_coordinated id hr).2 _ hs (.inr (by rw [hstored]; decide))
  refine ⟨_, _, hr, hs, hstored, ?_, hsafe⟩
  have hgrown : ((firstRuns 7).complete true true 0).storedGeneration + 0 =
      (firstRuns 7).storedGeneration + 1 := hsafe.stored
  omega

/-- **A generation that gets lost**: the refresh at the greatest safe integer stores a text that
    every tab reads as 0, and the other tab, which saw the old one, sees 0. -/
theorem generation_lost :
    ¬ ∀ s : LockState Bool Bool, Reachable LockStart (LockStep id) s →
      LockSafe s ∧ ∀ s', LockStep id s s' → LockStepSafe s s' := by
  intro hclaim
  have hr := (reachable_firstRuns maxSafeInteger).of_when
  have hs : LockStep id (firstRuns maxSafeInteger) ((firstRuns maxSafeInteger).complete true true 0) :=
    .succeed true _ 0 rfl
  have hseen := ((hclaim _ hr).2 _ hs).seen false
  have hold : (firstRuns maxSafeInteger).seen false = maxSafeInteger := by
    change max 0 (readGeneration (some (generationText maxSafeInteger))) = _
    rw [readGeneration_generationText, if_pos (Nat.le_refl _), Nat.zero_max]
  have hfirst : (firstRuns maxSafeInteger).seen true = maxSafeInteger := hold
  have hnew : ((firstRuns maxSafeInteger).complete true true 0).seen false = 0 := by
    change max 0 (readGeneration (some (generationText
      (nextGeneration ((firstRuns maxSafeInteger).seen true))))) = 0
    rw [hfirst, nextGeneration, if_pos (Nat.le_refl _), readGeneration_generationText,
      if_neg (Nat.not_succ_le_self _), Nat.zero_max]
  rw [hold, hnew] at hseen
  exact absurd hseen (by decide)

end AdsManagement.Web
