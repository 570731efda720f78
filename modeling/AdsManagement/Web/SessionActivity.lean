/-
  File:      Web/SessionActivity.lean
  Subject:   THE IDLE BARRIER of the web client (features/auth/session-activity.ts) in several tabs
             of one user, which share the stamp of the last input in `localStorage`.

  A tab runs the module with its own variables; between two events of its own any time may pass and
  other tabs may move. What a tab does within one event is not interrupted. Times are milliseconds
  of one clock. The key of the stamp is that of the user and is left out.

  * `ensureActivityAuthorization`, `check`, `input`, `focus`, `watchUserActivity`,
    `resetUserActivity`, `settle` -- the functions of the module, for one tab;
  * `State`, `step`, `run` -- the tabs under one clock, with a record of what they owe;
  * `Barrier` -- no request passes that should not.
-/
import Mathlib.Data.Int.Order.Basic
import Mathlib.Logic.Function.Basic

namespace AdsManagement.Web.SessionActivity

/-! ## 1. The variables of a tab -/

def sessionIdleMs : Int := 7200000

def pollingIdleMs : Int := 300000

/-- The object `current`; `id` stands for its identity. -/
structure Session where
  id : Nat
  stamp : Int

/-- `validation`, the promise of a running revalidation: the object that was `current` at its start
    and the number of requests that await it. -/
structure Validation where
  activitySession : Option Nat
  waiting : Nat

/-- The variables that `watchUserActivity` closes over. -/
structure Watch where
  ended : Bool
  sentAt : Int
  savedAt : Int
  pollingActive : Bool

structure Tab where
  /-- the number of objects made so far -/
  made : Nat
  current : Option Session
  needsValidation : Bool
  revalidate : Bool
  validation : Option Validation
  watch : Option Watch

def Tab.fresh : Tab := ⟨0, none, false, false, none, none⟩

/-- What a tab does besides changing its variables. -/
inductive Effect where
  | onIdle
  | onActivity
  | onPollingChange (active : Bool)
  | revalidate
  | letThrough (requests : Nat)
  | reject (message : String)
  /-- the requests that awaited a revalidation fail with its error -/
  | rejectWaiting (requests : Nat)

/-! ## 2. The functions -/

def read (storage : Option Int) (now : Int) : Int :=
  match storage with
  | some value => if 0 < value ∧ value ≤ now then value else 0
  | none => 0

section

variable (tab : Tab)

/-- What `latest` returns. -/
def Tab.latest (storage : Option Int) (now : Int) : Int :=
  match tab.current with
  | some session => max session.stamp (read storage now)
  | none => 0

/-- What `latest` leaves in `current.at`. -/
def Tab.look (storage : Option Int) (now : Int) : Tab :=
  { tab with current := tab.current.map fun session =>
      { session with stamp := max session.stamp (read storage now) } }

def resetUserActivity (now : Int) : Tab × Option Int :=
  ({ tab with made := tab.made + 1, current := some ⟨tab.made, now⟩, needsValidation := false },
    some now)

def userActivityAge (storage : Option Int) (now : Int) : Tab := tab.look storage now

def ensureActivityAuthorization (storage : Option Int) (now : Int) : Tab × List Effect :=
  let age := if tab.current.isSome then now - tab.latest storage now else 0
  let looked := tab.look storage now
  if age ≥ sessionIdleMs then (looked, [.reject "장시간 활동이 없어 로그인이 만료되었습니다."])
  else
    let marked := if age ≥ pollingIdleMs then { looked with needsValidation := true } else looked
    if !marked.needsValidation then (marked, [.letThrough 1])
    else if !marked.revalidate then
      (marked, [.reject "인증 상태를 다시 확인한 후 시도해 주세요."])
    else
      match marked.validation with
      | none => ({ marked with validation := some ⟨marked.current.map (·.id), 1⟩ }, [.revalidate])
      | some validation =>
        ({ marked with
            validation := some { validation with waiting := validation.waiting + 1 } }, [])

/-- The promise of a revalidation settles, and the requests that await it go on or fail. -/
def settle (ok : Bool) : Tab × List Effect :=
  match tab.validation with
  | none => (tab, [])
  | some validation =>
    if ok then
      ({ tab with
          validation := none
          needsValidation :=
            if tab.current.map (·.id) = validation.activitySession then false
            else tab.needsValidation },
        [.letThrough validation.waiting])
    else ({ tab with validation := none }, [.rejectWaiting validation.waiting])

/-- `check` of a tab that watches; the last component is what it returns. -/
def check (storage : Option Int) (now : Int) : Tab × List Effect × Bool :=
  match tab.watch with
  | none => (tab, [], true)
  | some watch =>
    if watch.ended then (tab, [], true)
    else
      let age := now - tab.latest storage now
      let looked := tab.look storage now
      let active := decide (age < pollingIdleMs)
      let marked := if !active then { looked with needsValidation := true } else looked
      let effects : List Effect :=
        if active ≠ watch.pollingActive then
          .onPollingChange active :: if active then [.onActivity] else []
        else []
      if age < sessionIdleMs then
        ({ marked with watch := some { watch with pollingActive := active } }, effects, false)
      else
        ({ marked with watch := some { watch with pollingActive := active, ended := true } },
          effects ++ [.onIdle], true)

/-- The part of `input` after its check. -/
def acceptInput (session : Session) (watch : Watch) (storage : Option Int) (now : Int) :
    Tab × Option Int × List Effect :=
  let saves := decide (now - watch.savedAt ≥ 1000)
  let stored := if saves then some now else storage
  let saved := if saves then { watch with savedAt := now } else watch
  let touched := { tab with current := some { session with stamp := now } }
  if !saved.pollingActive then
    ({ touched with watch := some { saved with pollingActive := true, sentAt := now } }, stored,
      [.onPollingChange true, .onActivity])
  else if now - saved.sentAt ≥ 30000 then
    ({ touched with watch := some { saved with sentAt := now } }, stored, [.onActivity])
  else ({ touched with watch := some saved }, stored, [])

def input (storage : Option Int) (now : Int) : Tab × Option Int × List Effect :=
  let checked := check tab storage now
  match checked.2.2, checked.1.current, checked.1.watch with
  | false, some session, some watch =>
    let accepted := acceptInput checked.1 session watch storage now
    (accepted.1, accepted.2.1, checked.2.1 ++ accepted.2.2)
  | _, _, _ => (checked.1, storage, checked.2.1)

end

section

variable (tab : Tab) (storage : Option Int) (now : Int)

def focus : Tab × List Effect :=
  let checked := check tab storage now
  if !checked.2.2 && checked.1.watch.any (!·.pollingActive) then
    (checked.1, checked.2.1 ++ [.onActivity])
  else (checked.1, checked.2.1)

/-- `Math.max(current?.at ?? 0, read(key)) || Date.now()`. -/
def firstStamp : Int :=
  let stamp := max ((tab.current.map (·.stamp)).getD 0) (read storage now)
  if stamp ≠ 0 then stamp else now

/-- A tab that watches already is left alone: its component unmounts before it watches again. -/
def watchUserActivity : Tab × Option Int × List Effect :=
  if tab.watch.isSome then (tab, storage, [])
  else
    let stamp := firstStamp tab storage now
    let watching :=
      { tab with
          made := tab.made + 1
          current := some ⟨tab.made, stamp⟩
          watch := some ⟨false, 0, 0, true⟩ }
    let checked := check watching (some stamp) now
    (checked.1, some stamp, checked.2.1)

end

/-! ## 3. Tabs under one clock -/

/-- What happens in a tab. `check` is a tick of the timer or `pageshow`; ticks may be delayed. -/
inductive Action where
  | resetUserActivity
  | setActivityRevalidator (registered : Bool)
  | watchUserActivity
  | input
  | focus
  | check
  | userActivityAge
  | ensureActivityAuthorization
  | revalidated (ok : Bool)
deriving DecidableEq

def Tab.act (tab : Tab) (storage : Option Int) (now : Int) : Action → Tab × Option Int × List Effect
  | .resetUserActivity =>
    let reset := SessionActivity.resetUserActivity tab now
    (reset.1, reset.2, [])
  | .setActivityRevalidator registered => ({ tab with revalidate := registered }, storage, [])
  | .watchUserActivity => SessionActivity.watchUserActivity tab storage now
  | .input => SessionActivity.input tab storage now
  | .focus =>
    let focused := SessionActivity.focus tab storage now
    (focused.1, storage, focused.2)
  | .check =>
    let checked := SessionActivity.check tab storage now
    (checked.1, storage, checked.2.1)
  | .userActivityAge => (SessionActivity.userActivityAge tab storage now, storage, [])
  | .ensureActivityAuthorization =>
    let ensured := SessionActivity.ensureActivityAuthorization tab storage now
    (ensured.1, storage, ensured.2)
  | .revalidated ok =>
    let settled := settle tab ok
    (settled.1, storage, settled.2)

/-- Beside the variables of the tabs, what has really happened: the last input in any tab, the tabs
    that owe a revalidation because `pollingIdleMs` have passed without one, and whether
    `sessionIdleMs` have. No function of the module reads it. -/
structure History (τ : Type) where
  lastInput : Option Int
  owes : τ → Bool
  expired : Bool

/-- A request that has passed: what its tab owed then, and whether it awaited a revalidation that
    has just succeeded. -/
structure Passed (τ : Type) where
  tab : τ
  owes : Bool
  revalidated : Bool
  expired : Bool
deriving DecidableEq

structure State (τ : Type) where
  now : Int
  storage : Option Int
  tab : τ → Tab
  history : History τ
  passed : List (Passed τ)

/-- An event in a tab, with the time since the one before. -/
structure Event (τ : Type) where
  delay : Nat
  tab : τ
  action : Action

section Run

variable {τ : Type}

/-- For how long there has been no input in any tab. -/
def History.idleFor (h : History τ) (now ms : Int) : Bool :=
  h.lastInput.any fun last => ms ≤ now - last

/-- Time passes. -/
def State.elapse (s : State τ) (delay : Nat) : State τ :=
  let now := s.now + delay
  { s with
      now
      history :=
        { s.history with
            owes := fun t => s.history.owes t || s.history.idleFor now pollingIdleMs
            expired := s.history.expired || s.history.idleFor now sessionIdleMs } }

variable [DecidableEq τ]

/-- A tab that starts to watch owes only for the time that is still running, and the first stamp
    of all is the start of the clock. A login reads the authorization anew. -/
def History.record (h : History τ) (now : Int) (t : τ) (tab : Tab) : Action → History τ
  | .resetUserActivity =>
    { lastInput := some now, owes := Function.update h.owes t false, expired := false }
  | .input => if tab.watch.isSome then { h with lastInput := some now } else h
  | .watchUserActivity =>
    if tab.watch.isSome then h
    else
      { h with
          lastInput := h.lastInput.or (some now)
          owes := Function.update h.owes t (h.idleFor now pollingIdleMs) }
  | .revalidated true =>
    if tab.validation.isSome then { h with owes := Function.update h.owes t false } else h
  | _ => h

def Effect.passes : Effect → Bool
  | .letThrough requests => decide (0 < requests)
  | _ => false

/-- Requests of a tab that does not watch pass a barrier that is not up. -/
def passedBy (h : History τ) (t : τ) (tab : Tab) (action : Action) (effects : List Effect) :
    List (Passed τ) :=
  if tab.watch.isSome && effects.any Effect.passes then
    [{ tab := t, owes := h.owes t, revalidated := decide (action = .revalidated true),
       expired := h.expired }]
  else []

def State.act (s : State τ) (t : τ) (action : Action) : State τ :=
  let acted := (s.tab t).act s.storage s.now action
  { now := s.now
    storage := acted.2.1
    tab := Function.update s.tab t acted.1
    history := s.history.record s.now t (s.tab t) action
    passed := s.passed ++ passedBy s.history t (s.tab t) action acted.2.2 }

def step (s : State τ) (e : Event τ) : State τ := (s.elapse e.delay).act e.tab e.action

def run (s : State τ) (events : List (Event τ)) : State τ := events.foldl step s

omit [DecidableEq τ] in
/-- No tab is open and no stamp is stored; the clock shows a positive time. -/
def initial (start : Nat) : State τ where
  now := start + 1
  storage := none
  tab := fun _ => Tab.fresh
  history := { lastInput := none, owes := fun _ => false, expired := false }
  passed := []

omit [DecidableEq τ] in
/-- **The idle barrier held**: whoever owed a revalidation passed only on one that succeeded, and
    nobody passed after `sessionIdleMs` without input until the next login. -/
def Barrier (s : State τ) : Prop :=
  ∀ p ∈ s.passed, (p.owes = true → p.revalidated = true) ∧ p.expired = false

end Run

end AdsManagement.Web.SessionActivity
