/-
  File:      Storage/Tombstones.lean
  Subject:   RETAINED FILES (storage-tombstone.service.ts): one tombstoned object, and the calls of
             `retain`, `restore` and `purge` on it as processes.

  The object has an active key and a trash key. A call makes one storage call or one database
  statement a step; any of them may fail, and those with an effect may take effect and fail to
  say so. The fence of the tombstone is held from its statement to the end of its transaction,
  whose writes take effect together when it commits. Only the fallback of `retain` touches the
  storage outside the fence, unless a transaction runs into its limit of five minutes: it is rolled
  back and the fence is free, while the call goes on with its storage calls until its next
  statement throws. A reference to other keys, or to another provider, is refused before
  any of this and left out, and so are the failure codes, which no call reads.

  * `TombstonePhase` -- where a call stands; `TombstonePhase.locked` -- whether it has the fence;
  * `TombstoneJob` -- what a copy is made for: the key it goes to, what is written at the end, and
    what follows when it fails;
  * `TombstoneStep`, `TombstoneReachable` -- the steps, and the worlds they lead to.
-/
import Mathlib.Logic.Function.Basic

namespace AdsManagement.Storage

/-! ## 1. The object and its row -/

inductive StorageTombstoneState where
  | PENDING
  | RETAINED
  | RESTORED
  | PURGED
  | FAILED
deriving DecidableEq

inductive StorageTombstoneDomain where
  | META_UPLOAD
  | REPORT
deriving DecidableEq

/-- What a key holds, as `inspectObject` measures it. -/
structure StoredObject where
  hashSha256 : String
  byteSize : Nat
deriving DecidableEq

structure Tombstone where
  domain : StorageTombstoneDomain
  hashSha256 : String
  byteSize : Nat
  state : StorageTombstoneState
  purgeAfter : Nat

/-- The object as the row has it. -/
def Tombstone.object (row : Tombstone) : StoredObject := ⟨row.hashSha256, row.byteSize⟩

inductive ObjectKey where
  | original
  | trash
deriving DecidableEq

def ObjectKey.other : ObjectKey → ObjectKey
  | .original => .trash
  | .trash => .original

/-! ## 2. Calls -/

/-- The transactions that take the fence. -/
inductive FencedCall where
  | retain (expected : StoredObject)
  | reconcile (expected : StoredObject)
  | restore
  | purge (force : Bool)

/-- What an object is copied for. -/
inductive TombstoneJob where
  -- `completeRetention`: for a new retention, with the time to purge it after where it is set anew
  | retention (purgeAfter : Option Nat)
  -- for a row that is retained already, in `retain` and in `reconcileRetentionFailure`
  | retained
  | reconcileRetained
  -- `ensureActiveCopy`: in `reconcileRetentionFailure`, and outside the fence
  | rollBack
  | fallback
  -- `restore`
  | restore
deriving DecidableEq

/-- The key the copy goes to. -/
def TombstoneJob.target : TombstoneJob → ObjectKey
  | .retention _ => .trash
  | .retained => .trash
  | .reconcileRetained => .trash
  | .rollBack => .original
  | .fallback => .original
  | .restore => .original

inductive TombstonePhase where
  | idle
  -- retain, before its transaction
  | finding (expectedHash : String)
  | inspecting (expectedHash : String)
  | creating (source : StoredObject)
  -- a transaction: the fence, the row
  | locking (call : FencedCall)
  | reading (call : FencedCall)
  -- a copy: exists, inspect | getStream, put; inspect
  | checkingTarget (job : TombstoneJob) (object : StoredObject)
  | inspectingTarget (job : TombstoneJob) (object : StoredObject)
  | readingSource (job : TombstoneJob) (object : StoredObject)
  | putting (job : TombstoneJob) (object : StoredObject)
  | verifying (job : TombstoneJob) (object : StoredObject)
  -- what follows it: delete, exists; inspect; commit
  | deletingSource (job : TombstoneJob) (object : StoredObject)
  | checkingSource (job : TombstoneJob) (object : StoredObject)
  | inspectingAgain (object : StoredObject)
  | committing (job : TombstoneJob) (object : StoredObject)
  -- purge
  | findingRecord (object : StoredObject)
  | purgeFindingOriginal (object : StoredObject)
  | purgeFindingTrash (object : StoredObject) (activeExists : Bool)
  | purgeInspectingOriginal (object : StoredObject) (activeExists trashExists : Bool)
  | purgeInspectingTrash (object : StoredObject) (activeExists trashExists : Bool)
  | purgeDeletingOriginal (object : StoredObject) (activeExists trashExists : Bool)
  | purgeDeletingTrash (object : StoredObject) (trashExists : Bool)
  | purgeConfirmingOriginal (object : StoredObject)
  | purgeConfirmingTrash (object : StoredObject)
  | purgeCommitting (object : StoredObject)
  -- recordRetentionFailure
  | recording
  | ended

/-- The call is in a transaction that has taken the fence. -/
def TombstonePhase.locked : TombstonePhase → Bool
  | .idle => false
  | .finding _ => false
  | .inspecting _ => false
  | .creating _ => false
  | .locking _ => false
  | .checkingTarget job _ => job ≠ .fallback
  | .inspectingTarget job _ => job ≠ .fallback
  | .readingSource job _ => job ≠ .fallback
  | .putting job _ => job ≠ .fallback
  | .verifying job _ => job ≠ .fallback
  | .recording => false
  | .ended => false
  | _ => true

/-- What follows a copy that fails: `retain` looks at what became of its transaction, and goes on
    outside the fence where that fails too. -/
def TombstoneJob.failure (object : StoredObject) : TombstoneJob → TombstonePhase
  | .retention _ => .locking (.reconcile object)
  | .retained => .locking (.reconcile object)
  | .reconcileRetained => .checkingTarget .fallback object
  | .rollBack => .checkingTarget .fallback object
  | .fallback => .recording
  | .restore => .ended

def FencedCall.failure : FencedCall → TombstonePhase
  | .retain expected => .locking (.reconcile expected)
  | .reconcile expected => .checkingTarget .fallback expected
  | .restore => .ended
  | .purge _ => .ended

/-- What follows when the statement or storage call of a phase throws. -/
def TombstonePhase.failure : TombstonePhase → TombstonePhase
  | .locking call => call.failure
  | .reading call => call.failure
  | .checkingTarget job object => job.failure object
  | .inspectingTarget job object => job.failure object
  | .readingSource job object => job.failure object
  | .putting job object => job.failure object
  | .verifying job object => job.failure object
  | .deletingSource job object => job.failure object
  | .checkingSource job object => job.failure object
  | .inspectingAgain object => TombstoneJob.rollBack.failure object
  | .committing job object => job.failure object
  | _ => .ended

/-- After the copy: `ensureActiveCopy` returns, the others delete the other key. -/
def TombstoneJob.copied (object : StoredObject) : TombstoneJob → TombstonePhase
  | .fallback => .recording
  | job => .deletingSource job object

/-- After the inspection of a copy that was there: `ensureActiveCopy` is satisfied, the others
    inspect it once more. -/
def TombstoneJob.found (object : StoredObject) : TombstoneJob → TombstonePhase
  | .fallback => TombstoneJob.fallback.copied object
  | .rollBack => TombstoneJob.rollBack.copied object
  | job => .verifying job object

/-- After the other key is gone. -/
def TombstoneJob.cleaned (object : StoredObject) : TombstoneJob → TombstonePhase
  | .rollBack => .inspectingAgain object
  | job => .committing job object

/-- After a `delete` that found nothing; `restore` does not look at its result. -/
def TombstoneJob.nothingDeleted (object : StoredObject) : TombstoneJob → TombstonePhase
  | .restore => .committing .restore object
  | job => .checkingSource job object

/-- What the transaction writes. -/
def TombstoneJob.write (row : Tombstone) : TombstoneJob → Tombstone
  | .retention purgeAfter =>
    { row with state := .RETAINED, purgeAfter := purgeAfter.getD row.purgeAfter }
  | .rollBack => { row with state := .RESTORED }
  | .restore => { row with state := .RESTORED }
  | _ => row

/-- After a commit that says so. -/
def TombstoneJob.committed : TombstoneJob → TombstonePhase
  | .rollBack => .recording
  | _ => .ended

/-- The read of a transaction under the fence, at a time and with the retention in force. -/
def readPhase (now retention : Nat) (row : Tombstone) : FencedCall → TombstonePhase
  | .retain expected =>
    if row.object ≠ expected then .ended
    else match row.state with
      | .RETAINED => .checkingTarget .retained expected
      | .PURGED => .ended
      | .RESTORED => .checkingTarget (.retention (some (now + retention))) expected
      | .PENDING => .checkingTarget (.retention none) expected
      | .FAILED => .checkingTarget (.retention none) expected
  | .reconcile expected =>
    if row.object ≠ expected then .checkingTarget .fallback expected
    else match row.state with
      | .RETAINED => .checkingTarget .reconcileRetained expected
      | .PURGED => .checkingTarget .fallback expected
      | .RESTORED => .checkingTarget .rollBack expected
      | .PENDING => .checkingTarget .rollBack expected
      | .FAILED => .checkingTarget .rollBack expected
  | .restore =>
    if row.state ≠ .RETAINED ∨ row.purgeAfter ≤ now then .ended
    else .checkingTarget .restore row.object
  | .purge force =>
    if row.state ≠ .RETAINED ∨ (!force ∧ now < row.purgeAfter) then .ended
    else if row.domain = .META_UPLOAD then .findingRecord row.object
    else .purgeFindingOriginal row.object

/-- The read of a transaction whose row is missing. -/
def missingPhase : FencedCall → TombstonePhase
  | .reconcile expected => .checkingTarget .fallback expected
  | _ => .ended

/-- `recordRetentionFailure`. -/
def recordRetentionFailure (row : Tombstone) : Tombstone :=
  if row.state = .PENDING ∨ row.state = .FAILED then { row with state := .FAILED } else row

/-! ## 3. Worlds -/

/-- The object, its row, the upload batch or report it belongs to, and the calls. `purgeTookLast` and
    `expired` are records of the past: a `purge` has deleted the last copy, and a transaction has
    run into its limit. -/
structure TombstoneWorld (π : Type) where
  now : Nat
  domain : StorageTombstoneDomain
  original : Option StoredObject
  trash : Option StoredObject
  row : Option Tombstone
  recordPresent : Bool
  holder : Option π
  phase : π → TombstonePhase
  purgeTookLast : Bool
  expired : Bool

variable {π : Type}

def TombstoneWorld.object (w : TombstoneWorld π) : ObjectKey → Option StoredObject
  | .original => w.original
  | .trash => w.trash

def TombstoneWorld.store (w : TombstoneWorld π) (key : ObjectKey) (object : Option StoredObject) :
    TombstoneWorld π :=
  match key with
  | .original => { w with original := object }
  | .trash => { w with trash := object }

/-- One of the keys holds the object. -/
def TombstoneWorld.hasCopy (w : TombstoneWorld π) (object : StoredObject) : Bool :=
  w.original = some object || w.trash = some object

/-- A `delete` of `purge`. -/
def TombstoneWorld.purgeDelete (w : TombstoneWorld π) (key : ObjectKey) (object : StoredObject) :
    TombstoneWorld π :=
  { w.store key none with
    purgeTookLast := w.purgeTookLast || !(w.store key none).hasCopy object }

section Steps

variable [DecidableEq π]

/-- A call moves on; it keeps the fence, or gives it up with its transaction. -/
def TombstoneWorld.goto (w : TombstoneWorld π) (p : π) (phase : TombstonePhase) : TombstoneWorld π :=
  { w with
    phase := Function.update w.phase p phase
    holder := if phase.locked = false ∧ w.holder = some p then none else w.holder }

/-- One step, with the retention in force. A storage call or a statement that throws without an
    effect is `fails`; `acknowledged` says whether one with an effect is known to have had it.
    STORAGE_TRANSITION_TRANSACTION_OPTIONS is `expires`. -/
inductive TombstoneStep (retention : Nat) (w : TombstoneWorld π) : TombstoneWorld π → Prop
  | tick (ms : Nat) : TombstoneStep retention w { w with now := w.now + ms }
  | recordDeleted : TombstoneStep retention w { w with recordPresent := false }
  | call (p : π) (phase : TombstonePhase) (h : w.phase p = .idle)
      (hc : (∃ expectedHash, phase = .finding expectedHash) ∨ phase = .locking .restore ∨
        ∃ force, phase = .locking (.purge force)) :
      TombstoneStep retention w (w.goto p phase)
  | fails (p : π) : TombstoneStep retention w (w.goto p (w.phase p).failure)
  | stops (p : π) : TombstoneStep retention w (w.goto p .ended)
  -- retain
  | find (p : π) (expectedHash : String) (h : w.phase p = .finding expectedHash) :
      TombstoneStep retention w (w.goto p (match w.row with
        | none => .inspecting expectedHash
        | some row =>
          if row.hashSha256 ≠ expectedHash then .ended else .locking (.retain row.object)))
  | inspect (p : π) (source : StoredObject) (h : w.phase p = .inspecting source.hashSha256)
      (hs : w.original = some source) : TombstoneStep retention w (w.goto p (.creating source))
  | create (p : π) (source : StoredObject) (acknowledged : Bool) (h : w.phase p = .creating source)
      (hr : w.row = none) :
      TombstoneStep retention w
        { w.goto p (if acknowledged then .locking (.retain source) else .ended) with
          row := some
            { domain := w.domain
              hashSha256 := source.hashSha256
              byteSize := source.byteSize
              state := .PENDING
              purgeAfter := w.now + retention } }
  | createTwice (p : π) (source : StoredObject) (row : Tombstone) (h : w.phase p = .creating source)
      (hr : w.row = some row) :
      TombstoneStep retention w
        (w.goto p (if row.object ≠ source then .ended else .locking (.retain source)))
  -- a transaction under the fence
  | acquire (p : π) (call : FencedCall) (h : w.phase p = .locking call) (hf : w.holder = none) :
      TombstoneStep retention w { w.goto p (.reading call) with holder := some p }
  | expires (p : π) (hf : w.holder = some p) :
      TombstoneStep retention w { w with holder := none, expired := true }
  | read (p : π) (call : FencedCall) (h : w.phase p = .reading call) (hf : w.holder = some p) :
      TombstoneStep retention w (w.goto p (match w.row with
        | none => missingPhase call
        | some row => readPhase w.now retention row call))
  -- a copy
  | checkTarget (p : π) (job : TombstoneJob) (object : StoredObject)
      (h : w.phase p = .checkingTarget job object) :
      TombstoneStep retention w (w.goto p
        (if (w.object job.target).isSome then .inspectingTarget job object else .readingSource job object))
  | inspectTarget (p : π) (job : TombstoneJob) (object : StoredObject)
      (h : w.phase p = .inspectingTarget job object) (hg : w.object job.target = some object) :
      TombstoneStep retention w (w.goto p (job.found object))
  | readSource (p : π) (job : TombstoneJob) (object source : StoredObject)
      (h : w.phase p = .readingSource job object) (hg : w.object job.target.other = some source)
      (hs : source.byteSize = object.byteSize) : TombstoneStep retention w (w.goto p (.putting job object))
  | put (p : π) (job : TombstoneJob) (object published : StoredObject) (acknowledged : Bool)
      (h : w.phase p = .putting job object) (hn : w.object job.target = none)
      (hh : published.hashSha256 = object.hashSha256) :
      TombstoneStep retention w
        ((w.store job.target (some published)).goto p
          (if acknowledged ∧ published.byteSize = object.byteSize then .verifying job object
           else job.failure object))
  | putTwice (p : π) (job : TombstoneJob) (object : StoredObject)
      (h : w.phase p = .putting job object) (hg : w.object job.target = some object) :
      TombstoneStep retention w (w.goto p (.verifying job object))
  | verify (p : π) (job : TombstoneJob) (object : StoredObject)
      (h : w.phase p = .verifying job object) (hg : w.object job.target = some object) :
      TombstoneStep retention w (w.goto p (job.copied object))
  -- what follows it
  | deleteSource (p : π) (job : TombstoneJob) (object : StoredObject) (acknowledged : Bool)
      (h : w.phase p = .deletingSource job object) :
      TombstoneStep retention w
        ((w.store job.target.other none).goto p
          (if acknowledged then job.cleaned object else job.failure object))
  | deleteNothing (p : π) (job : TombstoneJob) (object : StoredObject)
      (h : w.phase p = .deletingSource job object) (hn : w.object job.target.other = none) :
      TombstoneStep retention w (w.goto p (job.nothingDeleted object))
  | checkSource (p : π) (job : TombstoneJob) (object : StoredObject)
      (h : w.phase p = .checkingSource job object) (hn : w.object job.target.other = none) :
      TombstoneStep retention w (w.goto p (job.cleaned object))
  | inspectAgain (p : π) (object : StoredObject) (h : w.phase p = .inspectingAgain object)
      (hg : w.original = some object) :
      TombstoneStep retention w (w.goto p (.committing .rollBack object))
  | commit (p : π) (job : TombstoneJob) (object : StoredObject) (acknowledged : Bool)
      (h : w.phase p = .committing job object) (hf : w.holder = some p) :
      TombstoneStep retention w
        { w.goto p (if acknowledged then job.committed else job.failure object) with
          row := w.row.map fun row => job.write row }
  -- purge
  | findRecord (p : π) (object : StoredObject) (h : w.phase p = .findingRecord object)
      (hf : w.holder = some p) :
      TombstoneStep retention w
        (w.goto p (if w.recordPresent then .ended else .purgeFindingOriginal object))
  | purgeFindOriginal (p : π) (object : StoredObject) (h : w.phase p = .purgeFindingOriginal object) :
      TombstoneStep retention w (w.goto p (.purgeFindingTrash object w.original.isSome))
  | purgeFindTrash (p : π) (object : StoredObject) (activeExists : Bool)
      (h : w.phase p = .purgeFindingTrash object activeExists) :
      TombstoneStep retention w
        (w.goto p (.purgeInspectingOriginal object activeExists w.trash.isSome))
  | purgeInspectOriginal (p : π) (object : StoredObject) (activeExists trashExists : Bool)
      (h : w.phase p = .purgeInspectingOriginal object activeExists trashExists)
      (hg : activeExists = true → w.original = some object) :
      TombstoneStep retention w (w.goto p (.purgeInspectingTrash object activeExists trashExists))
  | purgeInspectTrash (p : π) (object : StoredObject) (activeExists trashExists : Bool)
      (h : w.phase p = .purgeInspectingTrash object activeExists trashExists)
      (hg : trashExists = true → w.trash = some object) :
      TombstoneStep retention w (w.goto p (.purgeDeletingOriginal object activeExists trashExists))
  | purgeDeleteOriginal (p : π) (object : StoredObject) (trashExists acknowledged : Bool)
      (h : w.phase p = .purgeDeletingOriginal object true trashExists) :
      TombstoneStep retention w
        ((w.purgeDelete .original object).goto p
          (if acknowledged then .purgeDeletingTrash object trashExists else .ended))
  | purgeSkipOriginal (p : π) (object : StoredObject) (trashExists : Bool)
      (h : w.phase p = .purgeDeletingOriginal object false trashExists) :
      TombstoneStep retention w (w.goto p (.purgeDeletingTrash object trashExists))
  | purgeDeleteTrash (p : π) (object : StoredObject) (acknowledged : Bool)
      (h : w.phase p = .purgeDeletingTrash object true) :
      TombstoneStep retention w
        ((w.purgeDelete .trash object).goto p
          (if acknowledged then .purgeConfirmingOriginal object else .ended))
  | purgeSkipTrash (p : π) (object : StoredObject) (h : w.phase p = .purgeDeletingTrash object false) :
      TombstoneStep retention w (w.goto p (.purgeConfirmingOriginal object))
  | purgeConfirmOriginal (p : π) (object : StoredObject)
      (h : w.phase p = .purgeConfirmingOriginal object) (hn : w.original = none) :
      TombstoneStep retention w (w.goto p (.purgeConfirmingTrash object))
  | purgeConfirmTrash (p : π) (object : StoredObject)
      (h : w.phase p = .purgeConfirmingTrash object) (hn : w.trash = none) :
      TombstoneStep retention w (w.goto p (.purgeCommitting object))
  | purgeCommit (p : π) (object : StoredObject) (h : w.phase p = .purgeCommitting object)
      (hf : w.holder = some p) :
      TombstoneStep retention w
        { w.goto p .ended with row := w.row.map fun row => { row with state := .PURGED } }
  -- recordRetentionFailure
  | record (p : π) (h : w.phase p = .recording) :
      TombstoneStep retention w { w.goto p .ended with row := w.row.map recordRetentionFailure }

/-- Before any call there is no tombstone and no call; the keys hold whatever they hold. -/
inductive TombstoneReachable (retention : Nat) : TombstoneWorld π → Prop
  | init {w : TombstoneWorld π} (hr : w.row = none) (hh : w.holder = none)
      (hp : ∀ p, w.phase p = .idle) (ht : w.purgeTookLast = false) (he : w.expired = false) :
      TombstoneReachable retention w
  | step {w w' : TombstoneWorld π} :
      TombstoneReachable retention w → TombstoneStep retention w w' → TombstoneReachable retention w'

end Steps

end AdsManagement.Storage
