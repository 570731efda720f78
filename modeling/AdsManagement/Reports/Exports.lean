/-
  File:      Reports/Exports.lean
  Subject:   REPORT EXPORTS (reports.service.ts): the calls of `export` and the runs of
             `reconcileStaleCreatingReports` as processes over the table of reports and the storage.

  A call makes one statement or one storage call a step. Where it gets no answer, the statement or
  call goes astray: it takes effect at any later time, or never. Reads fail at any time. An export
  is named by the id it draws for its report, and its object lies under a reference made from that
  id. What is rendered is left open, as are the sizes that are refused, the exports a run of the
  same process leaves out, the age of a report and the counts a run returns.

  * `ReportOp`, `ReportWorld.apply` -- what a statement or a storage call does;
  * `confirmCommittedStoredReport`, `storedObjectMatches`;
  * `ExportPhase`, `ReconcilePhase`, `ReportStep`.
-/
import AdsManagement.Storage.Tombstones

namespace AdsManagement.Reports

open Storage Function

/-! ## 1. Reports and objects -/

inductive ReportStatus where
  | CREATING
  | CREATED
  | FAILED
deriving DecidableEq

/-- A row of `report_exports`; `κ` is the type of storage references. -/
structure Report (κ : Type) where
  filePath : Option κ
  status : ReportStatus
  fileHashSha256 : Option String
deriving DecidableEq

variable {ι κ ρ : Type}

section Reports

variable [DecidableEq κ]

/-- The condition of every update: still being created, at this path and without a hash. -/
def Report.isCreating (row : Report κ) (path : Option κ) : Bool :=
  row.status = .CREATING && row.filePath = path && row.fileHashSha256 = none

/-- The update that ends an export. -/
def Report.finalize (path : Option κ) (hash : String) (row : Report κ) : Report κ :=
  if row.isCreating path then { row with status := .CREATED, fileHashSha256 := some hash } else row

/-- The update that gives a report up. -/
def Report.fail (path : Option κ) (row : Report κ) : Report κ :=
  if row.isCreating path then { row with status := .FAILED, fileHashSha256 := none } else row

/-- `toLowerCase` of a hexadecimal text. -/
def lowerHex (s : String) : String := String.ofList (s.toList.map Char.toLower)

/-- `storedObjectMatches`, where the storage answers. -/
def storedObjectMatches (object : Option StoredObject) (expected : StoredObject) : Bool :=
  object.any fun actual =>
    actual.byteSize = expected.byteSize && actual.hashSha256 = lowerHex expected.hashSha256

/-- The part of `confirmCommittedStoredReport` that reads the row. -/
def isCommitted (row : Option (Report κ)) (path : κ) (stored : StoredObject) : Bool :=
  row.any fun row => row.status = .CREATED && row.filePath = some path &&
    row.fileHashSha256.map lowerHex = some (lowerHex stored.hashSha256)

/-- `confirmCommittedStoredReport`, where the storage answers. -/
def confirmCommittedStoredReport (row : Option (Report κ)) (object : Option StoredObject) (path : κ)
    (stored : StoredObject) : Option (Report κ) :=
  if isCommitted row path stored && storedObjectMatches object stored then row else none

/-- A report that was given up, as `reconcileStoredReport` asks before it deletes. -/
def isGivenUp (row : Option (Report κ)) (path : κ) : Bool :=
  row.any fun row => row.status = .FAILED && row.filePath = some path && row.fileHashSha256 = none

end Reports

/-- A statement or a storage call that has an effect. -/
inductive ReportOp (ι κ : Type) where
  | create (id : ι) (path : κ)
  | finalize (id : ι) (path : κ) (hash : String)
  | fail (id : ι) (path : Option κ)
  | put (key : κ) (object : StoredObject)
  | delete (key : κ)
deriving DecidableEq

/-! ## 2. Calls -/

/-- Where an export stands. After `finalizing` it holds what `put` has returned; the rows are those
    it has read. -/
inductive ExportPhase (κ : Type) where
  | idle
  | rendering
  | finalizing (stored : StoredObject)
  | reading (stored : StoredObject)
  | confirming (stored : StoredObject) (row : Option (Report κ))
  -- `reconcileStoredReport`
  | recovering (stored : StoredObject)
  | recoverConfirming (stored : StoredObject) (row : Option (Report κ))
  | recoverFailing (stored : StoredObject)
  | recoverReading (stored : StoredObject)
  | recoverReconfirming (stored : StoredObject) (row : Option (Report κ))
  | recoverMatching (stored : StoredObject)
  | recoverDeleting
  -- nothing was stored
  | abandoning
  | returned (row : Report κ)
  | threw

/-- Where a run stands: the candidates that are left, and the one at hand. -/
inductive ReconcilePhase (ι κ : Type) where
  | idle
  | scanning (rest : List (ι × Option κ))
  | inspecting (id : ι) (path : κ) (rest : List (ι × Option κ))
  | failingMissing (id : ι) (path : Option κ) (rest : List (ι × Option κ))
  | readingMissing (id : ι) (rest : List (ι × Option κ))
  | failing (id : ι) (path : κ) (stored : StoredObject) (rest : List (ι × Option κ))
  | reading (id : ι) (path : κ) (stored : StoredObject) (rest : List (ι × Option κ))
  | matching (id : ι) (path : κ) (stored : StoredObject) (rest : List (ι × Option κ))
  | deleting (id : ι) (path : κ) (rest : List (ι × Option κ))
  | ended

structure ReportWorld (ι κ ρ : Type) where
  reports : ι → Option (Report κ)
  objects : κ → Option StoredObject
  /-- What was sent and not answered. -/
  astray : List (ReportOp ι κ)
  exports : ι → ExportPhase κ
  reconciles : ρ → ReconcilePhase ι κ

section Steps

variable [DecidableEq ι] [DecidableEq κ] [DecidableEq ρ]

section

variable (w : ReportWorld ι κ ρ)

/-- The effect of a statement or a storage call. -/
def ReportWorld.apply : ReportOp ι κ → ReportWorld ι κ ρ
  | .create id path =>
    if w.reports id = none then
      { w with reports := update w.reports id (some ⟨some path, .CREATING, none⟩) }
    else w
  | .finalize id path hash =>
    { w with reports := update w.reports id ((w.reports id).map (·.finalize (some path) hash)) }
  | .fail id path =>
    { w with reports := update w.reports id ((w.reports id).map (·.fail path)) }
  | .put key object => { w with objects := update w.objects key (some object) }
  | .delete key => { w with objects := update w.objects key none }

/-- No answer. -/
def ReportWorld.lose (op : ReportOp ι κ) : ReportWorld ι κ ρ :=
  { w with astray := op :: w.astray }

def ReportWorld.exportTo (id : ι) (phase : ExportPhase κ) : ReportWorld ι κ ρ :=
  { w with exports := update w.exports id phase }

def ReportWorld.reconcileTo (r : ρ) (phase : ReconcilePhase ι κ) : ReportWorld ι κ ρ :=
  { w with reconciles := update w.reconciles r phase }

end

/-- `reconcileStoredReport` after its first check has not confirmed the report. -/
def afterRecoverConfirming (path : κ) (stored : StoredObject) (row : Option (Report κ)) : ExportPhase κ :=
  if row.any fun row => row.isCreating (some path) then .recoverFailing stored
  else if isGivenUp row path then .recoverMatching stored
  else .threw

/-- … and after its second. -/
def afterRecoverReconfirming (path : κ) (stored : StoredObject) (row : Option (Report κ)) : ExportPhase κ :=
  if isGivenUp row path then .recoverMatching stored else .threw

inductive ReportStep (reference : ι → κ) (w : ReportWorld ι κ ρ) : ReportWorld ι κ ρ → Prop
  -- what went astray takes effect
  | arrive (op : ReportOp ι κ) (h : op ∈ w.astray) :
      ReportStep reference w { w.apply op with astray := w.astray.erase op }
  -- export
  | create (id : ι) (h : w.exports id = .idle) (hn : w.reports id = none) :
      ReportStep reference w ((w.apply (.create id (reference id))).exportTo id .rendering)
  | createLost (id : ι) (h : w.exports id = .idle) (hn : w.reports id = none) :
      ReportStep reference w ((w.lose (.create id (reference id))).exportTo id .threw)
  | renderFails (id : ι) (h : w.exports id = .rendering) :
      ReportStep reference w (w.exportTo id .abandoning)
  | put (id : ι) (object : StoredObject) (h : w.exports id = .rendering) :
      ReportStep reference w ((w.apply (.put (reference id) object)).exportTo id (.finalizing object))
  | putLost (id : ι) (object : StoredObject) (h : w.exports id = .rendering) :
      ReportStep reference w ((w.lose (.put (reference id) object)).exportTo id .abandoning)
  | finalize (id : ι) (stored : StoredObject) (h : w.exports id = .finalizing stored) :
      ReportStep reference w
        ((w.apply (.finalize id (reference id) stored.hashSha256)).exportTo id (.reading stored))
  | finalizeLost (id : ι) (stored : StoredObject) (h : w.exports id = .finalizing stored) :
      ReportStep reference w
        ((w.lose (.finalize id (reference id) stored.hashSha256)).exportTo id (.recovering stored))
  | read (id : ι) (stored : StoredObject) (h : w.exports id = .reading stored) :
      ReportStep reference w (w.exportTo id (.confirming stored (w.reports id)))
  | readFails (id : ι) (stored : StoredObject) (h : w.exports id = .reading stored) :
      ReportStep reference w (w.exportTo id (.recovering stored))
  | confirm (id : ι) (stored : StoredObject) (row : Option (Report κ)) (committed : Report κ)
      (h : w.exports id = .confirming stored row)
      (hc : confirmCommittedStoredReport row (w.objects (reference id)) (reference id) stored =
        some committed) : ReportStep reference w (w.exportTo id (.returned committed))
  -- not committed, or the storage does not answer
  | confirmFails (id : ι) (stored : StoredObject) (row : Option (Report κ))
      (h : w.exports id = .confirming stored row) :
      ReportStep reference w (w.exportTo id (.recovering stored))
  | recoverRead (id : ι) (stored : StoredObject) (h : w.exports id = .recovering stored) :
      ReportStep reference w (w.exportTo id (.recoverConfirming stored (w.reports id)))
  | recoverReadFails (id : ι) (stored : StoredObject) (h : w.exports id = .recovering stored) :
      ReportStep reference w (w.exportTo id .threw)
  | recoverConfirm (id : ι) (stored : StoredObject) (row : Option (Report κ)) (committed : Report κ)
      (h : w.exports id = .recoverConfirming stored row)
      (hc : confirmCommittedStoredReport row (w.objects (reference id)) (reference id) stored =
        some committed) : ReportStep reference w (w.exportTo id (.returned committed))
  | recoverConfirmFails (id : ι) (stored : StoredObject) (row : Option (Report κ))
      (h : w.exports id = .recoverConfirming stored row) :
      ReportStep reference w (w.exportTo id (afterRecoverConfirming (reference id) stored row))
  | recoverFail (id : ι) (stored : StoredObject) (h : w.exports id = .recoverFailing stored) :
      ReportStep reference w
        ((w.apply (.fail id (some (reference id)))).exportTo id (.recoverReading stored))
  | recoverFailLost (id : ι) (stored : StoredObject) (h : w.exports id = .recoverFailing stored) :
      ReportStep reference w
        ((w.lose (.fail id (some (reference id)))).exportTo id (.recoverReading stored))
  | recoverReread (id : ι) (stored : StoredObject) (h : w.exports id = .recoverReading stored) :
      ReportStep reference w (w.exportTo id (.recoverReconfirming stored (w.reports id)))
  | recoverRereadFails (id : ι) (stored : StoredObject) (h : w.exports id = .recoverReading stored) :
      ReportStep reference w (w.exportTo id .threw)
  | recoverReconfirm (id : ι) (stored : StoredObject) (row : Option (Report κ)) (committed : Report κ)
      (h : w.exports id = .recoverReconfirming stored row)
      (hc : confirmCommittedStoredReport row (w.objects (reference id)) (reference id) stored =
        some committed) : ReportStep reference w (w.exportTo id (.returned committed))
  | recoverReconfirmFails (id : ι) (stored : StoredObject) (row : Option (Report κ))
      (h : w.exports id = .recoverReconfirming stored row) :
      ReportStep reference w (w.exportTo id (afterRecoverReconfirming (reference id) stored row))
  | recoverMatch (id : ι) (stored : StoredObject) (h : w.exports id = .recoverMatching stored)
      (hm : storedObjectMatches (w.objects (reference id)) stored = true) :
      ReportStep reference w (w.exportTo id .recoverDeleting)
  | recoverMatchFails (id : ι) (stored : StoredObject) (h : w.exports id = .recoverMatching stored) :
      ReportStep reference w (w.exportTo id .threw)
  | recoverDelete (id : ι) (h : w.exports id = .recoverDeleting) :
      ReportStep reference w ((w.apply (.delete (reference id))).exportTo id .threw)
  | recoverDeleteLost (id : ι) (h : w.exports id = .recoverDeleting) :
      ReportStep reference w ((w.lose (.delete (reference id))).exportTo id .threw)
  | abandon (id : ι) (h : w.exports id = .abandoning) :
      ReportStep reference w ((w.apply (.fail id (some (reference id)))).exportTo id .threw)
  | abandonLost (id : ι) (h : w.exports id = .abandoning) :
      ReportStep reference w ((w.lose (.fail id (some (reference id)))).exportTo id .threw)
  -- reconcileStaleCreatingReports
  | scan (r : ρ) (rest : List (ι × Option κ))
      (h : w.reconciles r = .idle ∨ w.reconciles r = .scanning [])
      (hc : ∀ candidate ∈ rest, ∃ row, w.reports candidate.1 = some row ∧ row.status = .CREATING ∧
        row.filePath = candidate.2) :
      ReportStep reference w (w.reconcileTo r (.scanning rest))
  | endRun (r : ρ) : ReportStep reference w (w.reconcileTo r .ended)
  | skip (r : ρ) (candidate : ι × Option κ) (rest : List (ι × Option κ))
      (h : w.reconciles r = .scanning (candidate :: rest)) :
      ReportStep reference w (w.reconcileTo r (.scanning rest))
  | withoutPath (r : ρ) (id : ι) (rest : List (ι × Option κ))
      (h : w.reconciles r = .scanning ((id, none) :: rest)) :
      ReportStep reference w (w.reconcileTo r (.failingMissing id none rest))
  | withPath (r : ρ) (id : ι) (path : κ) (rest : List (ι × Option κ))
      (h : w.reconciles r = .scanning ((id, some path) :: rest)) :
      ReportStep reference w (w.reconcileTo r (.inspecting id path rest))
  | inspect (r : ρ) (id : ι) (path : κ) (rest : List (ι × Option κ)) (object : StoredObject)
      (h : w.reconciles r = .inspecting id path rest) (ho : w.objects path = some object) :
      ReportStep reference w (w.reconcileTo r (.failing id path object rest))
  | inspectMissing (r : ρ) (id : ι) (path : κ) (rest : List (ι × Option κ))
      (h : w.reconciles r = .inspecting id path rest) (ho : w.objects path = none) :
      ReportStep reference w (w.reconcileTo r (.failingMissing id (some path) rest))
  | inspectFails (r : ρ) (id : ι) (path : κ) (rest : List (ι × Option κ))
      (h : w.reconciles r = .inspecting id path rest) :
      ReportStep reference w (w.reconcileTo r (.scanning rest))
  | failMissing (r : ρ) (id : ι) (path : Option κ) (rest : List (ι × Option κ))
      (h : w.reconciles r = .failingMissing id path rest) :
      ReportStep reference w ((w.apply (.fail id path)).reconcileTo r (.readingMissing id rest))
  | failMissingLost (r : ρ) (id : ι) (path : Option κ) (rest : List (ι × Option κ))
      (h : w.reconciles r = .failingMissing id path rest) :
      ReportStep reference w ((w.lose (.fail id path)).reconcileTo r (.readingMissing id rest))
  | readMissing (r : ρ) (id : ι) (rest : List (ι × Option κ))
      (h : w.reconciles r = .readingMissing id rest) :
      ReportStep reference w (w.reconcileTo r (.scanning rest))
  | fail (r : ρ) (id : ι) (path : κ) (stored : StoredObject) (rest : List (ι × Option κ))
      (h : w.reconciles r = .failing id path stored rest) :
      ReportStep reference w
        ((w.apply (.fail id (some path))).reconcileTo r (.reading id path stored rest))
  | failLost (r : ρ) (id : ι) (path : κ) (stored : StoredObject) (rest : List (ι × Option κ))
      (h : w.reconciles r = .failing id path stored rest) :
      ReportStep reference w
        ((w.lose (.fail id (some path))).reconcileTo r (.reading id path stored rest))
  | readFailed (r : ρ) (id : ι) (path : κ) (stored : StoredObject) (rest : List (ι × Option κ))
      (row : Report κ) (h : w.reconciles r = .reading id path stored rest)
      (hr : w.reports id = some row) (hf : row.status = .FAILED) :
      ReportStep reference w (w.reconcileTo r (.matching id path stored rest))
  -- created, or unresolved
  | readOther (r : ρ) (id : ι) (path : κ) (stored : StoredObject) (rest : List (ι × Option κ))
      (h : w.reconciles r = .reading id path stored rest) :
      ReportStep reference w (w.reconcileTo r (.scanning rest))
  | isMatch (r : ρ) (id : ι) (path : κ) (stored : StoredObject) (rest : List (ι × Option κ))
      (h : w.reconciles r = .matching id path stored rest)
      (hm : storedObjectMatches (w.objects path) stored = true) :
      ReportStep reference w (w.reconcileTo r (.deleting id path rest))
  | matchFails (r : ρ) (id : ι) (path : κ) (stored : StoredObject) (rest : List (ι × Option κ))
      (h : w.reconciles r = .matching id path stored rest) :
      ReportStep reference w (w.reconcileTo r (.scanning rest))
  | delete (r : ρ) (id : ι) (path : κ) (rest : List (ι × Option κ))
      (h : w.reconciles r = .deleting id path rest) :
      ReportStep reference w ((w.apply (.delete path)).reconcileTo r (.scanning rest))
  | deleteLost (r : ρ) (id : ι) (path : κ) (rest : List (ι × Option κ))
      (h : w.reconciles r = .deleting id path rest) :
      ReportStep reference w ((w.lose (.delete path)).reconcileTo r .ended)

end Steps

/-- No call is under way. A report is under its own reference or has none, and one that was created
    has its object. -/
structure ReportStart (reference : ι → κ) (w : ReportWorld ι κ ρ) : Prop where
  paths : ∀ id row, w.reports id = some row → row.filePath = none ∨ row.filePath = some (reference id)
  created : ∀ id row, w.reports id = some row → row.status = .CREATED →
    ∃ object, w.objects (reference id) = some object ∧ row.fileHashSha256 = some object.hashSha256
  astray : w.astray = []
  exports : ∀ id, w.exports id = .idle
  reconciles : ∀ r, w.reconciles r = .idle

end AdsManagement.Reports
