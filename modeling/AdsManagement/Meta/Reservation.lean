/-
  File:      Meta/Reservation.lean
  Subject:   THE RESERVATION OF A META IMPORT (meta-original-storage-state.ts,
             meta-ad-daily-import.service.ts, meta-adset-import.service.ts): how attempts
             to import files of one hash, in SKIP mode, create, claim, store and commit the
             one upload batch of that hash.

  An attempt is a process of three transactions: the reservation, `prepareBatchWithFence` and the
  domain transaction. Each takes the lock of the batch first, so a transaction is one step; what
  the attempts do in between, crashes included, interleaves freely, and time passes whenever it
  likes. Both import services run the same protocol, each for its own domain. The metric tables
  are a parameter: the domain transaction leaves them as its rows make them, and imports of other
  files change them too.

  * `isRetryableMetaOriginalStoragePending`, `claimStoragePendingBatch` -- who may claim a batch;
  * `prepareBatchWithFence`, `domainTransaction` -- what an attempt that owns it does;
  * `MetaStep`, `MetaReachable` -- the steps of all attempts, and their runs.
-/
import AdsManagement.Coupang.Reservation
import AdsManagement.Meta.MetricStore

namespace AdsManagement.Meta

open Common

/-! ## 1. The batch and its marker -/

inductive MetaOriginalStorageDomain where
  | META_AD_DAILY
  | META_ADSET_DAILY
deriving DecidableEq

/-- The level of the batches a domain creates and claims. -/
def MetaOriginalStorageDomain.level : MetaOriginalStorageDomain → UploadLevel
  | .META_AD_DAILY => .AD
  | .META_ADSET_DAILY => .ADSET

/-- The marker under `originalStorage`, of version 1. Times are milliseconds. -/
structure StorageMarker where
  domain : MetaOriginalStorageDomain
  state : StorageState
  attemptId : String
  leaseExpiresAt : Nat
deriving DecidableEq

variable {β μ π : Type}

/-- The column schema: its fields, and the entry under `originalStorage`. -/
structure StorageSchema (β : Type) where
  fields : β
  originalStorage : Option StorageMarker
deriving DecidableEq

/-- `META_ORIGINAL_STORAGE_LEASE_MS`: five minutes. -/
def metaOriginalStorageLeaseMs : Nat := 5 * 60 * 1000

section

variable (schema : StorageSchema β) (domain : MetaOriginalStorageDomain)

def pendingMetaOriginalStorageSchema (now : Nat) (attemptId : String) : StorageSchema β :=
  { schema with
    originalStorage := some
      { domain, state := .PENDING, attemptId
        leaseExpiresAt := now + metaOriginalStorageLeaseMs } }

/-- Nothing where the reservation is invalid. -/
def storedMetaOriginalStorageSchema : Option (StorageSchema β) :=
  match schema.originalStorage with
  | none => none
  | some current =>
    if current.domain ≠ domain ∨ current.state ≠ .PENDING then none
    else
      some
        { schema with
          originalStorage := some
            { domain, state := .STORED, attemptId := current.attemptId
              leaseExpiresAt := current.leaseExpiresAt } }

def isRetryableMetaOriginalStoragePending (status : UploadStatus) (now : Nat) : Bool :=
  match schema.originalStorage with
  | none => false
  | some marker =>
    if marker.domain ≠ domain then false
    else if status = .FAILED then marker.state = .PENDING
    else if status ≠ .VALIDATING then false
    else marker.leaseExpiresAt ≤ now

end

/-- The upload batch, as far as the protocol reads and writes it. -/
structure ReservedBatch (β : Type) where
  id : String
  level : UploadLevel
  storedFilePath : String
  status : UploadStatus
  validRowCount : Nat
  warningCount : Nat
  errorCount : Nat
  importedAt : Option Nat
  columnSchema : StorageSchema β

/-- The attempt a batch belongs to. -/
def ReservedBatch.attemptId (batch : ReservedBatch β) : Option String :=
  batch.columnSchema.originalStorage.map (·.attemptId)

/-- The tables whose rows refer to a batch. -/
inductive BatchTable where
  | uploadRows
  | rowErrors
  | adMetrics
  | adsetMetrics
deriving DecidableEq

/-- The database, as far as one hash goes, and the metric tables. -/
structure ReservationTables (μ β : Type) where
  batch : Option (ReservedBatch β)
  rows : BatchTable → Nat
  metrics : μ

/-! ## 2. Transactions -/

/-- `uploadBatch.create`; nothing on a conflict of the hash. -/
def createReservedBatch (id storedFilePath : String) (domain : MetaOriginalStorageDomain)
    (columnSchema : StorageSchema β) (tables : ReservationTables μ β) :
    Option (ReservedBatch β × ReservationTables μ β) :=
  match tables.batch with
  | some _ => none
  | none =>
    let batch : ReservedBatch β :=
      { id, level := domain.level, storedFilePath, status := .VALIDATING
        validRowCount := 0, warningCount := 0, errorCount := 0, importedAt := none
        columnSchema }
    some (batch, { tables with batch := some batch })

/-- The batch has a row, an error, a metric or a counter. -/
def hasPersistedWork (batch : ReservedBatch β) (rows : BatchTable → Nat) : Bool :=
  rows .uploadRows > 0 || rows .rowErrors > 0 || rows .adMetrics > 0 || rows .adsetMetrics > 0 ||
    batch.validRowCount > 0 || batch.warningCount > 0 || batch.errorCount > 0 || batch.importedAt.isSome

/-- Under the lock the `updateMany` at its end always meets the batch it has read. -/
def claimStoragePendingBatch (domain : MetaOriginalStorageDomain) (batchId attemptId : String)
    (now : Nat) (tables : ReservationTables μ β) : Option (ReservedBatch β × ReservationTables μ β) :=
  match tables.batch with
  | none => none
  | some current =>
    if current.id ≠ batchId ∨ current.level ≠ domain.level ∨ current.storedFilePath = "" ∨
        isRetryableMetaOriginalStoragePending current.columnSchema domain current.status now = false then
      none
    else if hasPersistedWork current tables.rows then none
    else
      let claimed :=
        { current with
          status := .VALIDATING
          columnSchema := pendingMetaOriginalStorageSchema current.columnSchema domain now attemptId }
      some (claimed, { tables with batch := some claimed })

/-- Deep equality of the column schemas, while the batch is validating. -/
def sameStorageOwnership [DecidableEq β] (current expected : ReservedBatch β) : Bool :=
  current.status = .VALIDATING && current.columnSchema = expected.columnSchema

/-- What becomes of the file: it cannot be stored; it is stored and refused with some errors
    (missing columns, or keys that stand twice); or it is stored and accepted. -/
inductive Preparation where
  | storageFails
  | rejected (errors : Nat)
  | accepted

inductive Prepared (β : Type) where
  | lost
  | error
  | ready (batch : ReservedBatch β)

def addRows (rows : BatchTable → Nat) (more : BatchTable → Nat) (table : BatchTable) : Nat :=
  rows table + more table

/-- Rows of one table. -/
def only (table : BatchTable) (n : Nat) (other : BatchTable) : Nat := if other = table then n else 0

def prepareBatchWithFence [DecidableEq β] (domain : MetaOriginalStorageDomain)
    (batch : ReservedBatch β) (file : Preparation) (tables : ReservationTables μ β) :
    Prepared β × ReservationTables μ β :=
  match tables.batch with
  | none => (.lost, tables)
  | some current =>
    if current.id ≠ batch.id ∨ sameStorageOwnership current batch = false then (.lost, tables)
    else
      match file with
      | .storageFails => (.error, { tables with batch := some { current with status := .FAILED } })
      | .rejected errors =>
        match storedMetaOriginalStorageSchema current.columnSchema domain with
        | none => (.error, tables)
        | some storedSchema =>
          (.error,
            { tables with
              batch := some
                { current with columnSchema := storedSchema, status := .FAILED, errorCount := errors }
              rows := addRows tables.rows (only .rowErrors errors) })
      | .accepted =>
        match storedMetaOriginalStorageSchema current.columnSchema domain with
        | none => (.error, tables)
        | some storedSchema =>
          let stored := { current with columnSchema := storedSchema }
          (.ready stored, { tables with batch := some stored })

/-- What the rows of the file come to: the exchange rates of their dates cannot be had, or the
    rows are written, with their counters and the metric tables they leave. -/
inductive DomainWork (μ : Type) where
  | ratesFail
  | imports (validRowCount warningCount errorCount importedMetricCount : Nat)
      (rows : BatchTable → Nat) (metrics : μ)

inductive DomainResult where
  | lost
  | error
  | success
deriving DecidableEq

def importStatus (errorCount importedMetricCount : Nat) : UploadStatus :=
  if errorCount > 0 ∧ importedMetricCount > 0 then .PARTIAL
  else if errorCount > 0 then .FAILED
  else .IMPORTED

/-- The transaction of the rows, with the ownership check at its beginning. A failure of the
    rates is recorded and committed. -/
def domainTransaction [DecidableEq β] (batch : ReservedBatch β) (work : DomainWork μ) (now : Nat)
    (tables : ReservationTables μ β) : DomainResult × ReservationTables μ β :=
  match tables.batch with
  | none => (.lost, tables)
  | some current =>
    if current.id ≠ batch.id ∨ sameStorageOwnership current batch = false then (.lost, tables)
    else
      match work with
      | .ratesFail =>
        (.error,
          { tables with
            batch := some { current with status := .FAILED, errorCount := 1 }
            rows := addRows tables.rows (only .rowErrors 1) })
      | .imports validRowCount warningCount errorCount importedMetricCount rows metrics =>
        (.success,
          { batch := some
              { current with
                status := importStatus errorCount importedMetricCount
                validRowCount
                warningCount
                errorCount
                importedAt := if importedMetricCount > 0 then some now else none }
            rows := addRows tables.rows rows
            metrics })

/-! ## 3. Attempts -/

/-- Where an attempt stands. -/
inductive AttemptPhase (β : Type) where
  | start
  | absent
  | creating (columnSchema : StorageSchema β)
  | raced
  | duplicated (batchId : String)
  | reserved (batch : ReservedBatch β)
  | prepared (batch : ReservedBatch β)
  | ended

def Prepared.phase : Prepared β → AttemptPhase β
  | .lost => .ended
  | .error => .ended
  | .ready batch => .prepared batch

/-- The database, the clock and the attempts. `attempt` is the id under which a process got the
    batch, `issued` are the ids handed out; `owners` and `commits` record the ids the batch has
    carried and the processes whose rows have been committed, the last one first. -/
structure ReservationWorld (π μ β : Type) where
  now : Nat
  tables : ReservationTables μ β
  phase : π → AttemptPhase β
  attempt : π → Option String
  issued : List String
  owners : List String
  commits : List π

section Steps

variable [DecidableEq π] [DecidableEq β]

def ReservationWorld.goto (w : ReservationWorld π μ β) (p : π) (phase : AttemptPhase β) :
    ReservationWorld π μ β :=
  { w with phase := Function.update w.phase p phase }

/-- The process has the batch, under an id. -/
def ReservationWorld.own (w : ReservationWorld π μ β) (p : π) (attemptId : String)
    (batch : ReservedBatch β) (tables : ReservationTables μ β) : ReservationWorld π μ β :=
  { w.goto p (.reserved batch) with
    tables
    attempt := Function.update w.attempt p (some attemptId)
    owners := attemptId :: w.owners }

/-- A step of one process, or of none. -/
inductive MetaStep (domain : π → MetaOriginalStorageDomain) (w : ReservationWorld π μ β) :
    Option π → ReservationWorld π μ β → Prop
  | tick (ms : Nat) : MetaStep domain w none { w with now := w.now + ms }
  | otherImport (metrics : μ) :
      MetaStep domain w none { w with tables := { w.tables with metrics } }
  -- a crash, or a transaction that throws and is rolled back
  | crash (p : π) : MetaStep domain w (some p) (w.goto p .ended)
  -- importMetaAdDailyCsv / importMetaAdsetCsv: the search by hash, and the batch of a new file
  | findNothing (p : π) (h : w.phase p = .start) (hn : w.tables.batch = none) :
      MetaStep domain w (some p) (w.goto p .absent)
  | findDuplicate (p : π) (batch : ReservedBatch β) (h : w.phase p = .start ∨ w.phase p = .raced)
      (hb : w.tables.batch = some batch) :
      MetaStep domain w (some p) (w.goto p (.duplicated batch.id))
  | newMarker (p : π) (fields : β) (attemptId : String) (h : w.phase p = .absent)
      (hfresh : attemptId ∉ w.issued) :
      MetaStep domain w (some p)
        { w.goto p (.creating (pendingMetaOriginalStorageSchema
            { fields, originalStorage := none } (domain p) w.now attemptId)) with
          issued := attemptId :: w.issued }
  | create (p : π) (id storedFilePath attemptId : String) (columnSchema : StorageSchema β)
      (batch : ReservedBatch β) (tables : ReservationTables μ β)
      (h : w.phase p = .creating columnSchema)
      (hc : createReservedBatch id storedFilePath (domain p) columnSchema w.tables = some (batch, tables))
      (hi : batch.attemptId = some attemptId) :
      MetaStep domain w (some p) (w.own p attemptId batch tables)
  | createConflict (p : π) (columnSchema : StorageSchema β) (batch : ReservedBatch β)
      (h : w.phase p = .creating columnSchema) (hb : w.tables.batch = some batch) :
      MetaStep domain w (some p) (w.goto p .raced)
  | racedNothing (p : π) (h : w.phase p = .raced) (hn : w.tables.batch = none) :
      MetaStep domain w (some p) (w.goto p .ended)
  -- claimStoragePendingBatch
  | claim (p : π) (batchId attemptId : String) (batch : ReservedBatch β)
      (tables : ReservationTables μ β) (h : w.phase p = .duplicated batchId)
      (hfresh : attemptId ∉ w.issued)
      (hc : claimStoragePendingBatch (domain p) batchId attemptId w.now w.tables = some (batch, tables)) :
      MetaStep domain w (some p)
        { w.own p attemptId batch tables with issued := attemptId :: w.issued }
  | refuse (p : π) (batchId attemptId : String) (h : w.phase p = .duplicated batchId)
      (hc : claimStoragePendingBatch (domain p) batchId attemptId w.now w.tables = none) :
      MetaStep domain w (some p) (w.goto p .ended)
  | prepare (p : π) (batch : ReservedBatch β) (file : Preparation) (h : w.phase p = .reserved batch) :
      MetaStep domain w (some p)
        { w.goto p (prepareBatchWithFence (domain p) batch file w.tables).1.phase with
          tables := (prepareBatchWithFence (domain p) batch file w.tables).2 }
  | transact (p : π) (batch : ReservedBatch β) (work : DomainWork μ) (h : w.phase p = .prepared batch) :
      MetaStep domain w (some p)
        { w.goto p .ended with
          tables := (domainTransaction batch work w.now w.tables).2
          commits :=
            if (domainTransaction batch work w.now w.tables).1 = .success then p :: w.commits
            else w.commits }

/-- Before any attempt. -/
def initialReservation (now : Nat) (metrics : μ) : ReservationWorld π μ β where
  now := now
  tables := { batch := none, rows := fun _ => 0, metrics }
  phase _ := .start
  attempt _ := none
  issued := []
  owners := []
  commits := []

inductive MetaReachable (domain : π → MetaOriginalStorageDomain) : ReservationWorld π μ β → Prop
  | init (now : Nat) (metrics : μ) : MetaReachable domain (initialReservation now metrics)
  | step {w w' : ReservationWorld π μ β} {actor : Option π} :
      MetaReachable domain w → MetaStep domain w actor w' → MetaReachable domain w'

/-- Any number of steps. -/
def MetaRun (domain : π → MetaOriginalStorageDomain) :
    ReservationWorld π μ β → ReservationWorld π μ β → Prop :=
  Relation.ReflTransGen fun w w' => ∃ actor, MetaStep domain w actor w'

end Steps

end AdsManagement.Meta
