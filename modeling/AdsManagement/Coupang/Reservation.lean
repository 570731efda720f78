/-
  File:      Coupang/Reservation.lean
  Subject:   THE RESERVATION OF AN IMPORT: how attempts to import files of one hash, in SKIP mode,
             find, create, claim, finalize and fail the one upload batch of that hash.

  An attempt is a process. Its statements on the database are atomic and those of different
  attempts interleave freely; local computations happen between them, and time passes whenever
  it likes. All attempts read the same file, and the file of this module has its required
  columns: an attempt whose file lacks one never comes to the domain transaction, it writes FAILED
  by the id of its batch, whatever the marker (`failMissingColumns`), and is left out.
  The other columns of a batch play no role in the protocol and are left out.

  * `claimRetryCheck`, `claimUpdate` -- the two halves of `claimCoupangRetryBatch`;
  * `finalizeCoupangReservation`, `failUpdate` -- the ends of an attempt;
  * `ReservationStep`, `ReservationReachable` -- the steps of all attempts, and their runs.
-/
import AdsManagement.Common.Json

namespace AdsManagement.Coupang

open Common

/-! ## 1. The batch and its marker -/

/-- `CoupangRetrySource`: the upload types that reserve their batch. -/
inductive CoupangRetrySource where
  | SALES
  | ADS
  | MARGIN
deriving DecidableEq

inductive RetryState where
  | RESERVED
  | TRANSIENT_FAILED
deriving DecidableEq

/-- The marker an attempt leaves on the batch. Times are milliseconds. -/
structure CoupangRetryMarker where
  sourceType : CoupangRetrySource
  state : RetryState
  attemptId : String
  leaseExpiresAt : Nat
deriving DecidableEq

variable {β π : Type}

/-- The column schema: its fields, and the entry under `_securityRetry`. -/
structure ColumnSchema (β : Type) where
  fields : β
  securityRetry : Option CoupangRetryMarker
deriving DecidableEq

def coupangRetryMarker (schema : ColumnSchema β) : Option CoupangRetryMarker := schema.securityRetry

def withCoupangRetryMarker (schema : ColumnSchema β) (marker : CoupangRetryMarker) : ColumnSchema β :=
  { schema with securityRetry := some marker }

/-- `COUPANG_RETRY_LEASE_MS`: one hour. -/
def coupangRetryLeaseMs : Nat := 60 * 60 * 1000

def newCoupangRetryMarker (sourceType : CoupangRetrySource) (state : RetryState) (attemptId : String)
    (now : Nat) : CoupangRetryMarker where
  sourceType := sourceType
  state := state
  attemptId := attemptId
  leaseExpiresAt := now + coupangRetryLeaseMs

/-- The attempt a schema belongs to. -/
def ColumnSchema.attemptId (schema : ColumnSchema β) : Option String :=
  (coupangRetryMarker schema).map (·.attemptId)

structure UploadBatch (β : Type) where
  id : String
  sourceType : CoupangRetrySource
  status : UploadStatus
  validRowCount : Nat
  warningCount : Nat
  errorCount : Nat
  importedAt : Option Nat
  columnSchema : ColumnSchema β

/-- The tables whose rows refer to a batch. -/
inductive RowTable where
  | saleLines
  | adMetrics
  | promotionPrices
  | rowErrors
deriving DecidableEq

/-- The database, as far as one hash goes: `fileHashSha256` is unique. -/
structure UploadTables (β : Type) where
  batch : Option (UploadBatch β)
  rows : RowTable → Nat

/-! ## 2. Statements -/

/-- `createBatch`; nothing on a conflict of the hash. -/
def createBatch (id : String) (sourceType : CoupangRetrySource) (columnSchema : ColumnSchema β)
    (tables : UploadTables β) : Option (UploadBatch β × UploadTables β) :=
  match tables.batch with
  | some _ => none
  | none =>
    let batch : UploadBatch β :=
      { id, sourceType, status := .VALIDATING, validRowCount := 0
        warningCount := 0, errorCount := 0, importedAt := none, columnSchema }
    some (batch, { tables with batch := some batch })

/-- `updateMany({ where: { id, status, columnSchema: { equals } }, data })`; nothing when no row
    matches. -/
def updateWhere [DecidableEq β] (id : String) (status : UploadStatus) (columnSchema : ColumnSchema β)
    (data : UploadBatch β → UploadBatch β) (tables : UploadTables β) : Option (UploadTables β) :=
  match tables.batch with
  | none => none
  | some batch =>
    if batch.id = id ∧ batch.status = status ∧ batch.columnSchema = columnSchema then
      some { tables with batch := some (data batch) }
    else none

/-- `reusableDuplicate`: the batch is imported already. -/
def isReusableDuplicate (sourceType : CoupangRetrySource) (batch : UploadBatch β) : Bool :=
  batch.sourceType = sourceType && (batch.status = .IMPORTED || batch.status = .PARTIAL)

def coupangRetryConflict (code message : String) : ApiError := { code, message }

/-- The checks of `claimCoupangRetryBatch` on a batch as it was read, with the counts of its rows. -/
def claimRetryCheck (sourceType : CoupangRetrySource) (batch : UploadBatch β) (counts : RowTable → Nat)
    (now : Nat) : Except ApiError Unit :=
  if counts .saleLines > 0 ∨ counts .adMetrics > 0 ∨ counts .promotionPrices > 0 ∨
      counts .rowErrors > 0 ∨ batch.validRowCount > 0 ∨ batch.warningCount > 0 ∨
      batch.errorCount > 0 ∨ batch.importedAt.isSome then
    .error (coupangRetryConflict "COUPANG_UPLOAD_RETRY_NOT_ALLOWED"
      "An upload with persisted domain work cannot be retried.")
  else
    match coupangRetryMarker batch.columnSchema with
    | none => .error (coupangRetryConflict "COUPANG_UPLOAD_RETRY_NOT_ALLOWED"
        "The upload reservation is not retryable.")
    | some marker =>
      if marker.sourceType ≠ sourceType ∨ (batch.status ≠ .VALIDATING ∧ batch.status ≠ .FAILED) then
        .error (coupangRetryConflict "COUPANG_UPLOAD_RETRY_NOT_ALLOWED"
          "The upload reservation is not retryable.")
      else if marker.state = .RESERVED ∧ marker.leaseExpiresAt > now then
        .error (coupangRetryConflict "COUPANG_UPLOAD_IN_PROGRESS"
          "The same upload is already being processed.")
      else .ok ()

/-- The write of `claimCoupangRetryBatch`. -/
def claimUpdate [DecidableEq β] (batch : UploadBatch β) (claimedSchema : ColumnSchema β)
    (tables : UploadTables β) : Option (UploadTables β) :=
  updateWhere batch.id batch.status batch.columnSchema
    (fun b => { b with status := .VALIDATING, columnSchema := claimedSchema }) tables

/-- The write of `rethrowCoupangImportFailure`. -/
def failUpdate [DecidableEq β] (batch : UploadBatch β) (now : Nat) (tables : UploadTables β) :
    Option (UploadTables β) :=
  match coupangRetryMarker batch.columnSchema with
  | none => none
  | some marker =>
    let failedSchema := withCoupangRetryMarker batch.columnSchema
      { marker with state := .TRANSIENT_FAILED, leaseExpiresAt := now }
    updateWhere batch.id .VALIDATING batch.columnSchema
      (fun b => { b with status := .FAILED, columnSchema := failedSchema }) tables

def statusFor (validRowCount errorCount : Nat) : UploadStatus :=
  if errorCount > 0 ∧ validRowCount > 0 then .PARTIAL
  else if errorCount > 0 then .FAILED
  else .IMPORTED

/-- What the domain transaction of an attempt comes to. A margin import writes its column anew,
    without a marker. -/
structure ImportOutcome (β : Type) where
  validRowCount : Nat
  warningCount : Nat
  errorCount : Nat
  writtenSchema : Option β
  rows : RowTable → Nat

/-- The domain transaction with `finalizeCoupangReservation` at its end: the rows of the attempt
    are there when the batch is finalized, and nothing otherwise. -/
def finalizeCoupangReservation [DecidableEq β] (batch : UploadBatch β) (outcome : ImportOutcome β)
    (now : Nat) (tables : UploadTables β) : Option (UploadTables β) :=
  (updateWhere batch.id .VALIDATING batch.columnSchema
    (fun b =>
      { b with
        validRowCount := outcome.validRowCount
        warningCount := outcome.warningCount
        errorCount := outcome.errorCount
        status := statusFor outcome.validRowCount outcome.errorCount
        importedAt := if outcome.validRowCount > 0 then some now else none
        columnSchema := match outcome.writtenSchema with
          | none => b.columnSchema
          | some fields => { fields, securityRetry := none } }) tables).map
    fun t => { t with rows := fun table => tables.rows table + outcome.rows table }

/-! ## 3. Attempts -/

/-- Where an attempt stands. A batch it carries is the one it has read or written. -/
inductive Phase (β : Type) where
  | start
  | notDuplicate
  | absent
  | creating (columnSchema : ColumnSchema β)
  | raced
  | counting (batch : UploadBatch β) (seen : RowTable → Option Nat)
  | claiming (batch : UploadBatch β) (claimedSchema : ColumnSchema β)
  | holding (batch : UploadBatch β)
  | committed (batch : UploadBatch β)
  | ended

/-- The database, the clock and the attempts. `issued` are the attempt ids handed out; `owners`
    and `commits` record which ids the batch has carried and which attempts have committed, the
    last one first. -/
structure ImportWorld (π β : Type) where
  now : Nat
  tables : UploadTables β
  phase : π → Phase β
  issued : List String
  owners : List String
  commits : List π

def ImportWorld.goto [DecidableEq π] (w : ImportWorld π β) (p : π) (phase : Phase β) : ImportWorld π β :=
  { w with phase := Function.update w.phase p phase }

/-- The id an attempt has been given and not stored yet. -/
def Phase.pendingId : Phase β → Option String
  | .creating columnSchema => columnSchema.attemptId
  | .claiming _ claimedSchema => claimedSchema.attemptId
  | _ => none

section Steps

variable [DecidableEq π] [DecidableEq β]

/-- A step of an attempt, or of the clock. -/
inductive ReservationStep (source : π → CoupangRetrySource) (w : ImportWorld π β) :
    ImportWorld π β → Prop
  | tick (ms : Nat) : ReservationStep source w { w with now := w.now + ms }
  -- a crash, and a client error that is thrown again without a write
  | crash (p : π) : ReservationStep source w (w.goto p .ended)
  -- reserveCoupangImportBatch
  | duplicate (p : π) (batch : UploadBatch β) (h : w.phase p = .start)
      (hb : w.tables.batch = some batch) (hd : isReusableDuplicate (source p) batch = true) :
      ReservationStep source w (w.goto p .ended)
  | noDuplicate (p : π) (h : w.phase p = .start)
      (hd : ∀ batch, w.tables.batch = some batch → isReusableDuplicate (source p) batch = false) :
      ReservationStep source w (w.goto p .notDuplicate)
  | findNothing (p : π) (h : w.phase p = .notDuplicate) (hn : w.tables.batch = none) :
      ReservationStep source w (w.goto p .absent)
  | newMarker (p : π) (fields : β) (attemptId : String) (h : w.phase p = .absent)
      (hfresh : attemptId ∉ w.issued) :
      ReservationStep source w
        { w.goto p (.creating (withCoupangRetryMarker { fields, securityRetry := none }
            (newCoupangRetryMarker (source p) .RESERVED attemptId w.now))) with
          issued := attemptId :: w.issued }
  | create (p : π) (id : String) (columnSchema : ColumnSchema β) (batch : UploadBatch β)
      (tables : UploadTables β) (h : w.phase p = .creating columnSchema)
      (hc : createBatch id (source p) columnSchema w.tables = some (batch, tables)) :
      ReservationStep source w
        { w.goto p (.holding batch) with
          tables, owners := columnSchema.attemptId.toList ++ w.owners }
  | createConflict (p : π) (id : String) (columnSchema : ColumnSchema β)
      (h : w.phase p = .creating columnSchema)
      (hc : createBatch id (source p) columnSchema w.tables = none) :
      ReservationStep source w (w.goto p .raced)
  | racedNothing (p : π) (h : w.phase p = .raced) (hn : w.tables.batch = none) :
      ReservationStep source w (w.goto p .ended)
  | find (p : π) (batch : UploadBatch β) (h : w.phase p = .notDuplicate ∨ w.phase p = .raced)
      (hb : w.tables.batch = some batch) (hs : batch.sourceType = source p) :
      ReservationStep source w (w.goto p (.counting batch fun _ => none))
  | findOther (p : π) (batch : UploadBatch β) (h : w.phase p = .notDuplicate ∨ w.phase p = .raced)
      (hb : w.tables.batch = some batch) (hs : batch.sourceType ≠ source p) :
      ReservationStep source w (w.goto p .ended)
  -- claimCoupangRetryBatch: four counts in any order, the checks, the write
  | count (p : π) (batch : UploadBatch β) (seen : RowTable → Option Nat) (table : RowTable)
      (h : w.phase p = .counting batch seen) :
      ReservationStep source w
        (w.goto p (.counting batch (Function.update seen table (some (w.tables.rows table)))))
  | refuse (p : π) (batch : UploadBatch β) (seen : RowTable → Option Nat) (counts : RowTable → Nat)
      (error : ApiError) (h : w.phase p = .counting batch seen)
      (hcounts : ∀ table, seen table = some (counts table))
      (hr : claimRetryCheck (source p) batch counts w.now = .error error) :
      ReservationStep source w (w.goto p .ended)
  | accept (p : π) (batch : UploadBatch β) (seen : RowTable → Option Nat) (counts : RowTable → Nat)
      (attemptId : String) (h : w.phase p = .counting batch seen)
      (hcounts : ∀ table, seen table = some (counts table))
      (ha : claimRetryCheck (source p) batch counts w.now = .ok ()) (hfresh : attemptId ∉ w.issued) :
      ReservationStep source w
        { w.goto p (.claiming batch (withCoupangRetryMarker batch.columnSchema
            (newCoupangRetryMarker (source p) .RESERVED attemptId w.now))) with
          issued := attemptId :: w.issued }
  | claim (p : π) (batch : UploadBatch β) (claimedSchema : ColumnSchema β) (tables : UploadTables β)
      (h : w.phase p = .claiming batch claimedSchema)
      (hc : claimUpdate batch claimedSchema w.tables = some tables) :
      ReservationStep source w
        { w.goto p (.holding { batch with status := .VALIDATING, columnSchema := claimedSchema }) with
          tables, owners := claimedSchema.attemptId.toList ++ w.owners }
  | claimLost (p : π) (batch : UploadBatch β) (claimedSchema : ColumnSchema β)
      (h : w.phase p = .claiming batch claimedSchema)
      (hc : claimUpdate batch claimedSchema w.tables = none) :
      ReservationStep source w (w.goto p .ended)
  -- the domain transaction
  | finalize (p : π) (batch : UploadBatch β) (outcome : ImportOutcome β) (tables : UploadTables β)
      (h : w.phase p = .holding batch)
      (hf : finalizeCoupangReservation batch outcome w.now w.tables = some tables) :
      ReservationStep source w
        { w.goto p (.committed batch) with tables, commits := p :: w.commits }
  | finalizeLost (p : π) (batch : UploadBatch β) (outcome : ImportOutcome β)
      (h : w.phase p = .holding batch)
      (hf : finalizeCoupangReservation batch outcome w.now w.tables = none) :
      ReservationStep source w (w.goto p .ended)
  -- rethrowCoupangImportFailure, before the transaction has committed or after it
  | fail (p : π) (batch : UploadBatch β) (tables : UploadTables β)
      (h : w.phase p = .holding batch ∨ w.phase p = .committed batch)
      (hf : failUpdate batch w.now w.tables = some tables) :
      ReservationStep source w { w.goto p .ended with tables }
  | failLost (p : π) (batch : UploadBatch β)
      (h : w.phase p = .holding batch ∨ w.phase p = .committed batch)
      (hf : failUpdate batch w.now w.tables = none) :
      ReservationStep source w (w.goto p .ended)

/-- Before any attempt. -/
def initialWorld (now : Nat) : ImportWorld π β where
  now := now
  tables := { batch := none, rows := fun _ => 0 }
  phase _ := .start
  issued := []
  owners := []
  commits := []

inductive ReservationReachable (source : π → CoupangRetrySource) : ImportWorld π β → Prop
  | init (now : Nat) : ReservationReachable source (initialWorld now)
  | step {w w' : ImportWorld π β} : ReservationReachable source w → ReservationStep source w w' →
      ReservationReachable source w'

end Steps

end AdsManagement.Coupang
