/-
  File:      Coupang/VersionStore.lean
  Subject:   THE VERSION STORE: sale lines and ad metrics with their versions, and the four
             operations that touch them (coupang.service.ts): `importSalesXlsx`,
             `importAdsXlsx`, `deleteUpload` and `rematch`.

  The two tables are handled by one engine over `StoredRow`: the columns that decide versions
  are its fields, the other columns its `data`. Dates are day numbers, ids and time stamps
  come from the database and are handed in.

  * `importRow`, `restoreKey` -- one turn of the two loops;
  * `Step`, `Reachable` -- the operations and the stores of all runs.
-/
import Mathlib.Data.List.Sort
import AdsManagement.Lib.Election
import AdsManagement.Lib.CurrentRow
import AdsManagement.Common.Decimal
import AdsManagement.Coupang.Rows

namespace AdsManagement.Coupang

open Common Lib

/-! ## 1. Stored rows -/

/-- A row of `coupang_sale_lines` or `coupang_ad_metrics`. -/
structure StoredRow (δ : Type) where
  id : Nat
  uploadBatchId : Nat
  rowNumber : Nat
  sourceRowHash : String
  logicalKey : String
  validationStatus : RowValidationStatus
  validationErrors : List RowIssue
  importVersion : Nat
  isCurrent : Bool
  createdAt : Nat
  data : δ
deriving DecidableEq

variable {δ : Type}

/-- `validationStatus: { not: ERROR }`. -/
def StoredRow.accepted (r : StoredRow δ) : Bool := r.validationStatus != .ERROR

/-- `orderBy: [{ importVersion: "desc" }, { createdAt: "desc" }]`. -/
def versionRank (r : StoredRow δ) : Nat ×ₗ Nat := toLex (r.importVersion, r.createdAt)

def StoredRow.clear (r : StoredRow δ) : StoredRow δ := { r with isCurrent := false }

def versionColumns : VersionColumns (StoredRow δ) where
  version := (·.importVersion)
  current := (·.isCurrent)
  accepted := (·.accepted)

/-- The rows of one logical key. -/
def ofKey (k : String) (rows : List (StoredRow δ)) : List (StoredRow δ) :=
  rows.filter fun r => r.logicalKey = k

/-! ## 2. The decision -/

structure CoupangRowImportDecision where
  importVersion : Nat
  isCurrent : Bool
  supersedeExisting : Bool
  skippedDuplicate : Bool

/-- `existingCurrent` is the version of the current row, if there is one. -/
def resolveCoupangRowImportDecision (conflictPolicy : ConflictPolicy)
    (existingCurrent latestImportVersion : Option Nat) : CoupangRowImportDecision :=
  let latest := latestImportVersion.getD (existingCurrent.getD 0)
  match existingCurrent with
  | none =>
    { importVersion := if latest > 0 then latest + 1 else 1
      isCurrent := true, supersedeExisting := false, skippedDuplicate := false }
  | some current =>
    match conflictPolicy with
    | .SKIP =>
      { importVersion := current
        isCurrent := false, supersedeExisting := false, skippedDuplicate := true }
    | .NEW_VERSION =>
      { importVersion := latest + 1
        isCurrent := true, supersedeExisting := true, skippedDuplicate := false }
    | .OVERWRITE =>
      { importVersion := current
        isCurrent := true, supersedeExisting := true, skippedDuplicate := false }

def resolveCoupangRowStoredState (validationStatus : RowValidationStatus)
    (decision : CoupangRowImportDecision) : CoupangRowImportDecision :=
  if validationStatus = .ERROR then { decision with isCurrent := false, supersedeExisting := false }
  else decision

/-! ## 3. The row loop of an import -/

/-- A row of the file once it is matched: its key, issues and warnings, the product that
    counts for its status, and its other columns. -/
structure ImportRow (δ : Type) where
  rowNumber : Nat
  sourceRowHash : String
  logicalKey : String
  issues : List RowIssue
  warnings : List RowIssue
  productId : Option String
  data : δ

/-- What the database adds to an inserted row. -/
structure Stamp where
  id : Nat
  createdAt : Nat

/-- What the loop knows of a row before it writes. -/
structure RowPlan (δ : Type) where
  existingCurrentRows : List (StoredRow δ)
  warnings : List RowIssue
  validationStatus : RowValidationStatus
  storedState : CoupangRowImportDecision

/-- `findMany({ where: { key }, orderBy: [importVersion desc, createdAt desc] })`. -/
def existingRows (k : String) (rows : List (StoredRow δ)) : List (StoredRow δ) :=
  (ofKey k rows).insertionSort fun a b => versionRank b ≤ versionRank a

def planRow (duplicateCode : String) (conflictPolicy : ConflictPolicy) (row : ImportRow δ)
    (rows : List (StoredRow δ)) : RowPlan δ :=
  let existing := existingRows row.logicalKey rows
  let existingCurrentRows := existing.filter (·.isCurrent)
  let decision := resolveCoupangRowImportDecision conflictPolicy
    (existingCurrentRows.head?.map (·.importVersion)) (existing.head?.map (·.importVersion))
  let warnings :=
    if decision.skippedDuplicate then
      row.warnings ++ [duplicateCurrentIssue duplicateCode row.logicalKey]
    else row.warnings
  let validationStatus := validationStatusFor row.issues warnings row.productId
  { existingCurrentRows
    warnings
    validationStatus
    storedState := resolveCoupangRowStoredState validationStatus decision }

/-- `updateMany({ where: { id: { in: ids } }, data: { isCurrent: false } })`. -/
def clearCurrent (ids : List Nat) (rows : List (StoredRow δ)) : List (StoredRow δ) :=
  rows.map fun r => if r.id ∈ ids then r.clear else r

/-- The table and the counters of the loop. -/
structure ImportState (δ : Type) where
  rows : List (StoredRow δ)
  validRowCount : Nat
  warningCount : Nat
  errorCount : Nat

def storedRow (batchId : Nat) (stamp : Stamp) (row : ImportRow δ) (plan : RowPlan δ) :
    StoredRow δ where
  id := stamp.id
  uploadBatchId := batchId
  rowNumber := row.rowNumber
  sourceRowHash := row.sourceRowHash
  logicalKey := row.logicalKey
  validationStatus := plan.validationStatus
  validationErrors := row.issues ++ plan.warnings
  importVersion := plan.storedState.importVersion
  isCurrent := plan.storedState.isCurrent
  createdAt := stamp.createdAt
  data := row.data

def demoteRows (plan : RowPlan δ) (rows : List (StoredRow δ)) : List (StoredRow δ) :=
  if plan.storedState.supersedeExisting && plan.existingCurrentRows.length > 0 then
    clearCurrent (plan.existingCurrentRows.map (·.id)) rows
  else if plan.existingCurrentRows.length > 1 then
    clearCurrent ((plan.existingCurrentRows.drop 1).map (·.id)) rows
  else rows

section

variable (duplicateCode : String) (conflictPolicy : ConflictPolicy) (batchId : Nat)

/-- One turn of the loop over the rows of a file. -/
def importRow (state : ImportState δ) (entry : Stamp × ImportRow δ) : ImportState δ :=
  let plan := planRow duplicateCode conflictPolicy entry.2 state.rows
  { rows := demoteRows plan state.rows ++ [storedRow batchId entry.1 entry.2 plan]
    validRowCount := if entry.2.issues.length > 0 then state.validRowCount else state.validRowCount + 1
    warningCount := state.warningCount + plan.warnings.length
    errorCount := if entry.2.issues.length > 0 then state.errorCount + 1 else state.errorCount }

def importRows (entries : List (Stamp × ImportRow δ)) (rows : List (StoredRow δ)) : ImportState δ :=
  entries.foldl (importRow duplicateCode conflictPolicy batchId)
    { rows, validRowCount := 0, warningCount := 0, errorCount := 0 }

end

/-! ## 4. Deletion and re-election -/

/-- The rows among which `findFirst` looks for the latest one of a key. -/
def candidates (k : String) (rows : List (StoredRow δ)) : List (StoredRow δ) :=
  rows.filter fun r => r.logicalKey = k && r.accepted

section

variable (elect : List (StoredRow δ) → Option (StoredRow δ))

/-- One turn of `restoreCurrentCoupangSaleLines` and `restoreCurrentCoupangAdMetrics`. -/
def restoreKey (rows : List (StoredRow δ)) (k : String) : List (StoredRow δ) :=
  let cleared := rows.map fun r => if r.logicalKey = k then r.clear else r
  match elect (candidates k cleared) with
  | none => cleared
  | some latest => cleared.map fun r => if r.id = latest.id then { r with isCurrent := true } else r

def restoreCurrent (keys : List String) (rows : List (StoredRow δ)) : List (StoredRow δ) :=
  keys.foldl (restoreKey elect) rows

/-- The part of `deleteUpload` on one table. -/
def deleteRows (batchId : Nat) (rows : List (StoredRow δ)) : List (StoredRow δ) :=
  let deleting := rows.filter fun r => r.uploadBatchId = batchId
  let keys := uniqueNonEmpty (deleting.map fun r => some r.logicalKey)
  restoreCurrent elect keys (rows.filter fun r => r.uploadBatchId ≠ batchId)

end

/-! ## 5. Sale lines -/

/-- A sale line: the columns of its row, and the product they name. -/
structure SaleLineData extends ParsedCoupangSaleRow where
  coupangProductId : Option String
  coupangProductRuleId : Option String
  matchSource : MatchSource
deriving DecidableEq

abbrev CoupangSaleLine := StoredRow SaleLineData

/-- Which product a sale line names, with the warning when it names none. -/
def matchSaleLine (matchText : MatchText) (productName optionName : String)
    (saleDate : Option Int) : Option String × Option String × MatchSource × List RowIssue :=
  let result := matchText (productName ++ " " ++ optionName) saleDate
  if result.reason = .MATCHED then (result.productId, result.matchRuleId, .RULE, [])
  else (none, none, .UNMATCHED, [matchIssue result.reason.text result.candidates])

/-- The columns of a sale line; the decimal ones round what is written to them. -/
def saleLineData (row : ParsedCoupangSaleRow) (productId ruleId : Option String)
    (matchSource : MatchSource) : SaleLineData :=
  { row with
    salesKrw := columnValue 2 row.salesKrw
    salesQuantity := columnValue 4 row.salesQuantity
    totalSalesKrw := columnValue 2 row.totalSalesKrw
    totalSalesQuantity := columnValue 4 row.totalSalesQuantity
    cancelAmountKrw := columnValue 2 row.cancelAmountKrw
    cancelQuantity := columnValue 4 row.cancelQuantity
    instantCancelQuantity := columnValue 4 row.instantCancelQuantity
    netSalesKrw := columnValue 2 row.netSalesKrw
    coupangProductId := productId
    coupangProductRuleId := ruleId
    matchSource }

/-- A row that does not parse is stored with empty texts and zero amounts. -/
def emptySaleLineData : SaleLineData where
  saleDate := none
  optionId := none
  optionName := ""
  productName := ""
  registeredProductId := none
  category := none
  saleMethod := none
  salesKrw := 0
  orderCount := 0
  salesQuantity := 0
  totalSalesKrw := 0
  totalSalesQuantity := 0
  cancelAmountKrw := 0
  cancelQuantity := 0
  instantCancelQuantity := 0
  netSalesKrw := 0
  coupangProductId := none
  coupangProductRuleId := none
  matchSource := .UNMATCHED

def saleImportRow (hash : RecordHash) (matchText : MatchText) (row : ParsedCoupangSalesRowResult) :
    ImportRow SaleLineData :=
  let issues := row.issues.map fun issue => rowIssue issue .ERROR
  match row.parsedRow with
  | none =>
    { rowNumber := row.rowNumber, sourceRowHash := row.sourceRowHash,
      logicalKey := fallbackRowKey hash (.cells row.rawRow), issues, warnings := [],
      productId := none, data := emptySaleLineData }
  | some parsed =>
    let (productId, ruleId, source, warnings) :=
      matchSaleLine matchText parsed.productName parsed.optionName parsed.saleDate
    { rowNumber := row.rowNumber, sourceRowHash := row.sourceRowHash,
      logicalKey := coupangSaleLineKey parsed, issues, warnings,
      productId, data := saleLineData parsed productId ruleId source }

/-! ## 6. Ad metrics -/

structure AdMetricData extends ParsedCoupangAdRow where
  spendProductId : Option String
  spendProductRuleId : Option String
  conversionProductId : Option String
  conversionProductRuleId : Option String
  spendMatchSource : MatchSource
  conversionMatchSource : MatchSource
deriving DecidableEq

abbrev CoupangAdMetric := StoredRow AdMetricData

/-- The columns of an ad metric. -/
def adMetricData (row : ParsedCoupangAdRow) (found : CoupangAdProductMatchResolution) :
    AdMetricData :=
  { row with
    adSpendKrw := columnValue 2 row.adSpendKrw
    totalConversionSales1dKrw := columnValue 2 row.totalConversionSales1dKrw
    directConversionSales1dKrw := columnValue 2 row.directConversionSales1dKrw
    indirectConversionSales1dKrw := columnValue 2 row.indirectConversionSales1dKrw
    totalSalesQuantity1d := columnValue 4 row.totalSalesQuantity1d
    directSalesQuantity1d := columnValue 4 row.directSalesQuantity1d
    indirectSalesQuantity1d := columnValue 4 row.indirectSalesQuantity1d
    spendProductId := found.spendProductId
    spendProductRuleId := found.spendRuleId
    conversionProductId := found.conversionProductId
    conversionProductRuleId := found.conversionRuleId
    spendMatchSource := found.spendMatchSource
    conversionMatchSource := found.conversionMatchSource }

/-- A row that does not parse is stored under `new Date(0)`. -/
def emptyAdMetricData : AdMetricData where
  metricDate := 0
  campaignName := none
  adGroupName := none
  adName := none
  adExecutionOptionId := none
  adExecutionProductName := ""
  conversionOptionId := none
  conversionProductName := ""
  impressions := 0
  clicks := 0
  adSpendKrw := 0
  totalOrders1d := 0
  directOrders1d := 0
  indirectOrders1d := 0
  totalConversionSales1dKrw := 0
  directConversionSales1dKrw := 0
  indirectConversionSales1dKrw := 0
  totalSalesQuantity1d := 0
  directSalesQuantity1d := 0
  indirectSalesQuantity1d := 0
  spendProductId := none
  spendProductRuleId := none
  conversionProductId := none
  conversionProductRuleId := none
  spendMatchSource := .UNMATCHED
  conversionMatchSource := .UNMATCHED

def adImportRow (hash : RecordHash) (matchText : MatchText) (row : CoupangAdsImportRow) :
    ImportRow AdMetricData :=
  let issues := row.issues.map fun issue => rowIssue issue .ERROR
  match row.parsedRow with
  | none =>
    { rowNumber := row.rowNumber, sourceRowHash := row.sourceRowHash,
      logicalKey := fallbackRowKey hash row.rawRow, issues, warnings := [],
      productId := none, data := emptyAdMetricData }
  | some parsed =>
    let found := resolveCoupangAdProductMatches matchText parsed.metricDate
      parsed.adExecutionProductName parsed.adName parsed.conversionProductName
    { rowNumber := row.rowNumber, sourceRowHash := row.sourceRowHash,
      logicalKey := coupangAdMetricKey parsed, issues, warnings := found.warnings,
      productId := orText found.spendProductId found.conversionProductId,
      data := adMetricData parsed found }

/-! ## 7. The store and its operations -/

structure CoupangStore where
  saleLines : List CoupangSaleLine
  adMetrics : List CoupangAdMetric
deriving DecidableEq

section

variable (hash : RecordHash) (matchText : MatchText)

/-- The rows a sales file brings, with the stamps of their insertion. -/
def saleEntries (file : List (Stamp × ParsedCoupangSalesRowResult)) : List (Stamp × ImportRow SaleLineData) :=
  file.map fun entry => (entry.1, saleImportRow hash matchText entry.2)

def adEntries (file : List (Stamp × CoupangAdsImportRow)) : List (Stamp × ImportRow AdMetricData) :=
  file.map fun entry => (entry.1, adImportRow hash matchText entry.2)

/-- What the transaction of `importSalesXlsx` writes. -/
def importSalesXlsx (conflictPolicy : ConflictPolicy)
    (batchId : Nat) (file : List (Stamp × ParsedCoupangSalesRowResult)) (store : CoupangStore) :
    CoupangStore :=
  { store with
    saleLines := (importRows "COUPANG_SALE_LINE_ALREADY_CURRENT" conflictPolicy batchId
      (saleEntries hash matchText file) store.saleLines).rows }

/-- What the transaction of `importAdsXlsx` writes. -/
def importAdsXlsx (conflictPolicy : ConflictPolicy)
    (batchId : Nat) (file : List (Stamp × CoupangAdsImportRow)) (store : CoupangStore) :
    CoupangStore :=
  { store with
    adMetrics := (importRows "COUPANG_AD_METRIC_ALREADY_CURRENT" conflictPolicy batchId
      (adEntries hash matchText file) store.adMetrics).rows }

end

/-- `deleteUpload`, with the elections the database holds for the two tables. -/
def deleteUpload (electLine : List CoupangSaleLine → Option CoupangSaleLine)
    (electMetric : List CoupangAdMetric → Option CoupangAdMetric) (batchId : Nat)
    (store : CoupangStore) : CoupangStore where
  saleLines := deleteRows electLine batchId store.saleLines
  adMetrics := deleteRows electMetric batchId store.adMetrics

/-- The update `rematch` makes to a sale line. -/
def rematchSaleLine (matchText : MatchText) (line : CoupangSaleLine) : CoupangSaleLine :=
  let (productId, ruleId, source, warnings) :=
    matchSaleLine matchText line.data.productName line.data.optionName line.data.saleDate
  { line with
    validationStatus := validationStatusFor [] warnings productId
    validationErrors := warnings
    data := { line.data with coupangProductId := productId, coupangProductRuleId := ruleId,
                             matchSource := source } }

def rematchAdMetric (matchText : MatchText) (metric : CoupangAdMetric) : CoupangAdMetric :=
  let found := resolveCoupangAdProductMatches matchText metric.data.metricDate
    metric.data.adExecutionProductName metric.data.adName metric.data.conversionProductName
  { metric with
    validationStatus := validationStatusFor [] found.warnings
      (orText found.spendProductId found.conversionProductId)
    validationErrors := found.warnings
    data := { metric.data with
      spendProductId := found.spendProductId
      spendProductRuleId := found.spendRuleId
      conversionProductId := found.conversionProductId
      conversionProductRuleId := found.conversionRuleId
      spendMatchSource := found.spendMatchSource
      conversionMatchSource := found.conversionMatchSource } }

/-- `rematch` over a range of days: every current, accepted row of the range is matched again.
    The pages in which it reads them are left out. -/
def rematch (matchText : MatchText) (fromDate toDate : Int) (store : CoupangStore) :
    CoupangStore where
  saleLines := store.saleLines.map fun line =>
    if line.isCurrent && line.accepted &&
        line.data.saleDate.any fun d => decide (fromDate ≤ d ∧ d ≤ toDate) then
      rematchSaleLine matchText line
    else line
  adMetrics := store.adMetrics.map fun metric =>
    if metric.isCurrent && metric.accepted &&
        decide (fromDate ≤ metric.data.metricDate ∧ metric.data.metricDate ≤ toDate) then
      rematchAdMetric matchText metric
    else metric

/-- The ids the database hands out are new. -/
structure FreshStamps (stamps : List Stamp) (rows : List (StoredRow δ)) : Prop where
  nodup : (stamps.map (·.id)).Nodup
  fresh : ∀ s ∈ stamps, ∀ r ∈ rows, r.id ≠ s.id

/-- The batch of an import holds no row yet. -/
structure NewBatch (batchId : Nat) (store : CoupangStore) : Prop where
  saleLines : ∀ r ∈ store.saleLines, r.uploadBatchId ≠ batchId
  adMetrics : ∀ r ∈ store.adMetrics, r.uploadBatchId ≠ batchId

/-- One operation of the store. -/
inductive Step (hash : RecordHash) : CoupangStore → CoupangStore → Prop where
  | importSales (matchText : MatchText) (conflictPolicy : ConflictPolicy) (batchId : Nat)
      (file : List (Stamp × ParsedCoupangSalesRowResult)) (s : CoupangStore)
      (fresh : FreshStamps (file.map (·.1)) s.saleLines) (new : NewBatch batchId s) :
      Step hash s (importSalesXlsx hash matchText conflictPolicy batchId file s)
  | importAds (matchText : MatchText) (conflictPolicy : ConflictPolicy) (batchId : Nat)
      (file : List (Stamp × CoupangAdsImportRow)) (s : CoupangStore)
      (fresh : FreshStamps (file.map (·.1)) s.adMetrics) (new : NewBatch batchId s) :
      Step hash s (importAdsXlsx hash matchText conflictPolicy batchId file s)
  | delete (electLine : List CoupangSaleLine → Option CoupangSaleLine)
      (electMetric : List CoupangAdMetric → Option CoupangAdMetric) (batchId : Nat)
      (s : CoupangStore) (hLine : Elects versionRank electLine)
      (hMetric : Elects versionRank electMetric) :
      Step hash s (deleteUpload electLine electMetric batchId s)
  | rematch (matchText : MatchText) (fromDate toDate : Int) (s : CoupangStore) :
      Step hash s (rematch matchText fromDate toDate s)

/-- The stores that runs from the empty one reach. -/
inductive Reachable (hash : RecordHash) : CoupangStore → Prop where
  | start : Reachable hash ⟨[], []⟩
  | step {s t : CoupangStore} : Reachable hash s → Step hash s t → Reachable hash t

end AdsManagement.Coupang
