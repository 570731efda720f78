/-
  File:      Cafe24/UploadStore.lean
  Subject:   THE CAFE24 UPLOADS: batches, order lines and row errors, and the operations on them
             (sales/cafe24-uploads.service.ts, domain/cafe24-matcher.ts): `importCafe24Csv`,
             `deleteUpload` and `rematchCafe24Lines`.

  An order line is a `StoredRow`: the columns that decide versions are its fields, the other
  columns its `data`. Ids, time stamps and the random hash of a second batch come from outside
  and are handed in. `supersededByOrderLineId` is written and never read, and left out.

  * `saveCafe24OrderLine`, `importTurn` -- one row of a file, on both paths;
  * `importTransaction`, `importCafe24Csv` -- a whole import with its ways out;
  * `restoreCurrentCafe24OrderLines`, `refreshCafe24BatchIssueCounts` -- the two repairs.
-/
import AdsManagement.Lib.Chunks
import AdsManagement.Coupang.ProfitPipeline
import AdsManagement.Cafe24.Csv

namespace AdsManagement.Cafe24

open Common Lib Coupang

/-! ## 1. The matcher -/

/-- A rule as `matcherRules` reads it; its product is one that exists. -/
structure Cafe24RuleInput where
  id : String
  productId : String
  hasProduct : productId ≠ ""
  displayName : Option String
  productNumbers : List String
  productNameAliases : List String
  optionIncludeKeywords : List String
  optionExcludeKeywords : List String
  priority : Int
  validFrom : Option String
  validTo : Option String
  isActive : Bool

/-- `toLowerCase` and `localeCompare`, which follow Unicode tables. -/
structure TextLocale where
  toLowerCase : String → String
  localeCompare : String → String → Int

inductive Cafe24MatchReason where
  | MATCHED
  | NO_MATCH
  | AMBIGUOUS_MATCH
deriving DecidableEq

structure Cafe24MatchResult where
  productId : Option String
  matchRuleId : Option String
  reason : Cafe24MatchReason
  candidates : List String

/-- What the matcher reads of a row. -/
structure Cafe24MatchInput where
  productNo : String
  productName : String
  optionName : String
  orderDate : Option Int

section Matcher

variable (text : TextLocale)

def normalizeCafe24Text (value : String) : String :=
  text.toLowerCase (String.ofList (value.toList.filter fun c => !isJsSpace c))

/-- `normalizeProductNo` is the normal form the parser already uses. -/
def normalizeProductNo (value : String) : String := normalizeCafe24ProductNoText value

def uniqueNormalized (values : List String) (normalize : String → String) : List String :=
  ((values.map normalize).filter (· != "")).eraseDups

def containsText (value part : String) : Bool := includesText value.toList part

def matchesRule (row : Cafe24MatchInput) (rule : Cafe24RuleInput) : Bool :=
  let productName := normalizeCafe24Text text row.productName
  let optionName := normalizeCafe24Text text row.optionName
  let productNumbers := uniqueNormalized rule.productNumbers normalizeProductNo
  let aliases := uniqueNormalized rule.productNameAliases (normalizeCafe24Text text)
  let includeKeywords := uniqueNormalized rule.optionIncludeKeywords (normalizeCafe24Text text)
  let excludeKeywords := uniqueNormalized rule.optionExcludeKeywords (normalizeCafe24Text text)
  if productNumbers ≠ [] ∧ !productNumbers.contains (normalizeProductNo row.productNo) then false
  else if aliases ≠ [] ∧ aliases.all (fun part =>
      !containsText productName part && !containsText optionName part) then false
  else if includeKeywords ≠ [] ∧ includeKeywords.any (fun keyword => !containsText optionName keyword)
    then false
  else !excludeKeywords.any fun keyword => containsText optionName keyword

def dateKeyOrNull (value : Option String) : Option String :=
  (value.filter (· != "")).map fun s => String.ofList (s.toList.take 10)

def isRuleEffective (rule : Cafe24RuleInput) (orderDate : Option Int) : Bool :=
  match orderDate with
  | none => true
  | some date =>
    ((dateKeyOrNull rule.validFrom).all fun validFrom => validFrom ≤ formatDateOnly date) &&
      (dateKeyOrNull rule.validTo).all fun validTo => formatDateOnly date ≤ validTo

def ruleLabel (rule : Cafe24RuleInput) : String :=
  (orText (rule.displayName.map trim) (some rule.id)).getD ""

/-- `a.priority - b.priority || ruleLabel(a).localeCompare(ruleLabel(b))`. -/
def compareRules (a b : Cafe24RuleInput) : Int :=
  if a.priority - b.priority ≠ 0 then a.priority - b.priority
  else text.localeCompare (ruleLabel a) (ruleLabel b)

/-- `Cafe24ProductMatcher.match`. -/
def matchLine (rules : List Cafe24RuleInput) (row : Cafe24MatchInput) : Cafe24MatchResult :=
  let orderedRules := ((rules.filter (·.isActive)).filter fun rule =>
    isRuleEffective rule row.orderDate).insertionSort fun a b => compareRules text a b ≤ 0
  match orderedRules.filter (matchesRule text row) with
  | [] => ⟨none, none, .NO_MATCH, []⟩
  | [rule] => ⟨some rule.productId, some rule.id, .MATCHED, [ruleLabel rule]⟩
  | found => ⟨none, none, .AMBIGUOUS_MATCH, found.map ruleLabel⟩

end Matcher

/-! ## 2. Batches, lines and row errors -/

structure Cafe24UploadBatch where
  id : Nat
  fileHashSha256 : String
  originalFileHashSha256 : String
  orderStart : Option Int
  orderEnd : Option Int
  rowCount : Nat
  validRowCount : Nat
  warningCount : Nat
  errorCount : Nat
  conflictPolicy : ConflictPolicy
  status : UploadStatus
  uploadedAt : Nat
  importedAt : Option Nat

/-- The columns of an order line: those of its row, and the product they name. -/
structure Cafe24LineData extends ParsedCafe24OrderRow where
  productId : Option String
  cafe24ProductRuleId : Option String
  matchSource : MatchSource

abbrev Cafe24OrderLine := StoredRow Cafe24LineData

structure Cafe24UploadRowError extends IssueColumns where
  uploadBatchId : Nat
  orderLineId : Option Nat
  rowNumber : Option Nat

structure Cafe24Store where
  batches : List Cafe24UploadBatch
  lines : List Cafe24OrderLine
  rowErrors : List Cafe24UploadRowError

/-- `count({ where: { uploadBatchId } })`. -/
def storedRowCount (lines : List Cafe24OrderLine) (batchId : Nat) : Nat :=
  lines.countP fun line => line.uploadBatchId = batchId

def isCompleteCafe24UploadBatch (rowCount storedRowCount : Nat) : Bool := storedRowCount ≥ rowCount

def isUsableCafe24UploadBatch (status : UploadStatus) (rowCount storedRowCount : Nat) : Bool :=
  (status = .IMPORTED || status = .PARTIAL) && isCompleteCafe24UploadBatch rowCount storedRowCount

/-- The batch of a line, and whether it is usable. -/
def usableBatch (store : Cafe24Store) (batchId : Nat) : Bool :=
  (store.batches.find? fun batch => batch.id = batchId).any fun batch =>
    isUsableCafe24UploadBatch batch.status batch.rowCount (storedRowCount store.lines batchId)

def updateBatch (batchId : Nat) (change : Cafe24UploadBatch → Cafe24UploadBatch)
    (batches : List Cafe24UploadBatch) : List Cafe24UploadBatch :=
  batches.map fun batch => if batch.id = batchId then change batch else batch

/-! ## 3. One row of a file -/

structure Cafe24LineImportDecision where
  importVersion : Nat
  isCurrent : Bool
  supersedeExisting : Bool
  skippedDuplicate : Bool

def resolveCafe24LineImportDecision (conflictPolicy : ConflictPolicy) (existingCurrent : Option Nat) :
    Cafe24LineImportDecision :=
  match existingCurrent with
  | none => ⟨1, true, false, false⟩
  | some version =>
    match conflictPolicy with
    | .SKIP => ⟨version, false, false, true⟩
    | .NEW_VERSION => ⟨version + 1, true, true, false⟩
    | .OVERWRITE => ⟨version, true, true, false⟩

def resolveCafe24LineStoredState (validationStatus : RowValidationStatus)
    (decision : Cafe24LineImportDecision) : Cafe24LineImportDecision :=
  if validationStatus = .ERROR then { decision with isCurrent := false, supersedeExisting := false }
  else decision

def warning (errorCode message : String) (rawValue : Option String) : RowIssue where
  columnName := none
  severity := .WARNING
  errorCode := errorCode
  message := message
  rawValue := rawValue
  candidates := none

def duplicateKeyWarning (orderLineKey : String) : RowIssue :=
  warning "DUPLICATE_ORDER_LINE_KEY"
    ("Duplicate Cafe24 order line key in this upload: " ++ orderLineKey) (some orderLineKey)

def alreadyCurrentWarning (orderLineKey : String) : RowIssue :=
  warning "CAFE24_ORDER_LINE_ALREADY_CURRENT"
    "Cafe24 order line already has a current version; this imported row was kept as non-current."
    (some orderLineKey)

/-- The warnings of a match, which import and rematch write alike. -/
def matchWarnings (result : Cafe24MatchResult) : List RowIssue :=
  match result.reason with
  | .MATCHED => []
  | .AMBIGUOUS_MATCH =>
    [warning "CAFE24_PRODUCT_AMBIGUOUS" "Cafe24 order line matched more than one active rule."
      (some (String.intercalate ", " result.candidates))]
  | .NO_MATCH =>
    [warning "CAFE24_PRODUCT_UNMATCHED" "Cafe24 order line did not match any active product rule." none]

/-- A row of the file before it is saved. -/
structure PreparedRow where
  rowNumber : Nat
  sourceRowHash : String
  orderLineKey : String
  rawRow : RawRow
  parsedRow : Option ParsedCafe24OrderRow
  matched : Option Cafe24MatchResult
  issues : List RowIssue
  warnings : List RowIssue
  productId : Option String
  cafe24ProductRuleId : Option String
  matchSource : MatchSource
  validationStatus : RowValidationStatus

def rowStatus (issues warnings : List RowIssue) (productId : Option String) : RowValidationStatus :=
  if issues.length > 0 then .ERROR
  else if isTruthy productId then (if warnings.length > 0 then .WARNING else .VALID)
  else if warnings.any (fun issue => issue.errorCode = "CAFE24_PRODUCT_AMBIGUOUS") then .WARNING
  else .UNMATCHED

def prepareRow (text : TextLocale) (hash : RecordHash) (rules : List Cafe24RuleInput)
    (duplicateKeys : List String) (rowNumber : Nat) (rawRow : RawRow) : PreparedRow :=
  let parsed := parseRow rawRow
  let issues := parsed.issues.map fun issue => rowIssue issue .ERROR
  let orderLineKey := effectiveCafe24OrderLineKey parsed.parsedRow rawRow
  let result := parsed.parsedRow.map fun row =>
    matchLine text rules ⟨row.productNo, row.productName, row.optionName, row.orderDate⟩
  let warnings :=
    (if duplicateKeys.contains orderLineKey then [duplicateKeyWarning orderLineKey] else []) ++
      (result.map matchWarnings).getD []
  let matched := result.filter fun r => r.reason = .MATCHED
  let productId := matched.bind (·.productId)
  { rowNumber
    sourceRowHash := hash.hash (.cells (sanitizeCafe24RawRow rawRow))
    orderLineKey
    rawRow
    parsedRow := parsed.parsedRow
    matched := result
    issues
    warnings
    productId
    cafe24ProductRuleId := matched.bind (·.matchRuleId)
    matchSource := if matched.isSome then .RULE else .UNMATCHED
    validationStatus := rowStatus issues warnings productId }

def lineData (row : PreparedRow) : Cafe24LineData :=
  let parsed := row.parsedRow
  { orderNo := (parsed.map (·.orderNo)).getD (rawString row.rawRow .orderNo)
    lineOrderNo := (parsed.map (·.lineOrderNo)).getD (rawString row.rawRow .lineOrderNo)
    productNo := (parsed.map (·.productNo)).getD (rawString row.rawRow .productNo)
    productName := (parsed.map (·.productName)).getD (rawString row.rawRow .productName)
    optionName := (parsed.map (·.optionName)).getD (rawString row.rawRow .optionName)
    quantity := (parsed.map (·.quantity)).getD 0
    salePriceKrw := (parsed.map (·.salePriceKrw)).getD 0
    totalOrderKrw := parsed.bind (·.totalOrderKrw)
    totalPaidKrw := (parsed.map (·.totalPaidKrw)).getD 0
    paymentMethod := (parsed.bind (·.paymentMethod)).orElse fun _ =>
      textValue (some (rawString (sanitizeCafe24RawRow row.rawRow) .paymentMethod))
    orderedAt := parsed.bind (·.orderedAt)
    orderDate := parsed.bind (·.orderDate)
    productId := row.productId
    cafe24ProductRuleId := row.cafe24ProductRuleId
    matchSource := row.matchSource }

/-- The current lines of a key, newest first. -/
def existingCurrentLines (key : String) (lines : List Cafe24OrderLine) : List Cafe24OrderLine :=
  ((ofKey key lines).filter (·.isCurrent)).insertionSort fun a b => versionRank b ≤ versionRank a

/-- What saving a row makes of it. -/
structure SavedLine where
  line : Cafe24OrderLine
  policyWarnings : List RowIssue
  demotedIds : List Nat

/-- `saveCafe24OrderLine`, without its writes. On the bulk path no current line is looked up. -/
def saveCafe24OrderLine (conflictPolicy : ConflictPolicy) (batchId : Nat) (bulk : Bool)
    (lines : List Cafe24OrderLine) (stamp : Stamp) (row : PreparedRow) : SavedLine :=
  let existing := if bulk then [] else existingCurrentLines row.orderLineKey lines
  let decision := resolveCafe24LineImportDecision conflictPolicy (existing.head?.map (·.importVersion))
  let storedState := resolveCafe24LineStoredState row.validationStatus decision
  let policyWarnings :=
    if decision.skippedDuplicate then [alreadyCurrentWarning row.orderLineKey] else []
  { line :=
      { id := stamp.id
        uploadBatchId := batchId
        rowNumber := row.rowNumber
        sourceRowHash := row.sourceRowHash
        logicalKey := row.orderLineKey
        validationStatus :=
          if policyWarnings.length > 0 ∧ row.validationStatus = .VALID then .WARNING
          else row.validationStatus
        validationErrors := row.issues ++ row.warnings ++ policyWarnings
        importVersion := storedState.importVersion
        isCurrent := storedState.isCurrent
        createdAt := stamp.createdAt
        data := lineData row }
    policyWarnings
    demotedIds := if storedState.supersedeExisting then existing.map (·.id) else [] }

def rowErrorOf (batchId : Nat) (orderLineId rowNumber : Nat) (issue : RowIssue) : Cafe24UploadRowError where
  uploadBatchId := batchId
  orderLineId := some orderLineId
  rowNumber := some rowNumber
  toIssueColumns := issue.toIssueColumns

/-! ## 4. The transaction of an import -/

structure ImportCounters where
  validRowCount : Nat
  warningCount : Nat
  errorCount : Nat
  matchedCount : Nat
  unmatchedCount : Nat
  ambiguousCount : Nat
  orderStart : Option Int
  orderEnd : Option Int

def minDate (current : Option Int) (next : Int) : Option Int :=
  match current with
  | some date => some (if date < next then date else next)
  | none => some next

def maxDate (current : Option Int) (next : Int) : Option Int :=
  match current with
  | some date => some (if date > next then date else next)
  | none => some next

/-- The tables, the rows and errors kept back for the bulk insert, and the counters. -/
structure ImportLoop where
  lines : List Cafe24OrderLine
  rowErrors : List Cafe24UploadRowError
  newLines : Option (List Cafe24OrderLine)
  newErrors : List Cafe24UploadRowError
  counters : ImportCounters

def countRow (counters : ImportCounters) (row : PreparedRow) (policyWarnings : List RowIssue) :
    ImportCounters :=
  let reason := row.matched.map (·.reason)
  let date := row.parsedRow.bind (·.orderDate)
  { validRowCount := if row.issues.length > 0 then counters.validRowCount else counters.validRowCount + 1
    warningCount := counters.warningCount + row.warnings.length + policyWarnings.length
    errorCount := if row.issues.length > 0 then counters.errorCount + 1 else counters.errorCount
    matchedCount := counters.matchedCount + if reason = some .MATCHED then 1 else 0
    unmatchedCount := counters.unmatchedCount + if reason = some .NO_MATCH then 1 else 0
    ambiguousCount := counters.ambiguousCount + if reason = some .AMBIGUOUS_MATCH then 1 else 0
    orderStart := (date.map (minDate counters.orderStart)).getD counters.orderStart
    orderEnd := (date.map (maxDate counters.orderEnd)).getD counters.orderEnd }

/-- One turn of the loop over the rows. -/
def importTurn (conflictPolicy : ConflictPolicy) (batchId : Nat) (state : ImportLoop)
    (entry : Stamp × PreparedRow) : ImportLoop :=
  let saved := saveCafe24OrderLine conflictPolicy batchId state.newLines.isSome state.lines entry.1 entry.2
  let errors := (entry.2.issues ++ entry.2.warnings ++ saved.policyWarnings).map
    (rowErrorOf batchId saved.line.id entry.2.rowNumber)
  let counters := countRow state.counters entry.2 saved.policyWarnings
  match state.newLines with
  | some newLines =>
    { state with newLines := some (newLines ++ [saved.line]), newErrors := state.newErrors ++ errors,
                 counters }
  | none =>
    { state with lines := clearCurrent saved.demotedIds state.lines ++ [saved.line],
                 rowErrors := state.rowErrors ++ errors, counters }

/-- `createMany` for one chunk of the data after the other. -/
def createManyInChunks {α : Type} (size : Nat) (table data : List α) : List α :=
  (chunks size data).foldl (fun table chunk => table ++ chunk) table

/-- `duplicatedValues`. -/
def duplicatedValues (values : List String) : List String :=
  (values.foldl (fun (acc : List String × List String) value =>
    (acc.1 ++ [value], if acc.1.contains value then acc.2 ++ [value] else acc.2)) ([], [])).2.eraseDups

structure Cafe24File where
  hash : String
  headers : List String
  rows : List RawRow

/-- The rows of the file, ready to be saved. -/
def preparedRows (text : TextLocale) (hash : RecordHash) (rules : List Cafe24RuleInput)
    (rows : List RawRow) : List PreparedRow :=
  let keys := rows.map fun rawRow => effectiveCafe24OrderLineKey (parseRow rawRow).parsedRow rawRow
  rows.zipIdx.map fun row => prepareRow text hash rules (duplicatedValues keys) (row.2 + 2) row.1

/-- The bulk insert is chosen when no key repeats in the file and none has a current line. -/
def choosesBulk (lines : List Cafe24OrderLine) (rows : List PreparedRow) : Bool :=
  let keys := rows.map (·.orderLineKey)
  (duplicatedValues keys).isEmpty &&
    (lines.countP fun line => keys.contains line.logicalKey && line.isCurrent) == 0

/-- What the loop starts with. -/
def importStart (bulk : Bool) (warningCount : Nat) (lines : List Cafe24OrderLine)
    (rowErrors : List Cafe24UploadRowError) : ImportLoop where
  lines
  rowErrors
  newLines := if bulk then some [] else none
  newErrors := []
  counters := ⟨0, warningCount, 0, 0, 0, 0, none, none⟩

/-- The loop and the inserts after it. -/
def importLoop (conflictPolicy : ConflictPolicy) (batchId : Nat) (bulk : Bool) (warningCount : Nat)
    (entries : List (Stamp × PreparedRow)) (lines : List Cafe24OrderLine)
    (rowErrors : List Cafe24UploadRowError) : ImportLoop :=
  let state := entries.foldl (importTurn conflictPolicy batchId)
    (importStart bulk warningCount lines rowErrors)
  match state.newLines with
  | some newLines =>
    { state with lines := createManyInChunks 100 state.lines newLines,
                 rowErrors := createManyInChunks 100 state.rowErrors state.newErrors }
  | none => state

def importStatus (counters : ImportCounters) : UploadStatus :=
  if counters.errorCount > 0 ∧ counters.validRowCount > 0 then .PARTIAL
  else if counters.errorCount > 0 then .FAILED
  else .IMPORTED

/-- The batch with the counters of the loop. -/
def countedBatch (now : Nat) (counters : ImportCounters) (batch : Cafe24UploadBatch) : Cafe24UploadBatch :=
  { batch with
    status := importStatus counters
    validRowCount := counters.validRowCount
    warningCount := counters.warningCount
    errorCount := counters.errorCount
    orderStart := counters.orderStart
    orderEnd := counters.orderEnd
    importedAt := if counters.validRowCount > 0 then some now else none }

/-- The transaction: the rows are saved on one of the two paths, and the batch takes the
    counters. -/
def importOnPath (bulk : Bool) (conflictPolicy : ConflictPolicy) (batchId now : Nat)
    (warningCount : Nat) (entries : List (Stamp × PreparedRow)) (store : Cafe24Store) :
    Cafe24Store × ImportCounters :=
  let final := importLoop conflictPolicy batchId bulk warningCount entries store.lines store.rowErrors
  let counters := final.counters
  ({ batches := updateBatch batchId (countedBatch now counters) store.batches
     lines := final.lines
     rowErrors := final.rowErrors }, counters)

/-- The transaction on the path the store and the file choose. -/
def importTransaction (conflictPolicy : ConflictPolicy) (batchId now : Nat) (warningCount : Nat)
    (entries : List (Stamp × PreparedRow)) (store : Cafe24Store) : Cafe24Store × ImportCounters :=
  importOnPath (choosesBulk store.lines (entries.map (·.2))) conflictPolicy batchId now warningCount
    entries store

/-! ## 5. Re-election and recounting -/

/-- `orderBy: [importVersion desc, createdAt desc, id desc]`. -/
def lineRank (line : Cafe24OrderLine) : Nat ×ₗ Nat ×ₗ Nat :=
  toLex (line.importVersion, toLex (line.createdAt, line.id))

/-- The first usable candidate of each key of a chunk: `latestByKey`. -/
def latestByKey (usable : Nat → Bool) (keys : List String) (lines : List Cafe24OrderLine) :
    List (String × Nat) :=
  let candidates := (lines.filter fun line => keys.contains line.logicalKey && line.accepted).insertionSort
    fun a b => lineRank b ≤ lineRank a
  candidates.foldl (fun latest candidate =>
    if (latest.map (·.1)).contains candidate.logicalKey then latest
    else if usable candidate.uploadBatchId then latest ++ [(candidate.logicalKey, candidate.id)]
    else latest) []

/-- One chunk of `restoreCurrentCafe24OrderLines`. -/
def restoreChunk (batches : List Cafe24UploadBatch) (lines : List Cafe24OrderLine)
    (keyChunk : List String) : List Cafe24OrderLine :=
  let cleared := lines.map fun line => if keyChunk.contains line.logicalKey then line.clear else line
  let latest := latestByKey (usableBatch ⟨batches, cleared, []⟩) keyChunk cleared
  cleared.map fun line =>
    if (latest.map (·.2)).contains line.id then { line with isCurrent := true } else line

def restoreCurrentCafe24OrderLines (orderLineKeys : List String) (store : Cafe24Store) : Cafe24Store :=
  let keys := uniqueNonEmpty (orderLineKeys.map some)
  { store with lines := (chunks 500 keys).foldl (restoreChunk store.batches) store.lines }

def demoteIncompleteCafe24CurrentLines (batchId : Nat) (store : Cafe24Store) : Cafe24Store :=
  let currentKeys := uniqueNonEmpty ((store.lines.filter fun line =>
    line.uploadBatchId = batchId && line.isCurrent).map fun line => some line.logicalKey)
  if currentKeys.length = 0 then store else restoreCurrentCafe24OrderLines currentKeys store

def minOf (dates : List Int) : Option Int := dates.foldl minDate none

def maxOf (dates : List Int) : Option Int := dates.foldl maxDate none

/-- What `refreshCafe24BatchIssueCounts` makes of a batch. -/
def refreshedBatch (now : Nat) (store : Cafe24Store) (batch : Cafe24UploadBatch) : Cafe24UploadBatch :=
  let ofBatch := store.lines.filter fun line => line.uploadBatchId = batch.id
  let errors := store.rowErrors.filter fun error => error.uploadBatchId = batch.id
  let warningCount := errors.countP fun error => error.severity = .WARNING
  let errorCount := errors.countP fun error => error.severity = .ERROR
  let validRowCount := ofBatch.countP (·.accepted)
  let orderDates := ofBatch.filterMap (·.data.orderDate)
  let isComplete := isCompleteCafe24UploadBatch batch.rowCount ofBatch.length
  { batch with
    status :=
      if !isComplete ∧ ofBatch.length > 0 then .PARTIAL
      else if !isComplete then .FAILED
      else if errorCount > 0 ∧ validRowCount > 0 then .PARTIAL
      else if errorCount > 0 then .FAILED
      else .IMPORTED
    validRowCount
    warningCount
    errorCount
    orderStart := minOf orderDates
    orderEnd := maxOf orderDates
    importedAt := if validRowCount > 0 ∧ isComplete then some (batch.importedAt.getD now) else none }

def refreshBatch (now : Nat) (store : Cafe24Store) (batchId : Nat) : Cafe24Store :=
  match store.batches.find? fun batch => batch.id = batchId with
  | none => store
  | some batch =>
    let refreshed := { store with
      batches := updateBatch batchId (fun _ => refreshedBatch now store batch) store.batches }
    if isCompleteCafe24UploadBatch batch.rowCount (storedRowCount store.lines batchId) then refreshed
    else demoteIncompleteCafe24CurrentLines batchId refreshed

def refreshCafe24BatchIssueCounts (now : Nat) (batchIds : List Nat) (store : Cafe24Store) : Cafe24Store :=
  batchIds.foldl (refreshBatch now) store

/-! ## 6. The operations -/

/-- What an import is given from outside. `rateFailure` is the message when the exchange rates
    could not be prepared, `rowFailure` the row and message when the transaction is undone, on
    whichever path (`refusedInsert` says which they are for a refused insert). -/
structure ImportEnv where
  text : TextLocale
  hash : RecordHash
  batchId : Nat
  newHash : String
  now : Nat
  stamps : List Stamp
  rateFailure : Option String
  rowFailure : Option (Option Nat × String)

def resolveCafe24ImportConflictPolicy (conflictPolicy : ConflictPolicy) (duplicatedIsIncomplete : Bool) :
    ConflictPolicy :=
  if duplicatedIsIncomplete && conflictPolicy = .SKIP then .OVERWRITE else conflictPolicy

/-- `findReusableCafe24Duplicate`. -/
def findReusableCafe24Duplicate (fileHash : String) (store : Cafe24Store) : Option Cafe24UploadBatch :=
  ((store.batches.filter fun batch => (batch.status = .IMPORTED || batch.status = .PARTIAL) &&
      (batch.fileHashSha256 = fileHash || batch.originalFileHashSha256 = fileHash)).insertionSort
    fun a b => b.uploadedAt ≤ a.uploadedAt).find? fun batch =>
      isCompleteCafe24UploadBatch batch.rowCount (storedRowCount store.lines batch.id)

/-- The batch of an earlier upload with the same hash, when its rows are not all stored. -/
def duplicatedIncomplete (fileHash : String) (store : Cafe24Store) : Option Cafe24UploadBatch :=
  (store.batches.find? fun batch => batch.fileHashSha256 = fileHash).filter fun batch =>
    !isCompleteCafe24UploadBatch batch.rowCount (storedRowCount store.lines batch.id)

def newBatch (env : ImportEnv) (conflictPolicy : ConflictPolicy) (file : Cafe24File)
    (store : Cafe24Store) : Cafe24UploadBatch where
  id := env.batchId
  fileHashSha256 :=
    if (store.batches.find? fun batch => batch.fileHashSha256 = file.hash).isSome then env.newHash
    else file.hash
  originalFileHashSha256 := file.hash
  orderStart := none
  orderEnd := none
  rowCount := file.rows.length
  validRowCount := 0
  warningCount := 0
  errorCount := 0
  conflictPolicy := conflictPolicy
  status := .VALIDATING
  uploadedAt := env.now
  importedAt := none

def batchError (batchId : Nat) (rowNumber : Option Nat) (columnName : Option String)
    (severity : Severity) (errorCode message : String) : Cafe24UploadRowError where
  uploadBatchId := batchId
  orderLineId := none
  rowNumber := rowNumber
  columnName := columnName
  severity := severity
  errorCode := errorCode
  message := message
  rawValue := none

/-- The way out when columns are missing. -/
def rejectHeaders (batchId : Nat) (missing : List String) (store : Cafe24Store) : Cafe24Store :=
  { store with
    batches := updateBatch batchId
      (fun batch => { batch with status := .FAILED, errorCount := missing.length }) store.batches
    rowErrors := store.rowErrors ++ missing.map fun columnName =>
      batchError batchId none (some columnName) .ERROR "MISSING_REQUIRED_COLUMN"
        ("Required Cafe24 column is missing: " ++ columnName) }

/-- The way out when the transaction is undone: `markCafe24ImportFailed`. -/
def markCafe24ImportFailed (batchId : Nat) (rowNumber : Option Nat) (message : String)
    (store : Cafe24Store) : Cafe24Store :=
  let rowErrors := store.rowErrors ++
    [batchError batchId rowNumber none .ERROR "CAFE24_IMPORT_FAILED" message]
  let errors := rowErrors.filter fun error => error.uploadBatchId = batchId
  let validRowCount := (store.lines.filter fun line => line.uploadBatchId = batchId).countP (·.accepted)
  { store with
    batches := updateBatch batchId (fun batch =>
      { batch with
        status := if validRowCount > 0 then .PARTIAL else .FAILED
        validRowCount
        warningCount := errors.countP fun error => error.severity = .WARNING
        errorCount := errors.countP fun error => error.severity = .ERROR
        importedAt := none }) store.batches
    rowErrors }

/-- The rows of the file with the stamps of their insertion. -/
def importEntries (env : ImportEnv) (rules : List Cafe24RuleInput) (file : Cafe24File) :
    List (Stamp × PreparedRow) :=
  env.stamps.zip (preparedRows env.text env.hash rules file.rows)

/-- From the creation of the batch on. -/
def importAsNewBatch (env : ImportEnv) (rules : List Cafe24RuleInput) (conflictPolicy : ConflictPolicy)
    (file : Cafe24File) (store : Cafe24Store) : Cafe24Store :=
  let created := { store with batches := store.batches ++ [newBatch env conflictPolicy file store] }
  let missing := missingColumns file.headers
  if missing ≠ [] then rejectHeaders env.batchId missing created
  else
    let rated :=
      match env.rateFailure with
      | some message => { created with rowErrors := created.rowErrors ++
          [batchError env.batchId none none .WARNING "EXCHANGE_RATE_SYNC_FAILED" message] }
      | none => created
    match env.rowFailure with
    | some (rowNumber, message) => markCafe24ImportFailed env.batchId rowNumber message rated
    | none => (importTransaction conflictPolicy env.batchId env.now
        (if env.rateFailure.isSome then 1 else 0) (importEntries env rules file) rated).1

/-- The policy the rows are imported with. -/
def importConflictPolicy (conflictPolicy : ConflictPolicy) (file : Cafe24File) (store : Cafe24Store) :
    ConflictPolicy :=
  resolveCafe24ImportConflictPolicy conflictPolicy (duplicatedIncomplete file.hash store).isSome

/-- `importCafe24Csv`. -/
def importCafe24Csv (env : ImportEnv) (rules : List Cafe24RuleInput) (conflictPolicy : ConflictPolicy)
    (file : Cafe24File) (store : Cafe24Store) : Cafe24Store :=
  let reusable := if conflictPolicy = .SKIP then findReusableCafe24Duplicate file.hash store else none
  match reusable with
  | some batch =>
    if batch.importedAt.isNone then refreshCafe24BatchIssueCounts env.now [batch.id] store else store
  | none =>
    let incomplete := duplicatedIncomplete file.hash store
    let refreshed := refreshCafe24BatchIssueCounts env.now (incomplete.map (·.id)).toList store
    importAsNewBatch env rules (importConflictPolicy conflictPolicy file store) file refreshed

/-- `deleteUpload`; a batch that is not there is an error and changes nothing. -/
def deleteUpload (batchId : Nat) (store : Cafe24Store) : Cafe24Store :=
  if (store.batches.find? fun batch => batch.id = batchId).isNone then store
  else
    let deletingLines := store.lines.filter fun line => line.uploadBatchId = batchId
    let currentDeletedKeys := uniqueNonEmpty
      ((deletingLines.filter (·.isCurrent)).map fun line => some line.logicalKey)
    let remaining : Cafe24Store :=
      { store with lines := store.lines.filter fun line => line.uploadBatchId ≠ batchId
                   rowErrors := store.rowErrors.filter fun error => error.uploadBatchId ≠ batchId }
    let restored := restoreCurrentCafe24OrderLines currentDeletedKeys remaining
    { restored with batches := restored.batches.filter fun batch => batch.id ≠ batchId }

/-! ## 7. Rematching -/

/-- `completeCafe24BatchIds`. -/
def completeCafe24BatchIds (range : DateRange) (store : Cafe24Store) : List Nat :=
  ((store.batches.filter fun batch => (batch.status = .IMPORTED || batch.status = .PARTIAL) &&
      (batch.orderStart.isNone || batch.orderEnd.isNone ||
        (batch.orderStart.any (· ≤ range.toDate) && batch.orderEnd.any (range.fromDate ≤ ·)))).filter
    fun batch => isUsableCafe24UploadBatch batch.status batch.rowCount
      (storedRowCount store.lines batch.id)).map (·.id)

/-- `nonMatchIssues`; what the column holds is a list of issues already. -/
def nonMatchIssues (issues : List RowIssue) : List RowIssue :=
  issues.filter fun issue =>
    issue.errorCode ≠ "CAFE24_PRODUCT_UNMATCHED" && issue.errorCode ≠ "CAFE24_PRODUCT_AMBIGUOUS"

section

variable (text : TextLocale) (rules : List Cafe24RuleInput)

def lineMatch (line : Cafe24OrderLine) : Cafe24MatchResult :=
  matchLine text rules
    ⟨line.data.productNo, line.data.productName, line.data.optionName, line.data.orderDate⟩

/-- The update of a line by the line as it was read. -/
def writeRematch (line stored : Cafe24OrderLine) : Cafe24OrderLine :=
  let result := lineMatch text rules line
  let retainedIssues := nonMatchIssues line.validationErrors
  { stored with
    validationStatus :=
      match result.reason with
      | .MATCHED => if retainedIssues.length > 0 then .WARNING else .VALID
      | .AMBIGUOUS_MATCH => .WARNING
      | .NO_MATCH => .UNMATCHED
    validationErrors := retainedIssues ++ matchWarnings result
    data := { stored.data with
      productId := if result.reason = .MATCHED then result.productId else none
      cafe24ProductRuleId := if result.reason = .MATCHED then result.matchRuleId else none
      matchSource := if result.reason = .MATCHED then .RULE else .UNMATCHED } }

/-- The row errors of a line once it is matched again. -/
def rematchErrors
    (rowErrors : List Cafe24UploadRowError) (line : Cafe24OrderLine) : List Cafe24UploadRowError :=
  (rowErrors.filter fun error => !(error.orderLineId = some line.id &&
    (error.errorCode = "CAFE24_PRODUCT_UNMATCHED" || error.errorCode = "CAFE24_PRODUCT_AMBIGUOUS"))) ++
  (matchWarnings (lineMatch text rules line)).map (rowErrorOf line.uploadBatchId line.id line.rowNumber)

end

end AdsManagement.Cafe24
