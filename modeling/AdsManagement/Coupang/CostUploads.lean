/-
  File:      Coupang/CostUploads.lean
  Subject:   MARGIN AND PRICE-TEXT FILES: how a file writes cost rules, the JSON snapshots it
             stores with its upload, and the deletion that undoes it from them.

  Every row of a file writes under the file's one start day. A row knows its product by id:
  `upsert` of the product by its name comes before and writes no cost rule.

  * `upsertImportedCoupangCostRule`, `importCostFile` -- the file, row by row;
  * `rollbackImportedCoupangCostRules`, `deleteCostUpload` -- the deletion.
-/
import AdsManagement.Coupang.CostRules

namespace AdsManagement.Coupang

open Common Lib

/-! ## 1. Snapshots -/

/-- `CoupangCostRuleRollbackSnapshot`: the columns of a rule as texts. -/
structure CostSnapshot where
  salePriceKrw : String
  supplyPriceKrw : String
  productCostKrw : String
  salesFeeRate : String
  salesFeeKrw : String
  sellerShippingFeeKrw : Option String
  hanaroShippingFeeKrw : Option String
  growthInboundFeeKrw : String
  growthShippingFeeKrw : String
  returnRate : String
  returnCostPerUnitKrw : String
  extraCostKrw : String
  effectiveFrom : String
  effectiveTo : Option String
  note : Option String
deriving DecidableEq

def serializeCoupangCostRuleRollbackSnapshot (rule : CoupangCostRule) : CostSnapshot where
  salePriceKrw := rule.salePriceKrw.text
  supplyPriceKrw := rule.supplyPriceKrw.text
  productCostKrw := rule.productCostKrw.text
  salesFeeRate := rule.salesFeeRate.text
  salesFeeKrw := rule.salesFeeKrw.text
  sellerShippingFeeKrw := rule.sellerShippingFeeKrw.map (·.text)
  hanaroShippingFeeKrw := rule.hanaroShippingFeeKrw.map (·.text)
  growthInboundFeeKrw := rule.growthInboundFeeKrw.text
  growthShippingFeeKrw := rule.growthShippingFeeKrw.text
  returnRate := rule.returnRate.text
  returnCostPerUnitKrw := rule.returnCostPerUnitKrw.text
  extraCostKrw := rule.extraCostKrw.text
  effectiveFrom := formatDateOnly rule.effectiveFrom
  effectiveTo := rule.effectiveTo.map formatDateOnly
  note := rule.note

/-- `new Prisma.Decimal(text)`. -/
def decimalOf (s : Nat) (text : String) : Except ApiError (Scaled s) :=
  match readScaled s text with
  | some x => .ok x
  | none => .error { code := "DecimalError", message := "Invalid argument: " ++ text }

def nullableDecimalOf (s : Nat) (text : Option String) : Except ApiError (Option (Scaled s)) :=
  match text with
  | none => .ok none
  | some t => (decimalOf s t).map some

/-- `snapshot.effectiveTo ? requiredDateFromBody(snapshot.effectiveTo, "effectiveTo") : null`. -/
def snapshotEffectiveTo (snapshot : CostSnapshot) : Except ApiError (Option Int) :=
  if isTruthy snapshot.effectiveTo then
    (requiredDateFromBody (snapshot.effectiveTo.map .str) "effectiveTo").map some
  else .ok none

def deserializeCoupangCostRuleRollbackSnapshot (snapshot : CostSnapshot) : Except ApiError CostData := do
  let salePriceKrw ← decimalOf 2 snapshot.salePriceKrw
  let supplyPriceKrw ← decimalOf 2 snapshot.supplyPriceKrw
  let productCostKrw ← decimalOf 2 snapshot.productCostKrw
  let salesFeeRate ← decimalOf 6 snapshot.salesFeeRate
  let salesFeeKrw ← decimalOf 2 snapshot.salesFeeKrw
  let sellerShippingFeeKrw ← nullableDecimalOf 2 snapshot.sellerShippingFeeKrw
  let hanaroShippingFeeKrw ← nullableDecimalOf 2 snapshot.hanaroShippingFeeKrw
  let growthInboundFeeKrw ← decimalOf 2 snapshot.growthInboundFeeKrw
  let growthShippingFeeKrw ← decimalOf 2 snapshot.growthShippingFeeKrw
  let returnRate ← decimalOf 6 snapshot.returnRate
  let returnCostPerUnitKrw ← decimalOf 2 snapshot.returnCostPerUnitKrw
  let extraCostKrw ← decimalOf 2 snapshot.extraCostKrw
  let effectiveFrom ← requiredDateFromBody (some (.str snapshot.effectiveFrom)) "effectiveFrom"
  let effectiveTo ← snapshotEffectiveTo snapshot
  return { salePriceKrw := some salePriceKrw
           supplyPriceKrw := some supplyPriceKrw
           productCostKrw := some productCostKrw
           salesFeeRate := some salesFeeRate
           salesFeeKrw := some salesFeeKrw
           sellerShippingFeeKrw := some sellerShippingFeeKrw
           hanaroShippingFeeKrw := some hanaroShippingFeeKrw
           growthInboundFeeKrw := some growthInboundFeeKrw
           growthShippingFeeKrw := some growthShippingFeeKrw
           returnRate := some returnRate
           returnCostPerUnitKrw := some returnCostPerUnitKrw
           extraCostKrw := some extraCostKrw
           effectiveFrom := some effectiveFrom
           effectiveTo := some effectiveTo
           note := some snapshot.note }

/-- The two texts `JSON.stringify` makes are equal when all columns are: both objects list
    them in the same order. -/
def sameCoupangCostRuleRollbackSnapshot (rule : CoupangCostRule) (snapshot : CostSnapshot) : Bool :=
  serializeCoupangCostRuleRollbackSnapshot rule = snapshot

def nullableText : Option String → Json
  | none => .null
  | some s => .str s

/-- The snapshot as it is stored. The column sorts the keys its own way; they are only looked up
    by name. -/
def CostSnapshot.toJson (snapshot : CostSnapshot) : Json :=
  .obj
    [("salePriceKrw", .str snapshot.salePriceKrw), ("supplyPriceKrw", .str snapshot.supplyPriceKrw),
     ("productCostKrw", .str snapshot.productCostKrw), ("salesFeeRate", .str snapshot.salesFeeRate),
     ("salesFeeKrw", .str snapshot.salesFeeKrw),
     ("sellerShippingFeeKrw", nullableText snapshot.sellerShippingFeeKrw),
     ("hanaroShippingFeeKrw", nullableText snapshot.hanaroShippingFeeKrw),
     ("growthInboundFeeKrw", .str snapshot.growthInboundFeeKrw),
     ("growthShippingFeeKrw", .str snapshot.growthShippingFeeKrw),
     ("returnRate", .str snapshot.returnRate),
     ("returnCostPerUnitKrw", .str snapshot.returnCostPerUnitKrw),
     ("extraCostKrw", .str snapshot.extraCostKrw), ("effectiveFrom", .str snapshot.effectiveFrom),
     ("effectiveTo", nullableText snapshot.effectiveTo), ("note", nullableText snapshot.note)]

/-- `isFiniteDecimalText`, for texts in plain notation: the text itself. -/
def finiteDecimalText : Option Json → Option String
  | some (.str s) => if trim s ≠ "" && (readDecimal s.toList).isSome then some s else none
  | _ => none

def nullableFiniteDecimalText : Option Json → Option (Option String)
  | some .null => some none
  | value => (finiteDecimalText value).map some

/-- `isStrictDateOnlyText`. -/
def strictDateOnlyText : Option Json → Option String
  | some (.str s) => if isIsoShape s && (toDateOnly (some s)).isSome then some s else none
  | _ => none

/-- `value === null || isStrictDateOnlyText(value)`. -/
def nullableStrictDateOnlyText : Option Json → Option (Option String)
  | some .null => some none
  | value => (strictDateOnlyText value).map some

/-- `value === null || typeof value === "string"`. -/
def nullableStringText : Option Json → Option (Option String)
  | some .null => some none
  | some (.str s) => some (some s)
  | _ => none

def parseCoupangCostRuleRollbackSnapshot : Option Json → Option CostSnapshot
  | some (.obj value) => do
    let salePriceKrw ← finiteDecimalText (Body.get value "salePriceKrw")
    let supplyPriceKrw ← finiteDecimalText (Body.get value "supplyPriceKrw")
    let productCostKrw ← finiteDecimalText (Body.get value "productCostKrw")
    let salesFeeRate ← finiteDecimalText (Body.get value "salesFeeRate")
    let salesFeeKrw ← finiteDecimalText (Body.get value "salesFeeKrw")
    let growthInboundFeeKrw ← finiteDecimalText (Body.get value "growthInboundFeeKrw")
    let growthShippingFeeKrw ← finiteDecimalText (Body.get value "growthShippingFeeKrw")
    let returnRate ← finiteDecimalText (Body.get value "returnRate")
    let returnCostPerUnitKrw ← finiteDecimalText (Body.get value "returnCostPerUnitKrw")
    let extraCostKrw ← finiteDecimalText (Body.get value "extraCostKrw")
    let sellerShippingFeeKrw ← nullableFiniteDecimalText (Body.get value "sellerShippingFeeKrw")
    let hanaroShippingFeeKrw ← nullableFiniteDecimalText (Body.get value "hanaroShippingFeeKrw")
    let effectiveFrom ← strictDateOnlyText (Body.get value "effectiveFrom")
    let effectiveTo ← nullableStrictDateOnlyText (Body.get value "effectiveTo")
    let note ← nullableStringText (Body.get value "note")
    return { salePriceKrw, supplyPriceKrw, productCostKrw, salesFeeRate, salesFeeKrw,
             sellerShippingFeeKrw, hanaroShippingFeeKrw, growthInboundFeeKrw, growthShippingFeeKrw,
             returnRate, returnCostPerUnitKrw, extraCostKrw, effectiveFrom, effectiveTo, note }
  | _ => none

/-! ## 2. Applied rows -/

inductive CostRuleOperation where
  | CREATED
  | UPDATED_SAME_DATE
deriving DecidableEq

def CostRuleOperation.text : CostRuleOperation → String
  | CREATED => "CREATED"
  | UPDATED_SAME_DATE => "UPDATED_SAME_DATE"

/-- What an upload keeps of a row it has applied. -/
structure AppliedRow where
  rowNumber : Nat
  itemName : String
  standardName : String
  productId : String
  costRuleId : String
  salePriceKrw : ℚ
  costRuleOperation : CostRuleOperation
  costRuleBefore : Option CostSnapshot
  costRuleAfter : CostSnapshot

def AppliedRow.toJson (row : AppliedRow) : Json :=
  .obj
    [("rowNumber", .num row.rowNumber), ("itemName", .str row.itemName),
     ("standardName", .str row.standardName), ("productId", .str row.productId),
     ("costRuleId", .str row.costRuleId), ("salePriceKrw", .num row.salePriceKrw),
     ("costRuleOperation", .str row.costRuleOperation.text),
     ("costRuleBefore", match row.costRuleBefore with
       | none => .null
       | some snapshot => snapshot.toJson),
     ("costRuleAfter", row.costRuleAfter.toJson)]

def missingCoupangUploadRollbackProvenance : ApiError :=
  { code := "COUPANG_UPLOAD_ROLLBACK_PROVENANCE_MISSING"
    message := "This upload has incomplete cost-rule rollback provenance, so its effects cannot be deleted safely." }

def costRuleOperationOf : Option Json → Option CostRuleOperation
  | some (.str s) =>
    if s = "CREATED" then some .CREATED
    else if s = "UPDATED_SAME_DATE" then some .UPDATED_SAME_DATE else none
  | _ => none

/-- `Number(value) || 0`. -/
def numberOrZero (value : Option Json) : ℚ := (value.bind jsNumber).getD 0

/-- `typeof value === "string" ? value : ""`. -/
def textOrEmpty : Option Json → String
  | some (.str s) => s
  | _ => ""

def isNullJson : Option Json → Bool
  | some .null => true
  | _ => false

/-- One row of `rollbackAppliedRows`. -/
def rollbackAppliedRow : Json → Except ApiError AppliedRow
  | .obj item =>
    let productId := trimmedText (Body.get item "productId")
    let costRuleId := trimmedText (Body.get item "costRuleId")
    let before := parseCoupangCostRuleRollbackSnapshot (Body.get item "costRuleBefore")
    match costRuleOperationOf (Body.get item "costRuleOperation"),
        parseCoupangCostRuleRollbackSnapshot (Body.get item "costRuleAfter") with
    | some operation, some after =>
      if productId = "" ∨ costRuleId = "" ∨ (operation = .UPDATED_SAME_DATE ∧ before = none) ∨
          (operation = .CREATED ∧ isNullJson (Body.get item "costRuleBefore") = false) then
        .error missingCoupangUploadRollbackProvenance
      else
        .ok { rowNumber := ⌊numberOrZero (Body.get item "rowNumber")⌋.toNat
              itemName := textOrEmpty (Body.get item "itemName")
              standardName := textOrEmpty (Body.get item "standardName")
              productId
              costRuleId
              salePriceKrw := numberOrZero (Body.get item "salePriceKrw")
              costRuleOperation := operation
              costRuleBefore := before
              costRuleAfter := after }
    | _, _ => .error missingCoupangUploadRollbackProvenance
  | _ => .error missingCoupangUploadRollbackProvenance

/-- `priceTextAppliedRows` and `marginAppliedRows`: the same reading. -/
def rollbackAppliedRows (value : Json) (expectedRowCount : Nat) : Except ApiError (List AppliedRow) :=
  match value with
  | .obj fields =>
    match Body.get fields "appliedRows" with
    | some (.arr items) =>
      if items.length ≠ expectedRowCount then .error missingCoupangUploadRollbackProvenance
      else items.mapM rollbackAppliedRow
    | _ => .error missingCoupangUploadRollbackProvenance
  | _ => .error missingCoupangUploadRollbackProvenance

/-! ## 3. Files -/

structure ParsedCoupangMarginRow where
  itemName : String
  salePriceKrw : ℚ
  supplyPriceKrw : ℚ
  productCostKrw : ℚ
  sellerShippingFeeKrw : Option ℚ
  hanaroShippingFeeKrw : Option ℚ
  growthInboundFeeKrw : ℚ
  growthShippingFeeKrw : ℚ
  returnRate : ℚ
  returnCostPerUnitKrw : ℚ

structure ParsedCoupangPriceTextRow where
  itemName : String
  salePriceKrw : ℚ
deriving DecidableEq

/-- A parsed row. A price line may name, in its older spelling, a product whose latest rule
    serves when its own product has none. -/
inductive CostFileRow where
  | margin (row : ParsedCoupangMarginRow)
  | priceText (row : ParsedCoupangPriceTextRow) (legacyProductId : Option String)

def CostFileRow.itemName : CostFileRow → String
  | margin row => row.itemName
  | priceText row _ => row.itemName

def CostFileRow.salePriceKrw : CostFileRow → ℚ
  | margin row => row.salePriceKrw
  | priceText row _ => row.salePriceKrw

/-- `decimal(value)` in a money column. -/
def decimal (value : ℚ) : Krw := Scaled.ofRat 2 value

def buildCoupangPriceTextCostRuleData (salePriceKrw : ℚ) (effectiveFrom : Int)
    (latestCostRule : Option CoupangCostRule) : CostData where
  salePriceKrw := some (decimal salePriceKrw)
  supplyPriceKrw := some ((latestCostRule.map (·.supplyPriceKrw)).getD 0)
  productCostKrw := some ((latestCostRule.map (·.productCostKrw)).getD 0)
  salesFeeRate := some 0
  salesFeeKrw := some 0
  sellerShippingFeeKrw := some (latestCostRule.bind (·.sellerShippingFeeKrw))
  hanaroShippingFeeKrw := some (latestCostRule.bind (·.hanaroShippingFeeKrw))
  growthInboundFeeKrw := some ((latestCostRule.map (·.growthInboundFeeKrw)).getD 0)
  growthShippingFeeKrw := some ((latestCostRule.map (·.growthShippingFeeKrw)).getD 0)
  returnRate := some ((latestCostRule.map (·.returnRate)).getD 0)
  returnCostPerUnitKrw := some ((latestCostRule.map (·.returnCostPerUnitKrw)).getD 0)
  extraCostKrw := some ((latestCostRule.map (·.extraCostKrw)).getD 0)
  effectiveFrom := some effectiveFrom
  effectiveTo := none
  note := latestCostRule.map (·.note)

/-- A margin row says nothing of extra costs and the note. -/
def buildCoupangMarginCostRuleData (parsedRow : ParsedCoupangMarginRow) (effectiveFrom : Int)
    (latestCostRule : Option CoupangCostRule) : CostData where
  salePriceKrw := some (decimal parsedRow.salePriceKrw)
  supplyPriceKrw := some (decimal parsedRow.supplyPriceKrw)
  productCostKrw := some (decimal parsedRow.productCostKrw)
  salesFeeRate := some 0
  salesFeeKrw := some 0
  sellerShippingFeeKrw := some (match parsedRow.sellerShippingFeeKrw with
    | none => latestCostRule.bind (·.sellerShippingFeeKrw)
    | some fee => some (decimal fee))
  hanaroShippingFeeKrw := some (parsedRow.hanaroShippingFeeKrw.map decimal)
  growthInboundFeeKrw := some (decimal parsedRow.growthInboundFeeKrw)
  growthShippingFeeKrw := some (decimal parsedRow.growthShippingFeeKrw)
  returnRate := some (Scaled.ofRat 6 parsedRow.returnRate)
  returnCostPerUnitKrw := some (decimal parsedRow.returnCostPerUnitKrw)
  extraCostKrw := none
  effectiveFrom := some effectiveFrom
  effectiveTo := none
  note := none

/-- `buildData(baseRule)` of the two imports. -/
def CostFileRow.buildData (row : CostFileRow) (effectiveFrom : Int) (rules : List CoupangCostRule)
    (baseRule : Option CoupangCostRule) : CostData :=
  match row with
  | margin parsedRow => buildCoupangMarginCostRuleData parsedRow effectiveFrom baseRule
  | priceText parsedRow legacyProductId =>
    let legacy := legacyProductId.bind fun id => findCoupangCostRuleAtOrBeforeDate id effectiveFrom rules
    buildCoupangPriceTextCostRuleData parsedRow.salePriceKrw effectiveFrom (baseRule.or legacy)

structure SavedCostRule where
  operation : CostRuleOperation
  rule : CoupangCostRule
  before : Option CostSnapshot
  after : CostSnapshot

/-- `findUniqueOrThrow({ where: { id } })`. -/
def findRuleOrThrow (id : String) (rules : List CoupangCostRule) : Except ApiError CoupangCostRule :=
  match findRule id rules with
  | some rule => .ok rule
  | none => .error { code := "P2025", message := "No CoupangCostRule found" }

def upsertImportedCoupangCostRule (stamp : RuleStamp) (coupangProductId : String) (effectiveFrom : Int)
    (buildData : Option CoupangCostRule → CostData) (rules : List CoupangCostRule) :
    Except ApiError (List CoupangCostRule × SavedCostRule) := do
  let existing := findCoupangCostRuleStartingOnDate coupangProductId effectiveFrom rules
  let baseRule := existing.or (findCoupangCostRuleAtOrBeforeDate coupangProductId effectiveFrom rules)
  let data := buildData baseRule
  match existing with
  | some old =>
    let saved ← updateRule old.id data rules
    let normalized ← normalizeCoupangCostRuleRanges coupangProductId saved
    let rule ← findRuleOrThrow old.id normalized
    return (normalized,
      { operation := .UPDATED_SAME_DATE, rule
        before := some (serializeCoupangCostRuleRollbackSnapshot old)
        after := serializeCoupangCostRuleRollbackSnapshot rule })
  | none =>
    let saved ← createRule (data.create stamp coupangProductId) rules
    let normalized ← normalizeCoupangCostRuleRanges coupangProductId saved
    let rule ← findRuleOrThrow stamp.id normalized
    return (normalized,
      { operation := .CREATED, rule, before := none
        after := serializeCoupangCostRuleRollbackSnapshot rule })

/-- A line of a file: what was parsed, or the issues, with the product it names and the stamp of
    a rule it may create. -/
structure CostFileLine where
  rowNumber : Nat
  standardName : String
  productId : String
  stamp : RuleStamp
  parsedRow : Option CostFileRow
  issues : List ParseIssue

def applyCostFileRow (effectiveFrom : Int) (line : CostFileLine) (row : CostFileRow)
    (rules : List CoupangCostRule) : Except ApiError (List CoupangCostRule × AppliedRow) := do
  let (saved, result) ← upsertImportedCoupangCostRule line.stamp line.productId effectiveFrom
    (row.buildData effectiveFrom rules) rules
  return (saved,
    { rowNumber := line.rowNumber, itemName := row.itemName, standardName := line.standardName
      productId := line.productId, costRuleId := result.rule.id, salePriceKrw := row.salePriceKrw
      costRuleOperation := result.operation, costRuleBefore := result.before
      costRuleAfter := result.after })

/-- The loop over the lines of a file; a line with issues writes no rule. -/
def applyCostFile (effectiveFrom : Int) : List CostFileLine → List CoupangCostRule →
    Except ApiError (List CoupangCostRule × List AppliedRow)
  | [], rules => .ok (rules, [])
  | line :: lines, rules =>
    match line.parsedRow with
    | none => applyCostFile effectiveFrom lines rules
    | some row => do
      let (saved, applied) ← applyCostFileRow effectiveFrom line row rules
      let (final, rest) ← applyCostFile effectiveFrom lines saved
      return (final, applied :: rest)

/-! ## 4. Rollback -/

def rollbackOrderConflict : ApiError :=
  { code := "COUPANG_UPLOAD_ROLLBACK_ORDER_CONFLICT"
    message := "A newer cost change exists. Delete newer uploads or corrections before deleting this upload." }

def rollbackSnapshotMissing : ApiError :=
  { code := "COUPANG_UPLOAD_ROLLBACK_SNAPSHOT_MISSING"
    message := "The previous cost snapshot required for rollback is missing." }

/-- One turn of the loop over the applied rows, last row first. -/
def rollbackRow (rules : List CoupangCostRule) (applied : AppliedRow) :
    Except ApiError (List CoupangCostRule) :=
  match findRule applied.costRuleId rules with
  | none => .error rollbackOrderConflict
  | some current =>
    if current.coupangProductId ≠ applied.productId ∨
        sameCoupangCostRuleRollbackSnapshot current applied.costRuleAfter = false then
      .error rollbackOrderConflict
    else
      match applied.costRuleOperation, applied.costRuleBefore with
      | .UPDATED_SAME_DATE, none => .error rollbackSnapshotMissing
      | .UPDATED_SAME_DATE, some before => do
        let data ← deserializeCoupangCostRuleRollbackSnapshot before
        updateRule applied.costRuleId data rules
      | .CREATED, _ => .ok (deleteRule applied.costRuleId rules)

def rollbackImportedCoupangCostRules (appliedRows : List AppliedRow) (rules : List CoupangCostRule) :
    Except ApiError (List CoupangCostRule) := do
  let productIds := (uniqueNonEmpty (appliedRows.map fun row => some row.productId)).insertionSort (· ≤ ·)
  let undone ← appliedRows.reverse.foldlM rollbackRow rules
  productIds.foldlM (fun table id => normalizeCoupangCostRuleRanges id table) undone

/-! ## 5. The store -/

inductive CostSource where
  | MARGIN
  | PRICE_TEXT
deriving DecidableEq

structure CostUpload where
  id : String
  sourceType : CostSource
  validRowCount : Nat
  errorCount : Nat
  columnSchema : Json

structure UploadRowError where
  uploadBatchId : String
  rowNumber : Nat
  issue : RowIssue

structure CostStore where
  costRules : List CoupangCostRule
  salesFeeRules : List CoupangSalesFeeRule
  uploads : List CostUpload
  rowErrors : List UploadRowError

structure CostFile where
  uploadId : String
  sourceType : CostSource
  lines : List CostFileLine

def CostFile.errors (file : CostFile) : List UploadRowError :=
  (file.lines.filter fun line => line.parsedRow.isNone).flatMap fun line =>
    line.issues.map fun issue => { uploadBatchId := file.uploadId, rowNumber := line.rowNumber,
                                   issue := rowIssue issue .ERROR }

def importEffectiveFrom (clock : String) (body : Body) : Except ApiError Int :=
  if isFalsyValue (body.get "effectiveFrom") then currentKoreaDateOnly clock
  else requiredDateFromBody (body.get "effectiveFrom") "effectiveFrom"

/-- The transaction of `importMarginCsv` and `importPriceText`, with the reserved upload. The start
    day is the body's or today. -/
def importCostFile (clock : String) (body : Body) (file : CostFile) (store : CostStore) :
    Except ApiError CostStore := do
  let effectiveFrom ← importEffectiveFrom clock body
  let (costRules, appliedRows) ← applyCostFile effectiveFrom file.lines store.costRules
  return { store with
    costRules
    rowErrors := store.rowErrors ++ file.errors
    uploads := store.uploads ++
      [{ id := file.uploadId, sourceType := file.sourceType, validRowCount := appliedRows.length
         errorCount := (file.lines.filter fun line => line.parsedRow.isNone).length
         columnSchema := .obj [("effectiveFrom", .str (formatDateOnly effectiveFrom)),
                               ("appliedRows", .arr (appliedRows.map AppliedRow.toJson))] }] }

/-- `deleteUpload` for a margin or price-text upload. A product that nothing refers to any more,
    no cost rule either, is deleted with it. -/
def deleteCostUpload (id : String) (store : CostStore) : Except ApiError CostStore :=
  match store.uploads.find? fun u => u.id = id with
  | none => .error { code := "COUPANG_UPLOAD_NOT_FOUND", message := "Coupang upload was not found." }
  | some upload => do
    let appliedRows ← rollbackAppliedRows upload.columnSchema upload.validRowCount
    let costRules ← rollbackImportedCoupangCostRules appliedRows store.costRules
    return { store with
      costRules
      rowErrors := store.rowErrors.filter fun e => e.uploadBatchId ≠ id
      uploads := store.uploads.filter fun u => u.id ≠ id }

/-- A request: the new store, or the old one when it is refused. -/
def attempt (operation : CostStore → Except ApiError CostStore) (store : CostStore) : CostStore :=
  match operation store with
  | .ok next => next
  | .error _ => store

end AdsManagement.Coupang
