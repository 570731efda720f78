/-
  File:      Coupang/Rows.lean
  Subject:   COUPANG ROWS: what the parsers hand to the import of sale lines and ad metrics,
             the logical keys of the rows, their issues and their match with products.

  The text matcher is a parameter (`MatchText`): which product a text names plays no part in
  the versions of a row. SHA-256 is one too (`RecordHash`): of the digest only its spelling
  is used.

  * `isClean_coupangSaleLineKey`, `isClean_coupangAdMetricKey`, `isClean_fallbackRowKey` --
    every logical key is its own `trim` and not empty, so `uniqueNonEmpty` keeps it.
-/
import AdsManagement.Common.Dates

namespace AdsManagement.Coupang

open Common

/-! ## 1. Enumerations and issues -/

/-- What an import does with a key that is current. -/
inductive ConflictPolicy where
  | SKIP
  | OVERWRITE
  | NEW_VERSION
deriving DecidableEq

/-- What an import says of a row. -/
inductive RowValidationStatus where
  | VALID
  | WARNING
  | ERROR
  | UNMATCHED
deriving DecidableEq

/-- Where a product or a stage comes from. -/
inductive MatchSource where
  | RULE
  | MANUAL
  | INFERRED
  | UNMATCHED
deriving DecidableEq

/-- How bad an issue is. -/
inductive Severity where
  | ERROR
  | WARNING
deriving DecidableEq

/-- `ParseIssue` (date-number.ts). -/
structure ParseIssue where
  columnName : String
  errorCode : String
  message : String
  rawValue : Option String

/-- What is said of a row, with the text of the cell. -/
structure IssueColumns where
  columnName : Option String
  severity : Severity
  errorCode : String
  message : String
  rawValue : Option String
deriving DecidableEq

/-- An issue as it is stored, with the rules of a match. -/
structure RowIssue extends IssueColumns where
  candidates : Option (List String)
deriving DecidableEq

/-- An issue of the parser. -/
def rowIssue (issue : ParseIssue) (severity : Severity) : RowIssue where
  columnName := some issue.columnName
  severity := severity
  errorCode := issue.errorCode
  message := issue.message
  rawValue := issue.rawValue
  candidates := none

/-- The warning of a row without one product. -/
def matchIssue (errorCode : String) (candidates : List String) : RowIssue where
  columnName := none
  severity := .WARNING
  errorCode := errorCode
  message := "Coupang product did not resolve to exactly one active rule."
  rawValue := some (String.intercalate ", " candidates)
  candidates := some candidates

/-- The warning of a row that SKIP keeps out. -/
def duplicateCurrentIssue (errorCode logicalKey : String) : RowIssue where
  columnName := none
  severity := .WARNING
  errorCode := errorCode
  message := "Coupang row already has a current logical key; this imported row was kept as non-current."
  rawValue := some logicalKey
  candidates := none

/-- Errors come first, then a missing product. -/
def validationStatusFor (issues warnings : List RowIssue) (productId : Option String) :
    RowValidationStatus :=
  if issues.length > 0 then .ERROR
  else if !isTruthy productId then .UNMATCHED
  else if warnings.length > 0 then .WARNING
  else .VALID

theorem validationStatusFor_eq_error_iff {issues warnings : List RowIssue}
    {productId : Option String} :
    validationStatusFor issues warnings productId = .ERROR ↔ issues ≠ [] := by
  cases issues with
  | nil =>
    refine ⟨fun h => ?_, fun h => absurd rfl h⟩
    have : validationStatusFor [] warnings productId =
        if !isTruthy productId then .UNMATCHED
        else if warnings.length > 0 then .WARNING else .VALID := rfl
    rw [this] at h
    split at h
    · cases h
    · split at h <;> cases h
  | cons i is => exact ⟨fun _ => List.cons_ne_nil _ _, fun _ => rfl⟩

/-! ## 2. Matching -/

/-- How the matcher ended. -/
inductive CoupangMatchReason where
  | MATCHED
  | NO_MATCH
  | AMBIGUOUS_MATCH
  | EXCLUDED_BY_KEYWORD
deriving DecidableEq

/-- The text of a reason. -/
def CoupangMatchReason.text : CoupangMatchReason → String
  | MATCHED => "MATCHED"
  | NO_MATCH => "NO_MATCH"
  | AMBIGUOUS_MATCH => "AMBIGUOUS_MATCH"
  | EXCLUDED_BY_KEYWORD => "EXCLUDED_BY_KEYWORD"

/-- What the matcher returns. -/
structure CoupangMatchResult where
  productId : Option String
  matchRuleId : Option String
  reason : CoupangMatchReason
  candidates : List String

/-- `matcher.matchText(text, rules, date)` with the rules of the moment. -/
abbrev MatchText := String → Option Int → CoupangMatchResult

/-- A text that names no product. -/
def isPlaceholderCoupangProductText (value : Option String) : Bool :=
  let text := trim (value.getD "")
  text == "" || text == "-"

/-- The product that bears the spend of a row. -/
structure CoupangSpendMatchResolution where
  productId : Option String
  ruleId : Option String
  matchSource : MatchSource
  warning : Option RowIssue

/-- The match of one text of an ad row. -/
def matchCoupangAdSpendText (matchText : MatchText) (text : String) (metricDate : Int) :
    CoupangSpendMatchResolution :=
  let result := matchText text (some metricDate)
  if result.reason = .MATCHED then
    { productId := result.productId, ruleId := result.matchRuleId, matchSource := .RULE,
      warning := none }
  else
    { productId := none, ruleId := none, matchSource := .UNMATCHED,
      warning := some (matchIssue ("SPEND_" ++ result.reason.text) result.candidates) }

/-- The executed product decides, else the ad name. -/
def resolveCoupangAdSpendProductMatch (matchText : MatchText) (metricDate : Int)
    (adExecutionProductName : String) (adName : Option String) : CoupangSpendMatchResolution :=
  if !isPlaceholderCoupangProductText (some adExecutionProductName) then
    matchCoupangAdSpendText matchText adExecutionProductName metricDate
  else if !isPlaceholderCoupangProductText adName then
    matchCoupangAdSpendText matchText (adName.getD "") metricDate
  else
    { productId := none, ruleId := none, matchSource := .UNMATCHED,
      warning := some (matchIssue "SPEND_NO_MATCH" []) }

/-- The products of an ad row. -/
structure CoupangAdProductMatchResolution where
  spendProductId : Option String
  spendRuleId : Option String
  conversionProductId : Option String
  conversionRuleId : Option String
  spendMatchSource : MatchSource
  conversionMatchSource : MatchSource
  warnings : List RowIssue

/-- The conversion may name another product. -/
def resolveCoupangAdProductMatches (matchText : MatchText) (metricDate : Int)
    (adExecutionProductName : String) (adName : Option String) (conversionProductName : String) :
    CoupangAdProductMatchResolution :=
  let spend := resolveCoupangAdSpendProductMatch matchText metricDate adExecutionProductName adName
  let resolved : CoupangAdProductMatchResolution :=
    { spendProductId := spend.productId, spendRuleId := spend.ruleId,
      conversionProductId := none, conversionRuleId := none,
      spendMatchSource := spend.matchSource, conversionMatchSource := .UNMATCHED,
      warnings := spend.warning.toList }
  let conversionIsPlaceholder := isPlaceholderCoupangProductText (some conversionProductName)
  if conversionIsPlaceholder && isTruthy spend.productId then
    -- an ad that names no converted product is counted for the product it was spent on
    { resolved with conversionProductId := spend.productId, conversionRuleId := spend.ruleId,
                    conversionMatchSource := .INFERRED }
  else if !conversionIsPlaceholder then
    let conversion := matchText conversionProductName (some metricDate)
    if conversion.reason = .MATCHED then
      { resolved with conversionProductId := conversion.productId,
                      conversionRuleId := conversion.matchRuleId, conversionMatchSource := .RULE }
    else
      { resolved with
          warnings := resolved.warnings ++
            [matchIssue ("CONVERSION_" ++ conversion.reason.text) conversion.candidates] }
  else resolved

/-! ## 3. Parsed rows and their keys -/

/-- The cells of a row under their headers. -/
abbrev RawRow := List (String × String)

/-- The JSON of a raw column: the cells of a row, or which rows of an ads file were added up. -/
inductive InputJsonObject where
  | cells (rawRow : RawRow)
  | aggregate (aggregated : Bool) (adMetricKey : String) (sourceRowNumbers : List Nat)
      (sourceRowCount : Nat) (sourceRowHashes : List String)

/-- `createHash("sha256").update(JSON.stringify(record)).digest("hex")`: 64 hexadecimal
    digits, whatever the record. -/
structure RecordHash where
  hash : InputJsonObject → String
  hex : ∀ row, (hash row).length = 64 ∧ ∀ c ∈ (hash row).toList, c ∈ "0123456789abcdef".toList

/-- The key of a row without a parsed one. -/
def fallbackRowKey (h : RecordHash) (rawRow : InputJsonObject) : String := h.hash rawRow

/-- A row of the sales report. -/
structure ParsedCoupangSaleRow where
  optionId : Option String
  optionName : String
  productName : String
  registeredProductId : Option String
  category : Option String
  saleMethod : Option String
  salesKrw : ℚ
  orderCount : Int
  salesQuantity : ℚ
  totalSalesKrw : ℚ
  totalSalesQuantity : ℚ
  cancelAmountKrw : ℚ
  cancelQuantity : ℚ
  instantCancelQuantity : ℚ
  netSalesKrw : ℚ
  saleDate : Option Int
deriving DecidableEq

/-- A row with what the parser made of it. -/
structure ParsedCoupangSalesRowResult where
  rowNumber : Nat
  rawRow : RawRow
  sourceRowHash : String
  parsedRow : Option ParsedCoupangSaleRow
  issues : List ParseIssue

/-- `formatDateOnly`, of a date that may be missing. -/
def formatDateOrEmpty (date : Option Int) : String :=
  match date with
  | some d => formatDateOnly d
  | none => ""

/-- The logical key of a sale line. -/
def coupangSaleLineKey (row : ParsedCoupangSaleRow) : String :=
  String.ofList (joinTrimmed
    [formatDateOrEmpty row.saleDate, row.optionId.getD "", row.productName, row.optionName])

/-- A row of the ads report. -/
structure ParsedCoupangAdRow where
  metricDate : Int
  campaignName : Option String
  adGroupName : Option String
  adName : Option String
  adExecutionOptionId : Option String
  adExecutionProductName : String
  conversionOptionId : Option String
  conversionProductName : String
  impressions : Int
  clicks : Int
  adSpendKrw : ℚ
  totalOrders1d : Int
  directOrders1d : Int
  indirectOrders1d : Int
  totalConversionSales1dKrw : ℚ
  directConversionSales1dKrw : ℚ
  indirectConversionSales1dKrw : ℚ
  totalSalesQuantity1d : ℚ
  directSalesQuantity1d : ℚ
  indirectSalesQuantity1d : ℚ
deriving DecidableEq

/-- A row of the import: a parsed row, or several rows of one key added up. -/
structure CoupangAdsImportRow where
  rowNumber : Nat
  rawRow : InputJsonObject
  sourceRowHash : String
  parsedRow : Option ParsedCoupangAdRow
  issues : List ParseIssue

/-- A text of an ad row that names nothing. -/
def isPlaceholderCoupangAdsText (value : Option String) : Bool :=
  let text := trim (value.getD "")
  text == "" || text == "-"

/-- The logical key of an ad metric. -/
def coupangAdMetricKey (row : ParsedCoupangAdRow) : String :=
  String.ofList (joinTrimmed
    [formatDateOnly row.metricDate,
     row.campaignName.getD "",
     row.adGroupName.getD "",
     row.adExecutionOptionId.getD "",
     if isPlaceholderCoupangAdsText (some row.adExecutionProductName) then row.adName.getD ""
     else row.adExecutionProductName,
     row.conversionOptionId.getD "",
     row.conversionProductName])

/-! ## 4. Every key is clean -/

theorem isClean_coupangSaleLineKey (row : ParsedCoupangSaleRow) :
    IsClean (coupangSaleLineKey row) :=
  isClean_joinTrimmed _ _ _

theorem isClean_coupangAdMetricKey (row : ParsedCoupangAdRow) : IsClean (coupangAdMetricKey row) :=
  isClean_joinTrimmed _ _ _

theorem isJsSpace_hex {c : Char} (h : c ∈ "0123456789abcdef".toList) : isJsSpace c = false := by
  have hall : ("0123456789abcdef".toList.all fun c => !isJsSpace c) = true := by decide
  simpa using List.all_eq_true.mp hall c h

theorem isClean_fallbackRowKey (h : RecordHash) (rawRow : InputJsonObject) :
    IsClean (fallbackRowKey h rawRow) := by
  obtain ⟨hlen, hhex⟩ := h.hex rawRow
  refine ⟨?_, fun e => ?_⟩
  · unfold trim
    rw [trimChars_of_ends, String.ofList_toList]
    · intro c hc
      exact isJsSpace_hex (hhex c (List.mem_of_mem_head? hc))
    · intro c hc
      exact isJsSpace_hex (hhex c (List.mem_of_mem_getLast? hc))
  · rw [show h.hash rawRow = "" from e] at hlen
    simp at hlen

end AdsManagement.Coupang
