/-
  File:      Coupang/ProfitRows.lean
  Subject:   PRODUCT PROFIT ROWS: the row of the report, how rows of days are put together to the
             row of a range and rows of products to the row of a group, and the summary
             (coupang.service.ts).

  The fields that are added up are named (`PlainAmount`, `KnownAmount`, `NullableAmount`), so that a
  fact about all of them is one statement. `localeCompare` only orders the rows and is a parameter.

  * `aggregateCoupangProductProfitGroup` -- the row of a group, every field of it;
  * `aggregateCoupangProductDateRows` -- the row of a product over several days;
  * `summarizeCoupangProductProfitRows` -- the totals of a report;
  * `RowConsistent` -- COMPLETE, a margin and a total cost come together, and the margin is the net
    sales less the cost; both aggregations keep it.
-/
import AdsManagement.Coupang.ProfitCalculator

namespace AdsManagement.Coupang

open Common Lib List

/-! ## 1. Rows -/

inductive ProfitRowType where
  | PRODUCT
  | GROUP
deriving DecidableEq

inductive PriceSource where
  | PROMOTION
  | BASE
  | MISSING
  | CONFLICT
  | MIXED
deriving DecidableEq

inductive RuleStatus where
  | OK
  | MISSING_COST_RULE
  | UNMATCHED
deriving DecidableEq

/-- The amounts of a row that the summary of a report has too. -/
structure SummedAmounts where
  reportedSalesKrw : ℚ
  reportedNetSalesKrw : ℚ
  reportedSalesQuantity : ℚ
  reportedOrderCount : ℚ
  cancelAmountKrw : ℚ
  manualPurchaseSalesKrw : Option ℚ
  manualPurchaseQuantity : ℚ
  manualPurchaseProductCostKrw : Option ℚ
  manualPurchaseVendorFeeKrw : Option ℚ
  manualPurchaseCoupangSalesFeeKrw : Option ℚ
  manualPurchaseShippingCostKrw : Option ℚ
  manualPurchaseOtherCostKrw : Option ℚ
  manualPurchaseTotalCostKrw : Option ℚ
  actualSalesKrw : Option ℚ
  actualNetSalesKrw : Option ℚ
  actualSalesQuantity : Option ℚ
  salesKrw : Option ℚ
  netSalesKrw : Option ℚ
  salesQuantity : Option ℚ
  productCostKrw : Option ℚ
  salesFeeKrw : Option ℚ
  shippingCostKrw : Option ℚ
  sellerSalesQuantity : ℚ
  growthSalesQuantity : ℚ
  sellerShippingCostKrw : Option ℚ
  hanaroShippingCostKrw : Option ℚ
  growthInboundCostKrw : Option ℚ
  growthShippingCostKrw : Option ℚ
  totalLogisticsCostKrw : Option ℚ
  returnCostKrw : Option ℚ
  extraCostKrw : Option ℚ
  vatKrw : Option ℚ
  adSpendKrw : ℚ
  adGeneratedSalesKrw : ℚ
  adGeneratedQuantity : ℚ
  attributedConversionSalesKrw : ℚ
  attributedConversionQuantity : ℚ
  organicSalesKrw : Option ℚ
  reportedOrganicSalesKrw : ℚ
  actualOrganicSalesKrw : Option ℚ
  normalMarginKrw : Option ℚ
  totalCostKrw : Option ℚ
  marginKrw : Option ℚ

/-- The fields of a row but its children. -/
structure ProductProfitFields extends SummedAmounts where
  rowType : Option ProfitRowType
  productId : String
  productName : String
  groupId : Option String
  groupName : Option String
  childProductCount : Option Nat
  saleMethod : Option String
  matchedSalesLineCount : ℚ
  orderCount : ℚ
  salePriceKrw : Option ℚ
  baseSalePriceKrw : Option ℚ
  promotionPriceKrw : Option ℚ
  priceSource : PriceSource
  priceWarnings : List String
  normalCalculationStatus : CoupangCalculationPartStatus
  manualCalculationStatus : CoupangCalculationPartStatus
  calculationStatus : CalculationStatus
  knownTotalCostKrw : ℚ
  knownMarginKrw : ℚ
  completeProductCount : ℚ
  incompleteProductCount : ℚ
  excludedNetSalesKrw : ℚ
  excludedSalesQuantity : ℚ
  incompleteNormalCount : ℚ
  incompleteManualCount : ℚ
  marginRate : Option ℚ
  roas : Option ℚ
  warnings : List String
  ruleStatus : RuleStatus

/-- `ProductProfitRow`: a child row is stripped of its own children. -/
structure ProductProfitRow extends ProductProfitFields where
  children : Option (List ProductProfitFields)

/-- The numbers of a row that add up over days and over products. -/
inductive PlainAmount where
  | matchedSalesLineCount
  | reportedSalesQuantity
  | reportedOrderCount
  | reportedSalesKrw
  | reportedNetSalesKrw
  | orderCount
  | cancelAmountKrw
  | sellerSalesQuantity
  | growthSalesQuantity
  | manualPurchaseQuantity
  | adSpendKrw
  | adGeneratedSalesKrw
  | adGeneratedQuantity
  | attributedConversionSalesKrw
  | attributedConversionQuantity
  | reportedOrganicSalesKrw
deriving DecidableEq

def PlainAmount.of : PlainAmount → ProductProfitFields → ℚ
  | .matchedSalesLineCount, row => row.matchedSalesLineCount
  | .reportedSalesQuantity, row => row.reportedSalesQuantity
  | .reportedOrderCount, row => row.reportedOrderCount
  | .reportedSalesKrw, row => row.reportedSalesKrw
  | .reportedNetSalesKrw, row => row.reportedNetSalesKrw
  | .orderCount, row => row.orderCount
  | .cancelAmountKrw, row => row.cancelAmountKrw
  | .sellerSalesQuantity, row => row.sellerSalesQuantity
  | .growthSalesQuantity, row => row.growthSalesQuantity
  | .manualPurchaseQuantity, row => row.manualPurchaseQuantity
  | .adSpendKrw, row => row.adSpendKrw
  | .adGeneratedSalesKrw, row => row.adGeneratedSalesKrw
  | .adGeneratedQuantity, row => row.adGeneratedQuantity
  | .attributedConversionSalesKrw, row => row.attributedConversionSalesKrw
  | .attributedConversionQuantity, row => row.attributedConversionQuantity
  | .reportedOrganicSalesKrw, row => row.reportedOrganicSalesKrw

/-- The numbers of a row that add up over products only. -/
inductive KnownAmount where
  | knownTotalCostKrw
  | knownMarginKrw
  | completeProductCount
  | incompleteProductCount
  | excludedNetSalesKrw
  | excludedSalesQuantity
  | incompleteNormalCount
  | incompleteManualCount
deriving DecidableEq

def KnownAmount.of : KnownAmount → ProductProfitFields → ℚ
  | .knownTotalCostKrw, row => row.knownTotalCostKrw
  | .knownMarginKrw, row => row.knownMarginKrw
  | .completeProductCount, row => row.completeProductCount
  | .incompleteProductCount, row => row.incompleteProductCount
  | .excludedNetSalesKrw, row => row.excludedNetSalesKrw
  | .excludedSalesQuantity, row => row.excludedSalesQuantity
  | .incompleteNormalCount, row => row.incompleteNormalCount
  | .incompleteManualCount, row => row.incompleteManualCount

/-- The amounts of a row that may be unknown. -/
inductive NullableAmount where
  | actualSalesQuantity
  | actualSalesKrw
  | actualNetSalesKrw
  | productCostKrw
  | salesFeeKrw
  | shippingCostKrw
  | sellerShippingCostKrw
  | hanaroShippingCostKrw
  | growthInboundCostKrw
  | growthShippingCostKrw
  | totalLogisticsCostKrw
  | returnCostKrw
  | extraCostKrw
  | vatKrw
  | manualPurchaseSalesKrw
  | manualPurchaseProductCostKrw
  | manualPurchaseVendorFeeKrw
  | manualPurchaseCoupangSalesFeeKrw
  | manualPurchaseShippingCostKrw
  | manualPurchaseOtherCostKrw
  | manualPurchaseTotalCostKrw
  | organicSalesKrw
  | actualOrganicSalesKrw
  | normalMarginKrw
  | totalCostKrw
  | marginKrw
deriving DecidableEq

def NullableAmount.of : NullableAmount → ProductProfitFields → Option ℚ
  | .actualSalesQuantity, row => row.actualSalesQuantity
  | .actualSalesKrw, row => row.actualSalesKrw
  | .actualNetSalesKrw, row => row.actualNetSalesKrw
  | .productCostKrw, row => row.productCostKrw
  | .salesFeeKrw, row => row.salesFeeKrw
  | .shippingCostKrw, row => row.shippingCostKrw
  | .sellerShippingCostKrw, row => row.sellerShippingCostKrw
  | .hanaroShippingCostKrw, row => row.hanaroShippingCostKrw
  | .growthInboundCostKrw, row => row.growthInboundCostKrw
  | .growthShippingCostKrw, row => row.growthShippingCostKrw
  | .totalLogisticsCostKrw, row => row.totalLogisticsCostKrw
  | .returnCostKrw, row => row.returnCostKrw
  | .extraCostKrw, row => row.extraCostKrw
  | .vatKrw, row => row.vatKrw
  | .manualPurchaseSalesKrw, row => row.manualPurchaseSalesKrw
  | .manualPurchaseProductCostKrw, row => row.manualPurchaseProductCostKrw
  | .manualPurchaseVendorFeeKrw, row => row.manualPurchaseVendorFeeKrw
  | .manualPurchaseCoupangSalesFeeKrw, row => row.manualPurchaseCoupangSalesFeeKrw
  | .manualPurchaseShippingCostKrw, row => row.manualPurchaseShippingCostKrw
  | .manualPurchaseOtherCostKrw, row => row.manualPurchaseOtherCostKrw
  | .manualPurchaseTotalCostKrw, row => row.manualPurchaseTotalCostKrw
  | .organicSalesKrw, row => row.organicSalesKrw
  | .actualOrganicSalesKrw, row => row.actualOrganicSalesKrw
  | .normalMarginKrw, row => row.normalMarginKrw
  | .totalCostKrw, row => row.totalCostKrw
  | .marginKrw, row => row.marginKrw

/-- The older names of the actual sales, which every row repeats. -/
inductive MirroredAmount where
  | salesQuantity
  | salesKrw
  | netSalesKrw
deriving DecidableEq

def MirroredAmount.of : MirroredAmount → ProductProfitFields → Option ℚ
  | .salesQuantity, row => row.salesQuantity
  | .salesKrw, row => row.salesKrw
  | .netSalesKrw, row => row.netSalesKrw

def MirroredAmount.actual : MirroredAmount → NullableAmount
  | .salesQuantity => .actualSalesQuantity
  | .salesKrw => .actualSalesKrw
  | .netSalesKrw => .actualNetSalesKrw

/-! ## 2. Groups -/

structure ProductGroup where
  id : String
  displayName : String

def sumNumbers (values : List ℚ) : ℚ := plainSum values

def strictSumNullable (values : List (Option ℚ)) : Option ℚ := strictSum values

/-- `none` is `undefined` (the values differ), `some none` is `null` (there are none). -/
def commonNullableNumber (values : List (Option ℚ)) : Option (Option ℚ) :=
  if values.all Option.isNone then some none
  else
    let numbers := values.filterMap id
    if numbers.length ≠ values.length then none
    else if numbers.all fun value => some value = numbers.head? then some numbers.head? else none

def aggregateCalculationPartStatus (statuses : List CoupangCalculationPartStatus) :
    CoupangCalculationPartStatus :=
  if statuses.any fun status => status = .INCOMPLETE then .INCOMPLETE
  else if statuses.any fun status => status = .COMPLETE then .COMPLETE
  else .NOT_APPLICABLE

def marginRateOf (marginKrw netSalesKrw : Option ℚ) : Option ℚ :=
  match marginKrw, netSalesKrw with
  | some margin, some net => safeDivide margin net
  | _, _ => none

/-- `({ children: _children, ...row }) => ({ ...row, rowType: "PRODUCT" })`. -/
def childRow (row : ProductProfitRow) : ProductProfitFields :=
  { row.toProductProfitFields with rowType := some .PRODUCT }

/-- The sums of a group that a summary makes too. -/
def sumAmounts (rows : List ProductProfitRow) : SummedAmounts where
  reportedSalesKrw := sumNumbers (rows.map (·.reportedSalesKrw))
  reportedNetSalesKrw := sumNumbers (rows.map (·.reportedNetSalesKrw))
  reportedSalesQuantity := sumNumbers (rows.map (·.reportedSalesQuantity))
  reportedOrderCount := sumNumbers (rows.map (·.reportedOrderCount))
  cancelAmountKrw := sumNumbers (rows.map (·.cancelAmountKrw))
  manualPurchaseSalesKrw := strictSumNullable (rows.map (·.manualPurchaseSalesKrw))
  manualPurchaseQuantity := sumNumbers (rows.map (·.manualPurchaseQuantity))
  manualPurchaseProductCostKrw := strictSumNullable (rows.map (·.manualPurchaseProductCostKrw))
  manualPurchaseVendorFeeKrw := strictSumNullable (rows.map (·.manualPurchaseVendorFeeKrw))
  manualPurchaseCoupangSalesFeeKrw := strictSumNullable (rows.map (·.manualPurchaseCoupangSalesFeeKrw))
  manualPurchaseShippingCostKrw := strictSumNullable (rows.map (·.manualPurchaseShippingCostKrw))
  manualPurchaseOtherCostKrw := strictSumNullable (rows.map (·.manualPurchaseOtherCostKrw))
  manualPurchaseTotalCostKrw := strictSumNullable (rows.map (·.manualPurchaseTotalCostKrw))
  actualSalesKrw := strictSumNullable (rows.map (·.actualSalesKrw))
  actualNetSalesKrw := strictSumNullable (rows.map (·.actualNetSalesKrw))
  actualSalesQuantity := strictSumNullable (rows.map (·.actualSalesQuantity))
  salesKrw := strictSumNullable (rows.map (·.actualSalesKrw))
  netSalesKrw := strictSumNullable (rows.map (·.actualNetSalesKrw))
  salesQuantity := strictSumNullable (rows.map (·.actualSalesQuantity))
  productCostKrw := strictSumNullable (rows.map (·.productCostKrw))
  salesFeeKrw := strictSumNullable (rows.map (·.salesFeeKrw))
  shippingCostKrw := strictSumNullable (rows.map (·.shippingCostKrw))
  sellerSalesQuantity := sumNumbers (rows.map (·.sellerSalesQuantity))
  growthSalesQuantity := sumNumbers (rows.map (·.growthSalesQuantity))
  sellerShippingCostKrw := strictSumNullable (rows.map (·.sellerShippingCostKrw))
  hanaroShippingCostKrw := strictSumNullable (rows.map (·.hanaroShippingCostKrw))
  growthInboundCostKrw := strictSumNullable (rows.map (·.growthInboundCostKrw))
  growthShippingCostKrw := strictSumNullable (rows.map (·.growthShippingCostKrw))
  totalLogisticsCostKrw := strictSumNullable (rows.map (·.totalLogisticsCostKrw))
  returnCostKrw := strictSumNullable (rows.map (·.returnCostKrw))
  extraCostKrw := strictSumNullable (rows.map (·.extraCostKrw))
  vatKrw := strictSumNullable (rows.map (·.vatKrw))
  adSpendKrw := sumNumbers (rows.map (·.adSpendKrw))
  adGeneratedSalesKrw := sumNumbers (rows.map (·.adGeneratedSalesKrw))
  adGeneratedQuantity := sumNumbers (rows.map (·.adGeneratedQuantity))
  attributedConversionSalesKrw := sumNumbers (rows.map (·.attributedConversionSalesKrw))
  attributedConversionQuantity := sumNumbers (rows.map (·.attributedConversionQuantity))
  organicSalesKrw := strictSumNullable (rows.map (·.organicSalesKrw))
  reportedOrganicSalesKrw := sumNumbers (rows.map (·.reportedOrganicSalesKrw))
  actualOrganicSalesKrw := strictSumNullable (rows.map (·.actualOrganicSalesKrw))
  normalMarginKrw := strictSumNullable (rows.map (·.normalMarginKrw))
  totalCostKrw := strictSumNullable (rows.map (·.totalCostKrw))
  marginKrw := strictSumNullable (rows.map (·.marginKrw))

def aggregateCoupangProductProfitGroup (group : ProductGroup) (rows : List ProductProfitRow) :
    ProductProfitRow :=
  let sums := sumAmounts rows
  let salePriceKrw := commonNullableNumber (rows.map (·.salePriceKrw))
  let baseSalePriceKrw := commonNullableNumber (rows.map (·.baseSalePriceKrw))
  let promotionPriceKrw := commonNullableNumber (rows.map (·.promotionPriceKrw))
  let priceSources := (rows.map (·.priceSource)).eraseDups
  let priceMixed := salePriceKrw.isNone || baseSalePriceKrw.isNone || promotionPriceKrw.isNone ||
    priceSources.length > 1
  let saleMethods := uniqueNonEmpty (rows.map (·.saleMethod))
  let hasMissingCostRule := rows.any fun row => row.ruleStatus = .MISSING_COST_RULE
  let hasUnmatched := rows.any fun row => row.ruleStatus = .UNMATCHED
  let groupWarnings := (if priceMixed then ["GROUP_MIXED_PRICE"] else []) ++
    (if saleMethods.length > 1 then ["GROUP_MIXED_SALE_METHOD"] else []) ++
    (if hasMissingCostRule then ["GROUP_HAS_MISSING_COST_RULE"] else [])
  { sums with
    children := some (rows.map childRow)
    rowType := some .GROUP
    productId := group.id
    productName := group.displayName
    groupId := some group.id
    groupName := some group.displayName
    childProductCount := some rows.length
    saleMethod := if saleMethods.length > 1 then some "MIXED" else saleMethods.head?
    matchedSalesLineCount := sumNumbers (rows.map (·.matchedSalesLineCount))
    orderCount := sumNumbers (rows.map (·.orderCount))
    salePriceKrw := if priceMixed then none else salePriceKrw.join
    baseSalePriceKrw := if priceMixed then none else baseSalePriceKrw.join
    promotionPriceKrw := if priceMixed then none else promotionPriceKrw.join
    priceSource := if priceMixed then .MIXED else priceSources.head?.getD .MISSING
    priceWarnings := uniqueNonEmpty ((rows.flatMap (·.priceWarnings) ++
      if priceMixed then ["GROUP_MIXED_PRICE"] else []).map some)
    normalCalculationStatus := aggregateCalculationPartStatus (rows.map (·.normalCalculationStatus))
    manualCalculationStatus := aggregateCalculationPartStatus (rows.map (·.manualCalculationStatus))
    calculationStatus := if rows.all fun row => row.calculationStatus = .COMPLETE then .COMPLETE else .INCOMPLETE
    knownTotalCostKrw := sumNumbers (rows.map (·.knownTotalCostKrw))
    knownMarginKrw := sumNumbers (rows.map (·.knownMarginKrw))
    completeProductCount := sumNumbers (rows.map (·.completeProductCount))
    incompleteProductCount := sumNumbers (rows.map (·.incompleteProductCount))
    excludedNetSalesKrw := sumNumbers (rows.map (·.excludedNetSalesKrw))
    excludedSalesQuantity := sumNumbers (rows.map (·.excludedSalesQuantity))
    incompleteNormalCount := sumNumbers (rows.map (·.incompleteNormalCount))
    incompleteManualCount := sumNumbers (rows.map (·.incompleteManualCount))
    marginRate := marginRateOf sums.marginKrw sums.actualNetSalesKrw
    roas := safeDivide sums.adGeneratedSalesKrw sums.adSpendKrw
    warnings := uniqueNonEmpty ((rows.flatMap (·.warnings) ++ groupWarnings).map some)
    ruleStatus := if hasUnmatched then .UNMATCHED else if hasMissingCostRule then .MISSING_COST_RULE else .OK }

/-! ## 3. Ranges -/

/-- The row of a product from the rows `first :: rest` of its days. -/
def aggregateCoupangProductDateRows (first : ProductProfitRow) (rest : List ProductProfitRow) :
    ProductProfitRow :=
  if rest.length = 0 then first
  else
    let rows := first :: rest
    let aggregated := aggregateCoupangProductProfitGroup ⟨first.productId, first.productName⟩ rows
    let isComplete := aggregated.calculationStatus = .COMPLETE
    let priceMixed := aggregated.priceSource = .MIXED
    { aggregated with
      rowType := some .PRODUCT
      productId := first.productId
      productName := first.productName
      groupId := none
      groupName := none
      childProductCount := none
      children := none
      priceWarnings := uniqueNonEmpty ((rows.flatMap (·.priceWarnings) ++
        if priceMixed then ["RANGE_MIXED_PRICE"] else []).map some)
      warnings := uniqueNonEmpty ((rows.flatMap (·.warnings)).map some)
      knownTotalCostKrw := if isComplete then aggregated.totalCostKrw.getD 0 else 0
      knownMarginKrw := if isComplete then aggregated.marginKrw.getD 0 else 0
      completeProductCount := if isComplete then 1 else 0
      incompleteProductCount := if isComplete then 0 else 1
      excludedNetSalesKrw := if isComplete then 0 else sumNumbers (rows.map fun row =>
        if row.calculationStatus = .INCOMPLETE then row.excludedNetSalesKrw
        else row.actualNetSalesKrw.getD row.reportedNetSalesKrw)
      excludedSalesQuantity := if isComplete then 0 else sumNumbers (rows.map fun row =>
        if row.calculationStatus = .INCOMPLETE then row.excludedSalesQuantity
        else row.actualSalesQuantity.getD row.reportedSalesQuantity)
      incompleteNormalCount := if aggregated.normalCalculationStatus = .INCOMPLETE then 1 else 0
      incompleteManualCount := if aggregated.manualCalculationStatus = .INCOMPLETE then 1 else 0 }

/-! ## 4. The summary -/

/-- The amounts of a summary. -/
structure ProfitSummaryTotals extends SummedAmounts where
  knownMarginKrw : ℚ
  knownTotalCostKrw : ℚ
  excludedNetSalesKrw : ℚ
  excludedSalesQuantity : ℚ

structure CoupangProductProfitSummary extends ProfitSummaryTotals where
  isComplete : Bool
  completeProductCount : Nat
  incompleteProductCount : Nat
  incompleteNormalCount : Nat
  incompleteManualCount : Nat
  marginRate : Option ℚ
  roas : Option ℚ
  adSpendRatio : Option ℚ
  incompleteCalculationCount : Nat
  missingCostRuleCount : Nat
  warningCount : Nat

def isCompleteRow (row : ProductProfitRow) : Bool :=
  row.calculationStatus = .COMPLETE && row.marginKrw.isSome && row.totalCostKrw.isSome

def summarizeCoupangProductProfitRows (rows : List ProductProfitRow) : CoupangProductProfitSummary :=
  let completeRows := rows.filter isCompleteRow
  let incompleteRows := rows.filter fun row => !isCompleteRow row
  let sums := sumAmounts rows
  { sums with
    knownMarginKrw := sumNumbers (completeRows.map fun row => row.marginKrw.getD 0)
    knownTotalCostKrw := sumNumbers (completeRows.map fun row => row.totalCostKrw.getD 0)
    excludedNetSalesKrw := sumNumbers (incompleteRows.map (·.excludedNetSalesKrw))
    excludedSalesQuantity := sumNumbers (incompleteRows.map (·.excludedSalesQuantity))
    isComplete := incompleteRows.length = 0
    completeProductCount := completeRows.length
    incompleteProductCount := incompleteRows.length
    incompleteNormalCount := (rows.filter fun row => row.normalCalculationStatus = .INCOMPLETE).length
    incompleteManualCount := (rows.filter fun row => row.manualCalculationStatus = .INCOMPLETE).length
    marginRate := marginRateOf sums.marginKrw sums.actualNetSalesKrw
    roas := safeDivide sums.adGeneratedSalesKrw sums.adSpendKrw
    adSpendRatio := sums.actualNetSalesKrw.bind (safeDivide sums.adSpendKrw)
    incompleteCalculationCount := incompleteRows.length
    missingCostRuleCount := (rows.filter fun row => row.ruleStatus = .MISSING_COST_RULE).length
    warningCount := (rows.map (·.warnings.length)).sum }

/-! ## 5. What the aggregations do to the amounts -/

section Amounts

variable (group : ProductGroup) (rows : List ProductProfitRow)

theorem group_plain (f : PlainAmount) :
    f.of (aggregateCoupangProductProfitGroup group rows).toProductProfitFields =
      sumNumbers (rows.map fun row => f.of row.toProductProfitFields) := by
  cases f <;> rfl

theorem group_known (f : KnownAmount) :
    f.of (aggregateCoupangProductProfitGroup group rows).toProductProfitFields =
      sumNumbers (rows.map fun row => f.of row.toProductProfitFields) := by
  cases f <;> rfl

theorem group_nullable (f : NullableAmount) :
    f.of (aggregateCoupangProductProfitGroup group rows).toProductProfitFields =
      strictSumNullable (rows.map fun row => f.of row.toProductProfitFields) := by
  cases f <;> rfl

theorem group_mirrored (f : MirroredAmount) :
    f.of (aggregateCoupangProductProfitGroup group rows).toProductProfitFields =
      strictSumNullable (rows.map fun row => f.actual.of row.toProductProfitFields) := by
  cases f <;> rfl

variable (first : ProductProfitRow) (rest : List ProductProfitRow)

/-- The row repeats its actual sales under the older names. -/
def Mirrored (row : ProductProfitFields) : Prop := ∀ f : MirroredAmount, f.of row = f.actual.of row

theorem mirrored_group :
    Mirrored (aggregateCoupangProductProfitGroup group rows).toProductProfitFields :=
  fun f => (group_mirrored group rows f).trans (group_nullable group rows f.actual).symm

variable {first rest}

end Amounts

/-! ## 6. Completeness -/

/-- COMPLETE, a margin and a total cost come together; the margin is the net sales less the cost. -/
structure RowConsistent (row : ProductProfitFields) : Prop where
  complete_iff_margin : row.calculationStatus = .COMPLETE ↔ row.marginKrw ≠ none
  complete_iff_cost : row.calculationStatus = .COMPLETE ↔ row.totalCostKrw ≠ none
  margin_eq : ∀ m c, row.marginKrw = some m → row.totalCostKrw = some c →
    ∃ n, row.actualNetSalesKrw = some n ∧ m = n - c

section Completeness

variable {rows : List ProductProfitRow}

theorem group_complete_iff (group : ProductGroup) (rows : List ProductProfitRow) :
    (aggregateCoupangProductProfitGroup group rows).calculationStatus = .COMPLETE ↔
      ∀ row ∈ rows, row.calculationStatus = .COMPLETE := by
  show (if rows.all fun row => row.calculationStatus = .COMPLETE then CalculationStatus.COMPLETE
    else .INCOMPLETE) = .COMPLETE ↔ _
  split
  · next h => exact ⟨fun _ row hr => by simpa using all_eq_true.mp h row hr, fun _ => rfl⟩
  · rename_i h
    refine ⟨nofun, fun hc => absurd ?_ h⟩
    exact all_eq_true.mpr fun row hr => by simpa using hc row hr

theorem notMem_none_iff {f : ProductProfitRow → Option ℚ} :
    none ∉ rows.map f ↔ ∀ row ∈ rows, f row ≠ none := by
  rw [mem_map]
  constructor
  · intro h row hr e
    exact h ⟨row, hr, e⟩
  · intro h ⟨row, hr, e⟩
    exact h row hr e

theorem strictSumNullable_ne_none_iff {f : ProductProfitRow → Option ℚ} :
    strictSumNullable (rows.map f) ≠ none ↔ ∀ row ∈ rows, f row ≠ none := by
  rw [← notMem_none_iff, ne_eq, strictSumNullable, strictSum_eq_none_iff]

/-- **A group of consistent rows is consistent.** -/
theorem RowConsistent.group (group : ProductGroup)
    (h : ∀ row ∈ rows, RowConsistent row.toProductProfitFields) :
    RowConsistent (aggregateCoupangProductProfitGroup group rows).toProductProfitFields := by
  have hmargin : (∀ row ∈ rows, row.calculationStatus = .COMPLETE) ↔
      ∀ row ∈ rows, row.marginKrw ≠ none :=
    ⟨fun hc row hr => (h row hr).complete_iff_margin.mp (hc row hr),
      fun hc row hr => (h row hr).complete_iff_margin.mpr (hc row hr)⟩
  have hcost : (∀ row ∈ rows, row.calculationStatus = .COMPLETE) ↔
      ∀ row ∈ rows, row.totalCostKrw ≠ none :=
    ⟨fun hc row hr => (h row hr).complete_iff_cost.mp (hc row hr),
      fun hc row hr => (h row hr).complete_iff_cost.mpr (hc row hr)⟩
  refine ⟨?_, ?_, fun m c hm hc => ?_⟩
  · rw [group_complete_iff, hmargin]
    exact strictSumNullable_ne_none_iff.symm
  · rw [group_complete_iff, hcost]
    exact strictSumNullable_ne_none_iff.symm
  · have hm' : strictSumNullable (rows.map (·.marginKrw)) = some m := hm
    have hc' : strictSumNullable (rows.map (·.totalCostKrw)) = some c := hc
    have hmn := strictSumNullable_ne_none_iff.mp (hm' ▸ Option.some_ne_none m)
    have hcn := strictSumNullable_ne_none_iff.mp (hc' ▸ Option.some_ne_none c)
    -- every member has net sales, and its margin is the difference
    have hrow : ∀ row ∈ rows, row.actualNetSalesKrw ≠ none ∧
        row.marginKrw.getD 0 = row.actualNetSalesKrw.getD 0 - row.totalCostKrw.getD 0 := by
      intro row hr
      obtain ⟨x, hx⟩ := Option.ne_none_iff_exists'.mp (hmn row hr)
      obtain ⟨y, hy⟩ := Option.ne_none_iff_exists'.mp (hcn row hr)
      obtain ⟨n, hn, e⟩ := (h row hr).margin_eq x y hx hy
      exact ⟨by rw [hn]; exact Option.some_ne_none n, by rw [hx, hy, hn]; exact e⟩
    have hnn : ∀ row ∈ rows, row.actualNetSalesKrw ≠ none := fun row hr => (hrow row hr).1
    refine ⟨(rows.map fun row => row.actualNetSalesKrw.getD 0).sum, ?_, ?_⟩
    · show strictSum (rows.map (·.actualNetSalesKrw)) = _
      rw [strictSum_of_all_some fun v hv e => notMem_none_iff.mpr hnn (e ▸ hv), map_map]
      rfl
    · rw [strictSumNullable, strictSum_of_all_some fun v hv e => notMem_none_iff.mpr hmn (e ▸ hv),
        map_map] at hm'
      rw [strictSumNullable, strictSum_of_all_some fun v hv e => notMem_none_iff.mpr hcn (e ▸ hv),
        map_map] at hc'
      rw [← Option.some.inj hm', ← Option.some.inj hc', eq_sub_iff_add_eq, ← sum_map_add]
      refine congrArg List.sum (map_congr_left fun row hr => ?_)
      exact eq_sub_iff_add_eq.mp (hrow row hr).2

theorem RowConsistent.dates {first : ProductProfitRow} {rest : List ProductProfitRow}
    (h : ∀ row ∈ first :: rest, RowConsistent row.toProductProfitFields) :
    RowConsistent (aggregateCoupangProductDateRows first rest).toProductProfitFields := by
  cases rest with
  | nil => exact h first (mem_cons_self ..)
  | cons second rest =>
    have hg := RowConsistent.group ⟨first.productId, first.productName⟩ h
    exact ⟨hg.complete_iff_margin, hg.complete_iff_cost, hg.margin_eq⟩

end Completeness

end AdsManagement.Coupang
