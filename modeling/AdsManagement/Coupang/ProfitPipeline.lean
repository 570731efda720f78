/-
  File:      Coupang/ProfitPipeline.lean
  Subject:   THE REPORT PIPELINE: from the stored tables to the profit rows of a date range
             (`buildProductProfitRows` of coupang.service.ts, domain/coupang-price-resolver.ts).

  Days are counted as numbers and written as texts where the source does: the keys of its maps
  are `productId`, a NUL and the day. Where a query leaves the order open or the reader sorts
  again (rules, promotions, ads, purchases), the rows stand in the order of their table.

  * `fetchSources` -- the range-wide queries and the maps they fill;
  * `dayFacts`, `profitRowOfDay` -- what a key of the maps looks up, and the row it makes of it;
  * `buildProductProfitRows` -- the days of each product put together;
  * `profit_rows_consistent` -- completeness and the margin identity, for every row at every level.
-/
import AdsManagement.Lib.Fallible
import AdsManagement.Coupang.CostRules
import AdsManagement.Coupang.VersionStore
import AdsManagement.Coupang.ProfitRows

namespace AdsManagement.Coupang

open Common Lib

/-! ## 1. Tables -/

structure CoupangProduct where
  id : String
  displayName : String
  group : Option ProductGroup
  sortOrder : Int
  isActive : Bool

structure CoupangManualPurchase where
  purchaseDate : Int
  coupangProductId : String
  productDisplayName : String
  saleMethod : Option String
  quantity : Int
  salesAmountKrw : Option ℚ
  baseSalePriceKrw : Option ℚ
  vendorFeeTotalKrw : ℚ
  totalCostKrw : ℚ
  memo : Option String

structure CoupangPromotionPrice where
  coupangProductId : Option String
  promotionPriceKrw : ℚ
  promotionStartDate : Int
  promotionEndDate : Int
  promotionStatus : Option String
  validationErrors : Json
  validationStatus : RowValidationStatus

structure ProfitTables where
  saleLines : List CoupangSaleLine
  adMetrics : List CoupangAdMetric
  manualPurchases : List CoupangManualPurchase
  salesFeeRules : List CoupangSalesFeeRule
  costRules : List CoupangCostRule
  products : List CoupangProduct
  promotionPrices : List CoupangPromotionPrice

/-! ## 2. Prices -/

structure CoupangResolvedPrice where
  salePriceKrw : Option ℚ
  baseSalePriceKrw : Option ℚ
  promotionPriceKrw : Option ℚ
  priceSource : PriceSource
  priceWarnings : List String

def isPromotionActiveOn (promotion : CoupangPromotionPrice) (date : Int) : Bool :=
  formatDateOnly promotion.promotionStartDate ≤ formatDateOnly date &&
    formatDateOnly date ≤ formatDateOnly promotion.promotionEndDate

def isInactivePromotionStatus (status : Option String) : Bool :=
  let normalized := ((trim (status.getD "")).toList.map lowerChar).filter fun c => !isJsSpace c
  ["취소", "반려", "거절", "중지", "cancel", "canceled", "cancelled", "reject", "rejected", "stop",
    "stopped"].any fun value => includesText normalized value

def hasValidationErrorCode (value : Json) (errorCode : String) : Bool :=
  match value with
  | .arr items => items.any fun item =>
    match item with
    | .obj fields =>
      match Body.get fields "errorCode" with
      | some (.str code) => code = errorCode
      | _ => false
    | _ => false
  | _ => false

def isPromotionPriceCandidateEligible (promotion : CoupangPromotionPrice) : Bool :=
  !isInactivePromotionStatus promotion.promotionStatus &&
    !hasValidationErrorCode promotion.validationErrors "INVALID_PROMOTION_STATUS"

def resolveCoupangSalePrice (baseSalePriceKrw : Option ℚ) (promotions : List CoupangPromotionPrice)
    (date : Int) : CoupangResolvedPrice :=
  let baseSalePriceKrw := positiveOrNull baseSalePriceKrw
  let activePromotionPrices :=
    (((promotions.filter fun promotion => isPromotionActiveOn promotion date).filter
      isPromotionPriceCandidateEligible).filterMap fun promotion =>
        positiveOrNull (some promotion.promotionPriceKrw)).eraseDups
  match activePromotionPrices with
  | [price] => ⟨some price, baseSalePriceKrw, some price, .PROMOTION, []⟩
  | _ :: _ :: _ => ⟨baseSalePriceKrw, baseSalePriceKrw, none, .CONFLICT, ["PROMOTION_PRICE_CONFLICT"]⟩
  | [] =>
    match baseSalePriceKrw with
    | some base => ⟨some base, some base, none, .BASE, []⟩
    | none => ⟨none, none, none, .MISSING, ["BASE_SALE_PRICE_MISSING"]⟩

/-! ## 3. The queries of a range -/

structure AdPerformanceEntry where
  productId : String
  date : String
  spendKrw : ℚ
  generatedSalesKrw : ℚ
  generatedQuantity : ℚ

structure SalesAttributionEntry where
  productId : String
  date : String
  attributedSalesKrw : ℚ
  attributedQuantity : ℚ

/-- `where: { isCurrent: true, <date> in range, validationStatus: { not: "ERROR" } }`. -/
def StoredRow.reported {δ : Type} (row : StoredRow δ) : Bool := row.isCurrent && row.accepted

/-- `orderBy: [{ saleDate: "asc" }, { rowNumber: "asc" }]`. -/
def saleLineRank (line : CoupangSaleLine) : Int ×ₗ Nat :=
  toLex (line.data.saleDate.getD 0, line.rowNumber)

section

variable (tables : ProfitTables) (range : DateRange)

def fetchSaleLines : List CoupangSaleLine :=
  (tables.saleLines.insertionSort fun a b => saleLineRank a ≤ saleLineRank b).filter fun line =>
    line.reported && line.data.saleDate.any range.holds

def fetchAdMetrics : List CoupangAdMetric :=
  tables.adMetrics.filter fun metric => metric.reported && range.holds metric.data.metricDate

def fetchManualPurchases : List CoupangManualPurchase :=
  tables.manualPurchases.filter fun purchase => range.holds purchase.purchaseDate

def fetchSalesFeeRules : List CoupangSalesFeeRule :=
  tables.salesFeeRules.filter fun rule =>
    rule.effectiveFrom ≤ range.toDate && rule.effectiveTo.all (range.fromDate ≤ ·)

/-- The products a range has rows of. -/
def rangeProductIds : List String :=
  uniqueNonEmpty
    ((fetchSaleLines tables range).map (·.data.coupangProductId) ++
     (fetchAdMetrics tables range).map (·.data.spendProductId) ++
     (fetchAdMetrics tables range).map (·.data.conversionProductId) ++
     (fetchManualPurchases tables range).map fun row => some row.coupangProductId)

def fetchCostRules : List CoupangCostRule :=
  tables.costRules.filter fun rule => (rangeProductIds tables range).contains rule.coupangProductId

def fetchProducts : List CoupangProduct :=
  tables.products.filter fun product => (rangeProductIds tables range).contains product.id

def fetchPromotionPrices : List CoupangPromotionPrice :=
  tables.promotionPrices.filter fun promotion =>
    promotion.coupangProductId.any (rangeProductIds tables range).contains &&
    promotion.promotionStartDate ≤ range.toDate && range.fromDate ≤ promotion.promotionEndDate &&
    promotion.validationStatus != .ERROR

/-- The sale rows of the facts: a line without a product is left out. -/
def saleFactInput (line : CoupangSaleLine) : Option ReportedSalesFactInput :=
  if isTruthy line.data.coupangProductId then
    some
      { productId := line.data.coupangProductId.getD ""
        productName := some (((tables.products.find? fun product =>
          some product.id = line.data.coupangProductId).map (·.displayName)).getD line.data.productName)
        date := formatDateOnly (line.data.saleDate.getD range.toDate)
        salesKrw := line.data.salesKrw
        cancelAmountKrw := line.data.cancelAmountKrw
        netSalesKrw := line.data.netSalesKrw
        salesQuantity := line.data.salesQuantity
        orderCount := line.data.orderCount
        saleMethod := line.data.saleMethod
        lineCount := some 1 }
  else none

end

def manualFactInput (row : CoupangManualPurchase) : ManualPurchaseFactInput where
  productId := row.coupangProductId
  date := formatDateOnly row.purchaseDate
  quantity := row.quantity
  salesAmountKrw := row.salesAmountKrw
  baseSalePriceKrw := row.baseSalePriceKrw
  vendorFeeKrw := some row.vendorFeeTotalKrw
  totalCostKrw := some row.totalCostKrw
  saleMethod := row.saleMethod

def adPerformanceByProductDate (metrics : List CoupangAdMetric) :
    OrderedMap String AdPerformanceEntry :=
  aggregateBy
    (fun metric => productDateKey (metric.data.spendProductId.getD "") (formatDateOnly metric.data.metricDate))
    (fun metric =>
      { productId := metric.data.spendProductId.getD "", date := formatDateOnly metric.data.metricDate,
        spendKrw := 0, generatedSalesKrw := 0, generatedQuantity := 0 })
    (fun current metric =>
      { current with
        spendKrw := current.spendKrw + metric.data.adSpendKrw
        generatedSalesKrw := current.generatedSalesKrw + metric.data.totalConversionSales1dKrw
        generatedQuantity := current.generatedQuantity + metric.data.totalSalesQuantity1d })
    (metrics.filter fun metric => isTruthy metric.data.spendProductId)

def salesAttributionByProductDate (metrics : List CoupangAdMetric) :
    OrderedMap String SalesAttributionEntry :=
  aggregateBy
    (fun metric =>
      productDateKey (metric.data.conversionProductId.getD "") (formatDateOnly metric.data.metricDate))
    (fun metric =>
      { productId := metric.data.conversionProductId.getD "",
        date := formatDateOnly metric.data.metricDate, attributedSalesKrw := 0, attributedQuantity := 0 })
    (fun current metric =>
      { current with
        attributedSalesKrw := current.attributedSalesKrw + metric.data.totalConversionSales1dKrw
        attributedQuantity := current.attributedQuantity + metric.data.totalSalesQuantity1d })
    (metrics.filter fun metric => isTruthy metric.data.conversionProductId)

/-- Everything the rows of a range look up. -/
structure ProfitSources where
  reportedByProductDate : OrderedMap String ReportedSalesFacts
  manualByProductDate : OrderedMap String ManualPurchaseFacts
  adPerformanceByProductDate : OrderedMap String AdPerformanceEntry
  salesAttributionByProductDate : OrderedMap String SalesAttributionEntry
  productById : OrderedMap String CoupangProduct
  costRulesByProductId : OrderedMap String (List CoupangCostRule)
  promotionPricesByProductId : OrderedMap String (List CoupangPromotionPrice)
  salesFeeRules : List CoupangSalesFeeRule

def fetchSources (tables : ProfitTables) (range : DateRange) : ProfitSources where
  reportedByProductDate := aggregateReportedSalesByProductDate
    ((fetchSaleLines tables range).filterMap (saleFactInput tables range))
  manualByProductDate := aggregateManualPurchasesByProductDate
    (((fetchManualPurchases tables range).filter fun row => row.quantity > 0).map manualFactInput)
  adPerformanceByProductDate := adPerformanceByProductDate (fetchAdMetrics tables range)
  salesAttributionByProductDate := salesAttributionByProductDate (fetchAdMetrics tables range)
  productById := .ofList ((fetchProducts tables range).map fun product => (product.id, product))
  costRulesByProductId := groupBy (·.coupangProductId) (fetchCostRules tables range)
  promotionPricesByProductId :=
    groupBy (fun promotion => promotion.coupangProductId.getD "") (fetchPromotionPrices tables range)
  salesFeeRules := fetchSalesFeeRules tables range

/-! ## 4. The row of a day -/

/-- What one key of the maps looks up. -/
structure DayFacts where
  productId : String
  productName : String
  date : Int
  reported : ReportedSalesFacts
  manual : Option ManualPurchaseFacts
  performance : AdPerformanceEntry
  attribution : SalesAttributionEntry
  costRule : Option CoupangCostRule
  salesFeeRule : Option CoupangSalesFeeRule
  resolvedPrice : CoupangResolvedPrice

def dayFacts (range : DateRange) (sources : ProfitSources) (key : String) : Except ApiError DayFacts := do
  let reportedEntry := sources.reportedByProductDate.get key
  let manual := sources.manualByProductDate.get key
  let performanceEntry := sources.adPerformanceByProductDate.get key
  let attributionEntry := sources.salesAttributionByProductDate.get key
  let productId := ((((reportedEntry.map (·.productId)).or (manual.map (·.productId))).or
    (performanceEntry.map (·.productId))).or (attributionEntry.map (·.productId))).getD ""
  let dateText := ((((reportedEntry.map (·.date)).or (manual.map (·.date))).or
    (performanceEntry.map (·.date))).or (attributionEntry.map (·.date))).getD
      (formatDateOnly range.toDate)
  let date ← asDateOnly dateText
  let productName := (((sources.productById.get productId).map (·.displayName)).or
    (reportedEntry.map (·.productName))).getD "Coupang Product"
  let costRule := findRuleForDate ((sources.costRulesByProductId.get productId).getD []) date
  pure
    { productId
      productName
      date
      reported := reportedEntry.getD (emptyReportedSalesFacts productId dateText productName)
      manual
      performance := performanceEntry.getD
        { productId, date := dateText, spendKrw := 0, generatedSalesKrw := 0,
          generatedQuantity := 0 }
      attribution := attributionEntry.getD
        { productId, date := dateText, attributedSalesKrw := 0, attributedQuantity := 0 }
      costRule
      salesFeeRule := findSalesFeeRuleForDate sources.salesFeeRules date
      resolvedPrice := resolveCoupangSalePrice (costRule.map (·.salePriceKrw.value))
        ((sources.promotionPricesByProductId.get productId).getD []) date }

def costInput (rule : CoupangCostRule) : CoupangCostInput where
  productCostKrw := rule.productCostKrw.value
  sellerShippingFeeKrw := some (rule.sellerShippingFeeKrw.map (·.value))
  hanaroShippingFeeKrw := some (rule.hanaroShippingFeeKrw.map (·.value))
  growthInboundFeeKrw := some rule.growthInboundFeeKrw.value
  growthShippingFeeKrw := some rule.growthShippingFeeKrw.value
  returnRate := some rule.returnRate.value
  returnCostPerUnitKrw := some rule.returnCostPerUnitKrw.value
  extraCostKrw := some rule.extraCostKrw.value

/-- The reported sales as actual ones: the reference where the adjustment is not valid. -/
def reportedAsActual (reported : ReportedSalesFacts) : ActualSalesFacts where
  salesKrw := some reported.salesKrw
  netSalesKrw := some reported.netSalesKrw
  salesQuantity := some reported.salesQuantity
  orderCount := reported.orderCount
  segments := reported.segments
  warnings := []
  isValid := true
  isManualOnly := false

/-- The parts of the profit of a day. -/
structure DayProfit where
  actual : ActualSalesFacts
  normal : NormalCoupangProfitResult
  manualPart : ManualProfitPart
  combined : CombinedProfit
  normalMarginKrw : Option ℚ

def profitOfDay (facts : DayFacts) : DayProfit :=
  let actual := adjustReportedSalesForManualPurchase facts.reported facts.manual
  let cost := facts.costRule.map costInput
  let ads : CoupangAdInput :=
    { adSpendKrw := facts.performance.spendKrw
      adGeneratedSalesKrw := facts.performance.generatedSalesKrw
      attributedConversionSalesKrw := facts.attribution.attributedSalesKrw }
  let salesFeeRate := facts.salesFeeRule.map (·.salesFeeRate.value)
  let normalAttempt := calculateNormalCoupangProfit actual cost ads salesFeeRate
  let normalReference := if actual.isValid then normalAttempt
    else calculateNormalCoupangProfit (reportedAsActual facts.reported) cost ads salesFeeRate
  let normal := if actual.isValid then normalAttempt
    else if actual.isManualOnly then normalAttempt
    else { normalReference with calculated := none }
  let initialManualPart := calculateManualPurchaseProfitAdjustment facts.manual
  let manualPart :=
    if facts.manual.isSome && !actual.isValid && !actual.isManualOnly then
      { initialManualPart with status := .INCOMPLETE, marginAdjustmentKrw := none }
    else initialManualPart
  { actual
    normal
    manualPart
    combined := combineCoupangProfitParts normal manualPart
    normalMarginKrw := if actual.isValid then normalAttempt.calculated.map (·.marginKrw) else none }

/-- `segments.find((segment) => segment.fulfillmentMethod === method)?.salesQuantity ?? 0`. -/
def basisQuantity (method : CoupangFulfillmentMethod) (segments : List CoupangSalesSegment) : ℚ :=
  ((findSegment method segments).map (·.salesQuantity)).getD 0

/-- `manual ? manual[field] : 0`. -/
def manualField (manual : Option ManualPurchaseFacts) (field : ManualPurchaseFacts → Option ℚ) :
    Option ℚ :=
  match manual with
  | some facts => field facts
  | none => some 0

def profitRowOfDay (facts : DayFacts) : ProductProfitRow :=
  let reported := facts.reported
  let manual := facts.manual
  let profit := profitOfDay facts
  let actual := profit.actual
  let calculated := profit.normal.calculated
  let combined := profit.combined
  let basisSegments := if actual.isValid then actual.segments else reported.segments
  let actualOrganicSalesKrw := actual.netSalesKrw.map (· - facts.attribution.attributedSalesKrw)
  let displaySaleMethods := uniqueNonEmpty
    ((reported.saleMethods ++ (manual.map (·.saleMethods)).getD []).map some)
  let dailyComplete := combined.calculationStatus = .COMPLETE
  { rowType := none
    productId := facts.productId
    productName := facts.productName
    groupId := none
    groupName := none
    childProductCount := none
    children := none
    saleMethod := if displaySaleMethods.length > 1 then some "MIXED" else displaySaleMethods.head?
    matchedSalesLineCount := reported.lineCount
    reportedSalesQuantity := reported.salesQuantity
    reportedOrderCount := reported.orderCount
    reportedSalesKrw := reported.salesKrw
    reportedNetSalesKrw := reported.netSalesKrw
    salesQuantity := actual.salesQuantity
    orderCount := actual.orderCount
    salesKrw := actual.salesKrw
    cancelAmountKrw := reported.cancelAmountKrw
    netSalesKrw := actual.netSalesKrw
    salePriceKrw := facts.resolvedPrice.salePriceKrw
    baseSalePriceKrw := facts.resolvedPrice.baseSalePriceKrw
    promotionPriceKrw := facts.resolvedPrice.promotionPriceKrw
    priceSource := facts.resolvedPrice.priceSource
    priceWarnings := facts.resolvedPrice.priceWarnings
    productCostKrw := calculated.map (·.productCostKrw)
    salesFeeKrw := calculated.map (·.salesFeeKrw)
    shippingCostKrw := calculated.map (·.shippingCostKrw)
    sellerSalesQuantity := (calculated.map (·.sellerSalesQuantity)).getD (basisQuantity .SELLER basisSegments)
    growthSalesQuantity := (calculated.map (·.growthSalesQuantity)).getD (basisQuantity .GROWTH basisSegments)
    sellerShippingCostKrw := calculated.map (·.sellerShippingCostKrw)
    hanaroShippingCostKrw := calculated.map (·.hanaroShippingCostKrw)
    growthInboundCostKrw := calculated.map (·.growthInboundCostKrw)
    growthShippingCostKrw := calculated.map (·.growthShippingCostKrw)
    totalLogisticsCostKrw := calculated.map (·.totalLogisticsCostKrw)
    returnCostKrw := calculated.map (·.returnCostKrw)
    extraCostKrw := calculated.map (·.extraCostKrw)
    vatKrw := calculated.map (·.vatKrw)
    manualPurchaseSalesKrw := manualField manual (·.salesAmountKrw)
    manualPurchaseQuantity := (manual.map (·.quantity)).getD 0
    manualPurchaseProductCostKrw := manualField manual (·.productCostKrw)
    manualPurchaseVendorFeeKrw := manualField manual (·.vendorFeeKrw)
    manualPurchaseCoupangSalesFeeKrw := manualField manual (·.coupangSalesFeeKrw)
    manualPurchaseShippingCostKrw := manualField manual (·.shippingCostKrw)
    manualPurchaseOtherCostKrw := manualField manual (·.otherCostKrw)
    manualPurchaseTotalCostKrw := manualField manual (·.totalCostKrw)
    actualSalesKrw := actual.salesKrw
    actualNetSalesKrw := actual.netSalesKrw
    actualSalesQuantity := actual.salesQuantity
    normalCalculationStatus := profit.normal.status
    manualCalculationStatus := profit.manualPart.status
    calculationStatus := combined.calculationStatus
    adSpendKrw := facts.performance.spendKrw
    adGeneratedSalesKrw := facts.performance.generatedSalesKrw
    adGeneratedQuantity := facts.performance.generatedQuantity
    attributedConversionSalesKrw := facts.attribution.attributedSalesKrw
    attributedConversionQuantity := facts.attribution.attributedQuantity
    organicSalesKrw := actualOrganicSalesKrw
    reportedOrganicSalesKrw := reported.netSalesKrw - facts.attribution.attributedSalesKrw
    actualOrganicSalesKrw
    normalMarginKrw := profit.normalMarginKrw
    totalCostKrw := combined.totalCostKrw
    marginKrw := combined.marginKrw
    knownTotalCostKrw := if dailyComplete then combined.totalCostKrw.getD 0 else 0
    knownMarginKrw := if dailyComplete then combined.marginKrw.getD 0 else 0
    completeProductCount := if dailyComplete then 1 else 0
    incompleteProductCount := if dailyComplete then 0 else 1
    excludedNetSalesKrw := if dailyComplete then 0
      else if actual.isValid then actual.netSalesKrw.getD reported.netSalesKrw else reported.netSalesKrw
    excludedSalesQuantity := if dailyComplete then 0
      else if actual.isValid then actual.salesQuantity.getD reported.salesQuantity
      else reported.salesQuantity
    incompleteNormalCount := if profit.normal.status = .INCOMPLETE then 1 else 0
    incompleteManualCount := if profit.manualPart.status = .INCOMPLETE then 1 else 0
    marginRate := marginRateOf combined.marginKrw actual.netSalesKrw
    roas := safeDivide facts.performance.generatedSalesKrw facts.performance.spendKrw
    warnings := uniqueNonEmpty ((actual.warnings ++ profit.normal.warnings ++
      profit.manualPart.warnings ++ facts.resolvedPrice.priceWarnings ++
      if actualOrganicSalesKrw.any (· < 0) then ["AD_CONVERSION_EXCEEDS_NET_SALES"] else []).map some)
    ruleStatus := if facts.costRule.isNone && hasCoupangSalesSegmentActivity basisSegments
      then .MISSING_COST_RULE else .OK }

/-! ## 5. The rows of a range -/

def productDateKeys (sources : ProfitSources) : List String :=
  (sources.reportedByProductDate.keys ++ sources.manualByProductDate.keys ++
    sources.adPerformanceByProductDate.keys ++ sources.salesAttributionByProductDate.keys).eraseDups

def dailyRows (tables : ProfitTables) (range : DateRange) : Except ApiError (List ProductProfitRow) :=
  (productDateKeys (fetchSources tables range)).mapM fun key =>
    (dayFacts range (fetchSources tables range) key).map profitRowOfDay

def compareNullableNumbersDesc (a b : Option ℚ) : ℚ :=
  match a, b with
  | none, none => 0
  | none, some _ => 1
  | some _, none => -1
  | some x, some y => y - x

section Order

variable (localeCompare : String → String → ℚ)

/-- The order of the rows of a report: `a` may stand before `b`. -/
def profitRowsInOrder (a b : ProductProfitRow) : Prop :=
  let bySales := compareNullableNumbersDesc a.actualNetSalesKrw b.actualNetSalesKrw
  let byName := localeCompare a.productName b.productName
  (if bySales ≠ 0 then bySales else if byName ≠ 0 then byName
    else localeCompare a.productId b.productId) ≤ 0

instance : DecidableRel (profitRowsInOrder localeCompare) := fun _ _ =>
  inferInstanceAs (Decidable (_ ≤ _))

/-- The groups of `groupBy` are never empty. -/
def rowOfDays : List ProductProfitRow → Option ProductProfitRow
  | [] => none
  | first :: rest => some (aggregateCoupangProductDateRows first rest)

def buildProductProfitRows (tables : ProfitTables) (range : DateRange) :
    Except ApiError (List ProductProfitRow) :=
  (dailyRows tables range).map fun rows =>
    ((groupBy (fun row : ProductProfitRow => row.productId) rows).values.filterMap rowOfDays).insertionSort
      (profitRowsInOrder localeCompare)

end Order

/-! ## 6. Completeness of every row -/

variable {key : String}

theorem synced_of_get {rows : List ReportedSalesFactInput} {facts : ReportedSalesFacts}
    (h : (aggregateReportedSalesByProductDate rows).get key = some facts) : facts.Synced :=
  aggregateBy_inv ReportedSalesFacts.Synced
    (fun _ _ _ => (synced_empty _ _ _).addRow _) (fun _ hw _ _ _ => hw.addRow _) h

variable {tables : ProfitTables} {range : DateRange} {facts : DayFacts}

/-- The facts of a day are those of its rows, or empty ones. -/
theorem synced_dayFacts (h : dayFacts range (fetchSources tables range) key = .ok facts) :
    facts.reported.Synced := by
  unfold dayFacts at h
  simp only [bind_eq_ok] at h
  obtain ⟨date, _, hf⟩ := h
  cases hf
  cases e : (fetchSources tables range).reportedByProductDate.get key with
  | none => exact synced_empty _ _ _
  | some reported => exact synced_of_get e

variable {manual : Option ManualPurchaseFacts} {reported : ReportedSalesFacts}

/-- The actual net sales of a day are those of its segments. -/
theorem actual_netSales_eq_sum (h : reported.Synced) {n : ℚ}
    (hn : (adjustReportedSalesForManualPurchase reported manual).netSalesKrw = some n) :
    n = ((adjustReportedSalesForManualPurchase reported manual).segments.map (·.netSalesKrw)).sum := by
  have hzero : (unadjustedSales reported).netSalesKrw = some n →
      n = ((unadjustedSales reported).segments.map (·.netSalesKrw)).sum := fun e => by
    have hs : (unadjustedSales reported).segments = reported.segments := h.resolvedReportedSegments_eq
    rw [hs, ← h.netSalesKrw]
    exact (Option.some.inj e).symm
  cases manual with
  | none => exact hzero hn
  | some m =>
    by_cases hq : m.quantity = 0
    · rw [adjust_quantity_zero hq] at hn ⊢
      exact hzero hn
    · cases hr : reported.hasReportedRows with
      | true =>
        rw [adjust_reported hq hr] at hn ⊢
        cases ha : m.salesAmountKrw with
        | none => rw [ha] at hn; exact (nomatch hn)
        | some a => rw [ha] at hn; exact (Option.some.inj hn).symm
      | false =>
        unfold adjustReportedSalesForManualPurchase at hn ⊢
        simp only [if_neg hq, hr] at hn ⊢
        exact (Option.some.inj hn).symm

theorem isSome_of_not_valid (h : (adjustReportedSalesForManualPurchase reported manual).isValid = false) :
    manual.isSome = true := by
  cases manual with
  | none => exact (nomatch h)
  | some m => rfl

/-- A part that is not INCOMPLETE belongs to a day whose adjustment is valid. -/
theorem profitOfDay_valid (hn : (profitOfDay facts).normal.status ≠ .INCOMPLETE)
    (hm : (profitOfDay facts).manualPart.status ≠ .INCOMPLETE) :
    (profitOfDay facts).actual.isValid = true := by
  cases hv : (profitOfDay facts).actual.isValid with
  | true => rfl
  | false =>
    have hv' : (adjustReportedSalesForManualPurchase facts.reported facts.manual).isValid = false := hv
    have hs := isSome_of_not_valid hv'
    cases ho : (adjustReportedSalesForManualPurchase facts.reported facts.manual).isManualOnly with
    | true =>
      -- nothing was reported: the attempt itself is INCOMPLETE
      simp only [profitOfDay, hv', ho] at hn
      exact absurd (calculateNormal_invalid hv') hn
    | false => simp [profitOfDay, hv', ho, hs] at hm

/-- **The row of a day is consistent.** -/
theorem consistent_profitRowOfDay (h : facts.reported.Synced) :
    RowConsistent (profitRowOfDay facts).toProductProfitFields := by
  have hnormal : (profitOfDay facts).normal.status ≠ .INCOMPLETE →
      (profitOfDay facts).manualPart.status ≠ .INCOMPLETE →
      (profitOfDay facts).actual.netSalesKrw ≠ none ∧ ∃ calculated,
        (profitOfDay facts).normal.calculated = some calculated ∧ calculated.marginKrw =
          ((profitOfDay facts).actual.segments.map (·.netSalesKrw)).sum - calculated.totalCostKrw := by
    intro hn hm
    have hv := profitOfDay_valid hn hm
    have hv' : (adjustReportedSalesForManualPurchase facts.reported facts.manual).isValid = true := hv
    have hattempt := fun hs => (calculateNormal_calculated (profitOfDay facts).actual
      (facts.costRule.map costInput)
      ⟨facts.performance.spendKrw, facts.performance.generatedSalesKrw,
        facts.attribution.attributedSalesKrw⟩
      (facts.salesFeeRule.map (·.salesFeeRate.value)) hs).2
    simp only [profitOfDay, hv'] at hn hattempt ⊢
    exact hattempt hn
  have hmanual : (profitOfDay facts).manualPart.status ≠ .INCOMPLETE →
      ∃ c, (profitOfDay facts).manualPart.totalCostKrw = some c := by
    intro hm
    unfold profitOfDay at hm ⊢
    simp only at hm ⊢
    split at hm
    · exact absurd rfl hm
    · rename_i hc
      rw [if_neg hc]
      exact calculateManual_totalCost hm
  have hiff := combine_complete_iff (fun hn hm => ⟨_, (hnormal hn hm).2.choose_spec.1⟩) hmanual
  refine ⟨hiff.1, hiff.2, fun m c hm hc => ?_⟩
  obtain ⟨hn, hmn, calculated, manualCost, hcalc, rfl, rfl⟩ := combine_margin hm hc
  obtain ⟨hnet, calculated', hcalc', hmargin⟩ := hnormal hn hmn
  obtain rfl : calculated' = calculated := Option.some.inj (hcalc'.symm.trans hcalc)
  obtain ⟨n, hn'⟩ := Option.ne_none_iff_exists'.mp hnet
  refine ⟨n, hn', ?_⟩
  have hsum : n = ((profitOfDay facts).actual.segments.map (·.netSalesKrw)).sum :=
    actual_netSales_eq_sum h hn'
  rw [hmargin, ← hsum]
  ring

/-- The rows of the report, at every level. -/
inductive ProducedRow : ProductProfitRow → Prop where
  | day (tables : ProfitTables) (range : DateRange) (key : String) (facts : DayFacts)
      (h : dayFacts range (fetchSources tables range) key = .ok facts) : ProducedRow (profitRowOfDay facts)
  | range (first : ProductProfitRow) (rest : List ProductProfitRow)
      (h : ∀ row ∈ first :: rest, ProducedRow row) :
      ProducedRow (aggregateCoupangProductDateRows first rest)
  | group (group : ProductGroup) (rows : List ProductProfitRow) (hne : rows ≠ [])
      (h : ∀ row ∈ rows, ProducedRow row) : ProducedRow (aggregateCoupangProductProfitGroup group rows)

variable {rows : List ProductProfitRow}

theorem produced_dailyRows (h : dailyRows tables range = .ok rows) : ∀ row ∈ rows, ProducedRow row := by
  intro row hr
  have hall := mapM_eq_ok_iff.mp h
  obtain ⟨i, hi, rfl⟩ := List.mem_iff_getElem.mp hr
  have hkey := hall.get (i := i) (by rw [hall.length_eq]; exact hi) hi
  obtain ⟨facts, hf, e⟩ := map_eq_ok.mp hkey
  have e' : profitRowOfDay facts = rows[i] := e
  rw [← e']
  exact ProducedRow.day tables range _ facts hf

theorem produced_buildProductProfitRows {localeCompare : String → String → ℚ}
    (h : buildProductProfitRows localeCompare tables range = .ok rows) :
    ∀ row ∈ rows, ProducedRow row := by
  obtain ⟨daily, hd, rfl⟩ := map_eq_ok.mp h
  intro row hr
  rw [List.mem_insertionSort, List.mem_filterMap] at hr
  obtain ⟨days, hdays, e⟩ := hr
  obtain ⟨productId, hg⟩ := OrderedMap.mem_values_iff.mp hdays
  obtain ⟨rfl, _⟩ := get_groupBy_eq_some hg
  have hall : ∀ row ∈ daily.filter (fun row => row.productId = productId), ProducedRow row :=
    fun row hm => produced_dailyRows hd row (List.mem_filter.mp hm).1
  generalize daily.filter (fun row => row.productId = productId) = days at e hall
  cases days with
  | nil => exact (nomatch e)
  | cons first rest =>
    cases e
    exact ProducedRow.range first rest hall

/-- **Completeness and the margin identity survive every aggregation.** -/
theorem profit_rows_consistent {row : ProductProfitRow} (h : ProducedRow row) :
    RowConsistent row.toProductProfitFields := by
  induction h with
  | day tables range key facts h => exact consistent_profitRowOfDay (synced_dayFacts h)
  | range first rest _ ih => exact RowConsistent.dates ih
  | group group rows _ _ ih => exact RowConsistent.group group ih

/-- A sale line of product `p1` on a day, of ten units at 1,000 won. -/
def saleLineOn (id : Nat) (day : Int) : CoupangSaleLine where
  id := id
  uploadBatchId := 1
  rowNumber := id
  sourceRowHash := ""
  logicalKey := "line"
  validationStatus := .VALID
  validationErrors := []
  importVersion := 1
  isCurrent := true
  createdAt := 1
  data := { emptySaleLineData with
    saleDate := some day, coupangProductId := some "p1", productName := "Mug",
    saleMethod := some "판매자배송", salesKrw := 10000, netSalesKrw := 10000, salesQuantity := 10,
    orderCount := 4 }

/-- Two days of sales under one cost rule and one fee rule, two units of the first day bought by the
    shop itself. -/
def twoDayTables : ProfitTables where
  saleLines := [saleLineOn 1 20000, saleLineOn 2 20001]
  adMetrics := []
  manualPurchases :=
    [{ purchaseDate := 20000, coupangProductId := "p1", productDisplayName := "Mug",
       saleMethod := none, quantity := 2, salesAmountKrw := some 2000, baseSalePriceKrw := none,
       vendorFeeTotalKrw := 300, totalCostKrw := 300, memo := none }]
  salesFeeRules :=
    [{ id := "f1", salesFeeRate := ⟨100000⟩, effectiveFrom := 19000, effectiveTo := none,
       note := none, createdAt := 1 }]
  costRules :=
    [{ id := "c1", coupangProductId := "p1", salePriceKrw := ⟨100000⟩, supplyPriceKrw := 0,
       productCostKrw := ⟨20000⟩, salesFeeRate := 0, salesFeeKrw := 0,
       sellerShippingFeeKrw := some ⟨5000⟩, hanaroShippingFeeKrw := none, growthInboundFeeKrw := 0,
       growthShippingFeeKrw := 0, returnRate := 0, returnCostPerUnitKrw := 0, extraCostKrw := 0,
       effectiveFrom := 19000, effectiveTo := none, note := none, createdAt := 1 }]
  products := [{ id := "p1", displayName := "Mug", group := none, sortOrder := 100, isActive := true }]
  promotionPrices := []

/-- The report of both days has one row, a COMPLETE one, and so has the view of its group. -/
theorem profit_rows_consistent_twoDayTables :
    ∃ rows, buildProductProfitRows (fun _ _ => 0) twoDayTables ⟨20000, 20001⟩ = .ok rows ∧
      rows.map (·.calculationStatus) = [.COMPLETE] ∧
      (∀ row ∈ rows, RowConsistent row.toProductProfitFields) ∧
      RowConsistent (aggregateCoupangProductProfitGroup ⟨"g", "Mugs"⟩ rows).toProductProfitFields := by
  have hstatus : (buildProductProfitRows (fun _ _ => 0) twoDayTables ⟨20000, 20001⟩).toOption.map
      (·.map (·.calculationStatus)) = some [.COMPLETE] := by
    decide +kernel
  cases h : buildProductProfitRows (fun _ _ => 0) twoDayTables ⟨20000, 20001⟩ with
  | error e => rw [h] at hstatus; exact (nomatch hstatus)
  | ok rows =>
    rw [h] at hstatus
    have hone := Option.some.inj hstatus
    have hne : rows ≠ [] := by
      rintro rfl
      exact (nomatch hone)
    have hrows := produced_buildProductProfitRows h
    exact ⟨rows, rfl, hone, fun row hr => profit_rows_consistent (hrows row hr),
      profit_rows_consistent (.group _ rows hne hrows)⟩

end AdsManagement.Coupang
