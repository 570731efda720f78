/-
  File:      Coupang/ProfitCalculator.lean
  Subject:   THE PROFIT OF A DAY: costs, VAT, fees and margin of the actual sales of a product and
             day (domain/coupang-profit-calculator.ts and the second half of
             domain/coupang-profit-pipeline.ts).

  * `calculateCoupangProfitByAccountingBases` -- sums over segments;
  * `calculateNormalCoupangProfit`, `calculateManualPurchaseProfitAdjustment`,
    `combineCoupangProfitParts` -- the parts of a day, each with its status;
  * `combine_complete_iff` -- a day is COMPLETE exactly when it has a margin and a total cost, and
    the margin is then the net sales less the cost.
-/
import AdsManagement.Common.Decimal
import AdsManagement.Coupang.ManualAdjustment

namespace AdsManagement.Coupang

open Common Lib

/-! ## 1. The calculator -/

/-- `none` is an absent field, `some none` a `null`. -/
structure CoupangCostInput where
  productCostKrw : ℚ
  sellerShippingFeeKrw : Option (Option ℚ)
  hanaroShippingFeeKrw : Option (Option ℚ)
  growthInboundFeeKrw : Option ℚ
  growthShippingFeeKrw : Option ℚ
  returnRate : Option ℚ
  returnCostPerUnitKrw : Option ℚ
  extraCostKrw : Option ℚ

/-- The ads of a product, as amounts. -/
structure CoupangAdInput where
  adSpendKrw : ℚ
  adGeneratedSalesKrw : ℚ
  attributedConversionSalesKrw : ℚ

/-- Sales by one method. -/
structure CoupangSalesInput where
  saleMethod : Option String
  netSalesKrw : ℚ
  salesQuantity : ℚ

/-- The options of the formula. -/
structure CoupangProfitOptions where
  salesFeeRate : ℚ
  includeReturnCost : Option Bool
  useGrowthCost : Option Bool

/-- The amounts of the formula. -/
structure CoupangProfitResult where
  netSalesKrw : ℚ
  productCostKrw : ℚ
  salesFeeKrw : ℚ
  shippingCostKrw : ℚ
  returnCostKrw : ℚ
  extraCostKrw : ℚ
  vatKrw : ℚ
  adSpendKrw : ℚ
  totalCostKrw : ℚ
  marginKrw : ℚ
  marginRate : Option ℚ
  roas : Option ℚ
  organicSalesKrw : ℚ
  warnings : List String

/-- The amounts of several segments, by method. -/
structure CoupangSegmentProfitResult extends CoupangProfitResult where
  sellerSalesQuantity : ℚ
  growthSalesQuantity : ℚ
  sellerShippingCostKrw : ℚ
  hanaroShippingCostKrw : ℚ
  growthInboundCostKrw : ℚ
  growthShippingCostKrw : ℚ
  totalLogisticsCostKrw : ℚ

/-- `finiteNumber` of a field that may be absent or `null`. -/
def feeOrZero (fee : Option (Option ℚ)) : ℚ := fee.join.getD 0

/-- Sales are VAT-included: a tenth on top is an eleventh of the whole. -/
def vatFromVatIncludedAmount (amountKrw : ℚ) : ℚ := amountKrw / 11

/-- Whether Coupang ships. -/
def isGrowthSaleMethod (value : Option String) : Bool :=
  normalizeCoupangFulfillmentMethod value = .GROWTH

/-- The shipping of a quantity, by method. -/
def shippingCost (saleMethod : Option String) (cost : CoupangCostInput) (quantity : ℚ)
    (useGrowthCost : Option Bool) : ℚ :=
  if useGrowthCost = some false then feeOrZero cost.sellerShippingFeeKrw * quantity
  else if isGrowthSaleMethod saleMethod then
    (feeOrZero cost.hanaroShippingFeeKrw + cost.growthInboundFeeKrw.getD 0 +
      cost.growthShippingFeeKrw.getD 0) * quantity
  else feeOrZero cost.sellerShippingFeeKrw * quantity

/-- The plain formula, for sales by one method. -/
def calculateCoupangProfit (sales : CoupangSalesInput) (cost : CoupangCostInput)
    (ads : CoupangAdInput) (options : CoupangProfitOptions) : CoupangProfitResult :=
  let quantity := sales.salesQuantity
  let netSalesKrw := sales.netSalesKrw
  let productCostKrw := cost.productCostKrw * quantity
  let salesFeeKrw := netSalesKrw * options.salesFeeRate
  let shippingCostKrw := shippingCost sales.saleMethod cost quantity options.useGrowthCost
  let returnCostKrw := if options.includeReturnCost = some false then 0
    else quantity * cost.returnRate.getD 0 * cost.returnCostPerUnitKrw.getD 0
  let extraCostKrw := cost.extraCostKrw.getD 0 * quantity
  let vatKrw := vatFromVatIncludedAmount netSalesKrw
  let adSpendKrw := ads.adSpendKrw
  let totalCostKrw := productCostKrw + salesFeeKrw + shippingCostKrw + returnCostKrw +
    extraCostKrw + vatKrw + adSpendKrw
  let marginKrw := netSalesKrw - totalCostKrw
  let organicSalesKrw := netSalesKrw - ads.attributedConversionSalesKrw
  { netSalesKrw
    productCostKrw
    salesFeeKrw
    shippingCostKrw
    returnCostKrw
    extraCostKrw
    vatKrw
    adSpendKrw
    totalCostKrw
    marginKrw
    marginRate := safeDivide marginKrw netSalesKrw
    roas := safeDivide ads.adGeneratedSalesKrw adSpendKrw
    organicSalesKrw
    warnings := if organicSalesKrw < 0 then ["AD_CONVERSION_EXCEEDS_NET_SALES"] else [] }

/-- The text of a method. -/
def CoupangFulfillmentMethod.text : CoupangFulfillmentMethod → String
  | .SELLER => "SELLER"
  | .GROWTH => "GROWTH"

/-- The profit of one incurred segment, without ads. -/
def segmentProfit (cost : CoupangCostInput) (salesFeeRate : ℚ) (includeReturnCost : Option Bool)
    (segment : CoupangSalesSegment) : CoupangProfitResult :=
  calculateCoupangProfit
    { saleMethod := some segment.fulfillmentMethod.text
      netSalesKrw := segment.netSalesKrw
      salesQuantity := segment.salesQuantity }
    cost
    { adSpendKrw := 0, adGeneratedSalesKrw := 0, attributedConversionSalesKrw := 0 }
    { salesFeeRate
      includeReturnCost
      useGrowthCost := some true }

/-- The quantity sold by a method. -/
def methodQuantity (method : CoupangFulfillmentMethod) (segments : List CoupangSalesSegment) : ℚ :=
  plainSum ((segments.filter fun s => s.fulfillmentMethod = method).map (·.salesQuantity))

/-- The formula over segments: sales from those recognised, costs from those incurred. -/
def calculateCoupangProfitByAccountingBases (recognizedSegments incurredSegments : List CoupangSalesSegment)
    (cost : CoupangCostInput) (ads : CoupangAdInput) (salesFeeRate : ℚ)
    (includeReturnCost : Option Bool) : CoupangSegmentProfitResult :=
  let incurred := incurredSegments.map (segmentProfit cost salesFeeRate includeReturnCost)
  let netSalesKrw := plainSum (recognizedSegments.map (·.netSalesKrw))
  let productCostKrw := plainSum (incurred.map (·.productCostKrw))
  let salesFeeKrw := plainSum (incurred.map (·.salesFeeKrw))
  let sellerSalesQuantity := methodQuantity .SELLER incurredSegments
  let growthSalesQuantity := methodQuantity .GROWTH incurredSegments
  let sellerShippingCostKrw := feeOrZero cost.sellerShippingFeeKrw * sellerSalesQuantity
  let hanaroShippingCostKrw := feeOrZero cost.hanaroShippingFeeKrw * growthSalesQuantity
  let growthInboundCostKrw := cost.growthInboundFeeKrw.getD 0 * growthSalesQuantity
  let growthShippingCostKrw := cost.growthShippingFeeKrw.getD 0 * growthSalesQuantity
  let totalLogisticsCostKrw := sellerShippingCostKrw + hanaroShippingCostKrw +
    growthInboundCostKrw + growthShippingCostKrw
  let shippingCostKrw := totalLogisticsCostKrw
  let returnCostKrw := plainSum (incurred.map (·.returnCostKrw))
  let extraCostKrw := plainSum (incurred.map (·.extraCostKrw))
  let vatKrw := plainSum (incurred.map (·.vatKrw))
  let adSpendKrw := ads.adSpendKrw
  let totalCostKrw := productCostKrw + salesFeeKrw + shippingCostKrw + returnCostKrw +
    extraCostKrw + vatKrw + adSpendKrw
  let marginKrw := netSalesKrw - totalCostKrw
  let organicSalesKrw := netSalesKrw - ads.attributedConversionSalesKrw
  { netSalesKrw
    productCostKrw
    salesFeeKrw
    shippingCostKrw
    returnCostKrw
    extraCostKrw
    vatKrw
    adSpendKrw
    totalCostKrw
    marginKrw
    marginRate := safeDivide marginKrw netSalesKrw
    roas := safeDivide ads.adGeneratedSalesKrw adSpendKrw
    organicSalesKrw
    warnings := if organicSalesKrw < 0 then ["AD_CONVERSION_EXCEEDS_NET_SALES"] else []
    sellerSalesQuantity
    growthSalesQuantity
    sellerShippingCostKrw
    hanaroShippingCostKrw
    growthInboundCostKrw
    growthShippingCostKrw
    totalLogisticsCostKrw }

/-- Both bases are the same segments. -/
def calculateCoupangProfitBySegments (segments : List CoupangSalesSegment) (cost : CoupangCostInput)
    (ads : CoupangAdInput) (salesFeeRate : ℚ) (includeReturnCost : Option Bool) :
    CoupangSegmentProfitResult :=
  calculateCoupangProfitByAccountingBases segments segments cost ads salesFeeRate includeReturnCost

/-! ## 2. The parts of a day -/

/-- How far a part could be calculated. -/
inductive CoupangCalculationPartStatus where
  | COMPLETE
  | INCOMPLETE
  | NOT_APPLICABLE
deriving DecidableEq

/-- How far a row could be calculated. -/
inductive CalculationStatus where
  | COMPLETE
  | INCOMPLETE
deriving DecidableEq

/-- The part of the sales of customers. -/
structure NormalCoupangProfitResult where
  status : CoupangCalculationPartStatus
  calculated : Option CoupangSegmentProfitResult
  warnings : List String

/-- Whether anything was sold. -/
def hasCoupangSalesSegmentActivity (segments : List CoupangSalesSegment) : Bool :=
  segments.any fun segment => segment.netSalesKrw ≠ 0 || segment.salesQuantity ≠ 0

/-- The fees that the methods in use lack. -/
def missingCoupangLogisticsCostWarnings (segments : List CoupangSalesSegment)
    (cost : CoupangCostInput) : List String :=
  let hasSellerSales := segments.any fun s => s.fulfillmentMethod = .SELLER && 0 < s.salesQuantity
  let hasGrowthSales := segments.any fun s => s.fulfillmentMethod = .GROWTH && 0 < s.salesQuantity
  (if hasSellerSales && cost.sellerShippingFeeKrw = some none then ["SELLER_SHIPPING_FEE_MISSING"]
    else []) ++
  (if hasGrowthSales && cost.hanaroShippingFeeKrw = some none then ["HANARO_SHIPPING_FEE_MISSING"]
    else [])

/-- No costs at all. -/
def emptyCostInput : CoupangCostInput where
  productCostKrw := 0
  sellerShippingFeeKrw := none
  hanaroShippingFeeKrw := none
  growthInboundFeeKrw := none
  growthShippingFeeKrw := none
  returnRate := none
  returnCostPerUnitKrw := none
  extraCostKrw := none

/-- The sales of customers, where sales, costs and fee are known. -/
def calculateNormalCoupangProfit (actual : ActualSalesFacts) (cost : Option CoupangCostInput)
    (ads : CoupangAdInput) (salesFeeRate : Option ℚ) : NormalCoupangProfitResult :=
  if !actual.isValid || actual.netSalesKrw.isNone || actual.salesQuantity.isNone then
    ⟨.INCOMPLETE, none, []⟩
  else if salesFeeRate.isNone && !actual.isManualOnly then
    ⟨.INCOMPLETE, none, ["COUPANG_GLOBAL_SALES_FEE_RATE_MISSING"]⟩
  else if !hasCoupangSalesSegmentActivity actual.segments then
    let calculated := calculateCoupangProfitBySegments actual.segments emptyCostInput ads
      (salesFeeRate.getD 0) (some false)
    ⟨.NOT_APPLICABLE, some calculated, calculated.warnings⟩
  else
    match salesFeeRate, cost with
    | none, _ => ⟨.INCOMPLETE, none, ["COUPANG_GLOBAL_SALES_FEE_RATE_MISSING"]⟩
    | some _, none => ⟨.INCOMPLETE, none, ["NORMAL_COST_RULE_MISSING"]⟩
    | some salesFeeRate, some cost =>
      let missingLogisticsWarnings := missingCoupangLogisticsCostWarnings actual.segments cost
      if missingLogisticsWarnings.length > 0 then ⟨.INCOMPLETE, none, missingLogisticsWarnings⟩
      else
        let calculated := calculateCoupangProfitBySegments actual.segments cost ads salesFeeRate
          (some true)
        ⟨.COMPLETE, some calculated, calculated.warnings⟩

/-- The part of the shop's own purchases. -/
structure ManualProfitPart where
  status : CoupangCalculationPartStatus
  totalCostKrw : Option ℚ
  marginAdjustmentKrw : Option ℚ
  warnings : List String

/-- What the own purchases cost. -/
def calculateManualPurchaseProfitAdjustment (manual : Option ManualPurchaseFacts) : ManualProfitPart :=
  match manual with
  | none => ⟨.NOT_APPLICABLE, some 0, some 0, []⟩
  | some manual =>
    if manual.quantity = 0 then ⟨.NOT_APPLICABLE, some 0, some 0, []⟩
    else
      match manual.totalCostKrw with
      | none => ⟨.INCOMPLETE, none, none, manual.warnings⟩
      | some totalCostKrw =>
        if hasBlockingManualWarning manual.warnings || !manual.isCostSnapshotComplete then
          ⟨.INCOMPLETE, some totalCostKrw, none, manual.warnings⟩
        else ⟨.COMPLETE, some totalCostKrw, some (-totalCostKrw), manual.warnings⟩

/-- Both parts together. -/
structure CombinedProfit where
  calculationStatus : CalculationStatus
  totalCostKrw : Option ℚ
  marginKrw : Option ℚ

/-- The sum of the parts, where both are known. -/
def combineCoupangProfitParts (normal : NormalCoupangProfitResult) (manual : ManualProfitPart) :
    CombinedProfit :=
  let calculationStatus : CalculationStatus :=
    if normal.status = .INCOMPLETE ∨ manual.status = .INCOMPLETE then .INCOMPLETE else .COMPLETE
  match calculationStatus, normal.calculated, manual.totalCostKrw with
  | .COMPLETE, some calculated, some manualCostKrw =>
    ⟨calculationStatus, some (calculated.totalCostKrw + manualCostKrw),
      some (calculated.marginKrw - manualCostKrw)⟩
  | _, _, _ => ⟨calculationStatus, none, none⟩

/-! ## 3. Completeness of a day -/

theorem margin_eq_netSales_sub_cost (segments : List CoupangSalesSegment) (cost : CoupangCostInput)
    (ads : CoupangAdInput) (rate : ℚ) (includeReturnCost : Option Bool) :
    (calculateCoupangProfitBySegments segments cost ads rate includeReturnCost).marginKrw =
      (segments.map (·.netSalesKrw)).sum -
        (calculateCoupangProfitBySegments segments cost ads rate includeReturnCost).totalCostKrw := by
  rw [← plainSum_eq_sum]
  rfl

/-- A part that is not INCOMPLETE was calculated, from valid sales. -/
theorem calculateNormal_calculated (actual : ActualSalesFacts) (cost : Option CoupangCostInput)
    (ads : CoupangAdInput) (rate : Option ℚ)
    (h : (calculateNormalCoupangProfit actual cost ads rate).status ≠ .INCOMPLETE) :
    actual.isValid = true ∧ actual.netSalesKrw ≠ none ∧ ∃ calculated,
      (calculateNormalCoupangProfit actual cost ads rate).calculated = some calculated ∧
      calculated.marginKrw = (actual.segments.map (·.netSalesKrw)).sum - calculated.totalCostKrw := by
  unfold calculateNormalCoupangProfit at h ⊢
  split at h
  · exact absurd rfl h
  · rename_i hv
    have hvalid : actual.isValid = true := by
      cases e : actual.isValid with
      | true => rfl
      | false => rw [e] at hv; exact absurd rfl hv
    have hnet : actual.netSalesKrw ≠ none := fun e => hv (by rw [e]; simp)
    rw [if_neg hv]
    split at h
    · exact absurd rfl h
    · rename_i hr
      rw [if_neg hr]
      split at h
      · rename_i ha
        rw [if_pos ha]
        exact ⟨hvalid, hnet, _, rfl, margin_eq_netSales_sub_cost _ _ _ _ _⟩
      · rename_i ha
        rw [if_neg ha]
        cases rate with
        | none => exact absurd rfl h
        | some rate =>
          cases cost with
          | none => exact absurd rfl h
          | some cost =>
            simp only at h ⊢
            split at h
            · exact absurd rfl h
            · rename_i hm
              rw [if_neg hm]
              exact ⟨hvalid, hnet, _, rfl, margin_eq_netSales_sub_cost _ _ _ _ _⟩

theorem calculateNormal_invalid {actual : ActualSalesFacts} {cost : Option CoupangCostInput}
    {ads : CoupangAdInput} {rate : Option ℚ} (h : actual.isValid = false) :
    (calculateNormalCoupangProfit actual cost ads rate).status = .INCOMPLETE := by
  unfold calculateNormalCoupangProfit
  rw [h]
  rfl

theorem calculateManual_totalCost {manual : Option ManualPurchaseFacts}
    (h : (calculateManualPurchaseProfitAdjustment manual).status ≠ .INCOMPLETE) :
    ∃ c, (calculateManualPurchaseProfitAdjustment manual).totalCostKrw = some c := by
  unfold calculateManualPurchaseProfitAdjustment at h ⊢
  cases manual with
  | none => exact ⟨0, rfl⟩
  | some m =>
    simp only at h ⊢
    split at h
    · next hq => rw [if_pos hq]; exact ⟨0, rfl⟩
    · rename_i hq
      rw [if_neg hq]
      cases hc : m.totalCostKrw with
      | none => rw [hc] at h; exact absurd rfl h
      | some c =>
        simp only
        split
        · exact ⟨c, rfl⟩
        · exact ⟨c, rfl⟩

variable {normal : NormalCoupangProfitResult} {manual : ManualProfitPart}

/-- **A day is COMPLETE exactly when it has a margin, exactly when it has a total cost**, as soon as
    the parts that are not INCOMPLETE were calculated. -/
theorem combine_complete_iff (hn : normal.status ≠ .INCOMPLETE → manual.status ≠ .INCOMPLETE →
      ∃ calculated, normal.calculated = some calculated)
    (hm : manual.status ≠ .INCOMPLETE → ∃ c, manual.totalCostKrw = some c) :
    ((combineCoupangProfitParts normal manual).calculationStatus = .COMPLETE ↔
      (combineCoupangProfitParts normal manual).marginKrw ≠ none) ∧
    ((combineCoupangProfitParts normal manual).calculationStatus = .COMPLETE ↔
      (combineCoupangProfitParts normal manual).totalCostKrw ≠ none) := by
  unfold combineCoupangProfitParts
  by_cases h : normal.status = .INCOMPLETE ∨ manual.status = .INCOMPLETE
  · simp [h]
  · obtain ⟨h1, h2⟩ := not_or.mp h
    obtain ⟨calculated, hc⟩ := hn h1 h2
    obtain ⟨c, hc'⟩ := hm h2
    simp [h1, h2, hc, hc']

theorem combine_margin {m c : ℚ} (hm : (combineCoupangProfitParts normal manual).marginKrw = some m)
    (hc : (combineCoupangProfitParts normal manual).totalCostKrw = some c) :
    normal.status ≠ .INCOMPLETE ∧ manual.status ≠ .INCOMPLETE ∧
      ∃ calculated manualCost, normal.calculated = some calculated ∧
        m = calculated.marginKrw - manualCost ∧ c = calculated.totalCostKrw + manualCost := by
  unfold combineCoupangProfitParts at hm hc
  by_cases h : normal.status = .INCOMPLETE ∨ manual.status = .INCOMPLETE
  · simp [h] at hm
  · obtain ⟨h1, h2⟩ := not_or.mp h
    cases e : normal.calculated with
    | none => simp [e] at hm
    | some calculated =>
      cases e' : manual.totalCostKrw with
      | none => simp [e'] at hm
      | some manualCost =>
        simp only [h, e, e'] at hm hc
        exact ⟨h1, h2, calculated, manualCost, rfl, (Option.some.inj hm).symm,
          (Option.some.inj hc).symm⟩

end AdsManagement.Coupang
