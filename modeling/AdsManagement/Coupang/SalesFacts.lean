/-
  File:      Coupang/SalesFacts.lean
  Subject:   SALES FACTS: what a day of a product sold, as reported and after the manual purchases
             are taken out (domain/coupang-profit-pipeline.ts).

  Numbers are exact: `finiteOrZero` is the identity on them and does not appear. A segment is
  found and changed in place by the source; here its method names it (`modifySegment`).

  * `aggregateReportedSalesByProductDate` -- sale rows to facts with a segment a method;
  * `aggregateManualPurchasesByProductDate` -- purchases to facts with their warnings;
  * `adjustReportedSalesForManualPurchase` -- the reported facts less the manual ones;
  * `sum_addReportedRow` -- what a row adds to the segments;
  * `ReportedSalesFacts.Synced` -- the totals are those of the segments, after any rows.
-/
import Mathlib.Data.Rat.Floor
import AdsManagement.Common.Text
import AdsManagement.Lib.OrderedMap
import AdsManagement.Lib.NullableSum
import AdsManagement.Lib.CappedShares

namespace AdsManagement.Coupang

open Common Lib List

/-! ## 1. Fulfilment methods -/

inductive CoupangFulfillmentMethod where
  | SELLER
  | GROWTH
deriving DecidableEq

/-- `text.includes(part)`. -/
def includesText (text : List Char) (part : String) : Bool :=
  text.tails.any fun rest => part.toList.isPrefixOf rest

def parseExplicitCoupangFulfillmentMethod (value : Option String) : Option CoupangFulfillmentMethod :=
  let normalized := ((value.getD "").toList.map lowerChar).filter fun c => !isJsSpace c
  if includesText normalized "growth" || includesText normalized "rocket" ||
      includesText normalized "로켓" || includesText normalized "그로스" then some .GROWTH
  else if includesText normalized "seller" || includesText normalized "판매자" then some .SELLER
  else none

def normalizeCoupangFulfillmentMethod (value : Option String) : CoupangFulfillmentMethod :=
  (parseExplicitCoupangFulfillmentMethod value).getD .SELLER

/-! ## 2. Reported sales -/

structure ReportedSalesFactInput where
  productId : String
  date : String
  salesKrw : ℚ
  cancelAmountKrw : ℚ
  netSalesKrw : ℚ
  salesQuantity : ℚ
  orderCount : ℚ
  saleMethod : Option String
  lineCount : Option ℚ
  productName : Option String

structure CoupangSalesSegment where
  fulfillmentMethod : CoupangFulfillmentMethod
  sourceSaleMethods : List String
  salesKrw : ℚ
  cancelAmountKrw : ℚ
  netSalesKrw : ℚ
  salesQuantity : ℚ
  orderCount : ℚ
  lineCount : ℚ

structure ReportedSalesFacts where
  productId : String
  date : String
  productName : String
  salesKrw : ℚ
  cancelAmountKrw : ℚ
  netSalesKrw : ℚ
  salesQuantity : ℚ
  orderCount : ℚ
  lineCount : ℚ
  saleMethods : List String
  segments : List CoupangSalesSegment
  hasReportedRows : Bool

def productDateKey (productId date : String) : String := productId ++ "\x00" ++ date

def emptyReportedSalesFacts (productId date productName : String) : ReportedSalesFacts where
  productId := productId
  date := date
  productName := productName
  salesKrw := 0
  cancelAmountKrw := 0
  netSalesKrw := 0
  salesQuantity := 0
  orderCount := 0
  lineCount := 0
  saleMethods := []
  segments := []
  hasReportedRows := false

def emptySalesSegment (fulfillmentMethod : CoupangFulfillmentMethod) : CoupangSalesSegment where
  fulfillmentMethod := fulfillmentMethod
  sourceSaleMethods := []
  salesKrw := 0
  cancelAmountKrw := 0
  netSalesKrw := 0
  salesQuantity := 0
  orderCount := 0
  lineCount := 0

structure SegmentTotals where
  salesKrw : ℚ
  cancelAmountKrw : ℚ
  netSalesKrw : ℚ
  salesQuantity : ℚ
  orderCount : ℚ
  lineCount : ℚ

def SegmentTotals.add (totals : SegmentTotals) (segment : CoupangSalesSegment) : SegmentTotals where
  salesKrw := totals.salesKrw + segment.salesKrw
  cancelAmountKrw := totals.cancelAmountKrw + segment.cancelAmountKrw
  netSalesKrw := totals.netSalesKrw + segment.netSalesKrw
  salesQuantity := totals.salesQuantity + segment.salesQuantity
  orderCount := totals.orderCount + segment.orderCount
  lineCount := totals.lineCount + segment.lineCount

def sumCoupangSalesSegments (segments : List CoupangSalesSegment) : SegmentTotals :=
  segments.foldl .add ⟨0, 0, 0, 0, 0, 0⟩

def syncReportedTotalsFromSegments (reported : ReportedSalesFacts) : ReportedSalesFacts :=
  let totals := sumCoupangSalesSegments reported.segments
  { reported with
    salesKrw := totals.salesKrw
    cancelAmountKrw := totals.cancelAmountKrw
    netSalesKrw := totals.netSalesKrw
    salesQuantity := totals.salesQuantity
    orderCount := totals.orderCount
    lineCount := totals.lineCount }

/-- `if (method && !methods.includes(method)) methods.push(method)`. -/
def pushSaleMethod (methods : List String) (method : Option String) : List String :=
  if isTruthy method && !methods.contains (method.getD "") then methods ++ [method.getD ""]
  else methods

/-- `Math.trunc`. -/
def truncate (value : ℚ) : ℤ := if value < 0 then ⌈value⌉ else ⌊value⌋

def addRowToSegment (row : ReportedSalesFactInput) (segment : CoupangSalesSegment) :
    CoupangSalesSegment where
  fulfillmentMethod := segment.fulfillmentMethod
  sourceSaleMethods := pushSaleMethod segment.sourceSaleMethods row.saleMethod
  salesKrw := segment.salesKrw + row.salesKrw
  cancelAmountKrw := segment.cancelAmountKrw + row.cancelAmountKrw
  netSalesKrw := segment.netSalesKrw + row.netSalesKrw
  salesQuantity := segment.salesQuantity + row.salesQuantity
  orderCount := segment.orderCount + row.orderCount
  lineCount := segment.lineCount + max 0 (truncate (row.lineCount.getD 1) : ℚ)

/-- The row goes to the first segment of its method, or to a new one at the end. -/
def addReportedRow (row : ReportedSalesFactInput) : List CoupangSalesSegment → List CoupangSalesSegment
  | [] => [addRowToSegment row (emptySalesSegment (normalizeCoupangFulfillmentMethod row.saleMethod))]
  | segment :: rest =>
    if segment.fulfillmentMethod = normalizeCoupangFulfillmentMethod row.saleMethod then
      addRowToSegment row segment :: rest
    else segment :: addReportedRow row rest

def addReportedSalesRow (current : ReportedSalesFacts) (row : ReportedSalesFactInput) :
    ReportedSalesFacts :=
  syncReportedTotalsFromSegments
    { current with
      hasReportedRows := true
      saleMethods := pushSaleMethod current.saleMethods row.saleMethod
      segments := addReportedRow row current.segments }

def aggregateReportedSalesByProductDate (rows : List ReportedSalesFactInput) :
    OrderedMap String ReportedSalesFacts :=
  aggregateBy (fun row => productDateKey row.productId row.date)
    (fun row => emptyReportedSalesFacts row.productId row.date
      (row.productName.getD "Coupang Product"))
    addReportedSalesRow rows

/-! ## 3. Manual purchases -/

structure ManualPurchaseFactInput where
  productId : String
  date : String
  quantity : ℚ
  salesAmountKrw : Option ℚ
  baseSalePriceKrw : Option ℚ
  vendorFeeKrw : Option ℚ
  totalCostKrw : Option ℚ
  saleMethod : Option String

structure ManualPurchaseFacts where
  productId : String
  date : String
  quantity : ℚ
  salesAmountKrw : Option ℚ
  productCostKrw : Option ℚ
  vendorFeeKrw : Option ℚ
  coupangSalesFeeKrw : Option ℚ
  shippingCostKrw : Option ℚ
  otherCostKrw : Option ℚ
  totalCostKrw : Option ℚ
  saleMethods : List String
  rowCount : Nat
  warnings : List String
  isCostSnapshotComplete : Bool

inductive ManualSalesSource where
  | STORED
  | BASE_PRICE
  | MISSING
deriving DecidableEq

structure ResolvedManualSales where
  salesAmountKrw : Option ℚ
  source : ManualSalesSource
  warnings : List String

def positiveOrNull (value : Option ℚ) : Option ℚ := value.filter (0 < ·)

def nonNegativeOrNull (value : Option ℚ) : Option ℚ := value.filter (0 ≤ ·)

/-- `Math.round((value + Number.EPSILON) * 100) / 100`. -/
def roundMoney (value : ℚ) : ℚ := ⌊(value + 1 / 2 ^ 52) * 100 + 1 / 2⌋ / 100

/-- `Array.from(new Set(values.filter(Boolean)))`. -/
def unique (values : List (Option String)) : List String :=
  ((values.filterMap id).filter (· ≠ "")).eraseDups

def resolveManualPurchaseSalesAmount (input : ManualPurchaseFactInput) : ResolvedManualSales :=
  if input.quantity = 0 then ⟨some 0, .STORED, []⟩
  else
    match positiveOrNull input.salesAmountKrw with
    | some storedAmount => ⟨some storedAmount, .STORED, []⟩
    | none =>
      match positiveOrNull input.baseSalePriceKrw with
      | some baseSalePriceKrw =>
        if input.quantity.isInt ∧ 0 < input.quantity then
          ⟨some (baseSalePriceKrw * input.quantity), .BASE_PRICE,
            ["MANUAL_PURCHASE_SALES_AMOUNT_LEGACY_FALLBACK"]⟩
        else ⟨none, .MISSING, ["MANUAL_PURCHASE_SALES_AMOUNT_MISSING"]⟩
      | none => ⟨none, .MISSING, ["MANUAL_PURCHASE_SALES_AMOUNT_MISSING"]⟩

/-- The warnings about the amounts and quantities of the purchases of one key. -/
def manualSalesWarnings (group : List ManualPurchaseFactInput) : List String :=
  (group.map resolveManualPurchaseSalesAmount).flatMap (·.warnings) ++
  (if group.length > 1 then ["DUPLICATE_MANUAL_PURCHASE_ROWS"] else []) ++
  (if group.any fun row => !row.quantity.isInt || row.quantity < 0 then
    ["MANUAL_PURCHASE_INVALID_QUANTITY"] else [])

/-- The warnings about the stored costs, from the stored total and the vendor fees. -/
def manualCostWarnings (storedTotalCostKrw totalCostKrw : Option ℚ) : List String :=
  match storedTotalCostKrw, totalCostKrw with
  | some stored, some total =>
    if roundMoney stored ≠ total then ["MANUAL_PURCHASE_TOTAL_COST_MISMATCH"] else []
  | _, _ => ["MANUAL_PURCHASE_COST_SNAPSHOT_INCOMPLETE"]

/-- The facts of the purchases `first :: rest` of one key. -/
def manualPurchaseFacts (first : ManualPurchaseFactInput) (rest : List ManualPurchaseFactInput) :
    ManualPurchaseFacts :=
  let group := first :: rest
  let vendorFeeKrw := strictSum (group.map fun row => nonNegativeOrNull row.vendorFeeKrw)
  let storedTotalCostKrw := strictSum (group.map fun row => nonNegativeOrNull row.totalCostKrw)
  let totalCostKrw := vendorFeeKrw.map roundMoney
  let isCostSnapshotComplete := storedTotalCostKrw.isSome && totalCostKrw.isSome
  let warnings := manualSalesWarnings group ++ manualCostWarnings storedTotalCostKrw totalCostKrw
  { productId := first.productId
    date := first.date
    quantity := plainSum (group.map (·.quantity))
    salesAmountKrw := strictSum (group.map fun row => (resolveManualPurchaseSalesAmount row).salesAmountKrw)
    productCostKrw := some 0
    vendorFeeKrw
    coupangSalesFeeKrw := some 0
    shippingCostKrw := some 0
    otherCostKrw := some 0
    totalCostKrw
    saleMethods := unique (group.map (·.saleMethod))
    rowCount := group.length
    warnings := unique (warnings.map some)
    isCostSnapshotComplete :=
      isCostSnapshotComplete && !warnings.contains "MANUAL_PURCHASE_TOTAL_COST_MISMATCH" }

/-- The groups of the first pass are never empty. -/
def manualFactsOfGroup : List ManualPurchaseFactInput → Option ManualPurchaseFacts
  | [] => none
  | first :: rest => some (manualPurchaseFacts first rest)

def aggregateManualPurchasesByProductDate (rows : List ManualPurchaseFactInput) :
    OrderedMap String ManualPurchaseFacts :=
  OrderedMap.ofList ((groupBy (fun row : ManualPurchaseFactInput =>
    productDateKey row.productId row.date) rows).entries.filterMap fun entry =>
      (manualFactsOfGroup entry.2).map fun facts => (entry.1, facts))

/-! ## 4. Actual sales -/

structure ActualSalesFacts where
  salesKrw : Option ℚ
  netSalesKrw : Option ℚ
  salesQuantity : Option ℚ
  orderCount : ℚ
  segments : List CoupangSalesSegment
  warnings : List String
  isValid : Bool
  isManualOnly : Bool

def blockingManualSalesWarnings : List String :=
  ["DUPLICATE_MANUAL_PURCHASE_ROWS", "MANUAL_PURCHASE_INVALID_QUANTITY",
    "MANUAL_PURCHASE_SALES_AMOUNT_MISSING", "MANUAL_PURCHASE_QUANTITY_EXCEEDS_REPORTED",
    "MANUAL_PURCHASE_SALES_EXCEEDS_REPORTED", "MANUAL_PURCHASE_ADJUSTED_NET_SALES_NEGATIVE",
    "MANUAL_PURCHASE_WITHOUT_REPORTED_SALES"]

def hasBlockingManualSalesWarning (warnings : List String) : Bool :=
  warnings.any fun warning => blockingManualSalesWarnings.contains warning

def hasBlockingManualWarning (warnings : List String) : Bool :=
  hasBlockingManualSalesWarning warnings || warnings.any fun warning =>
    ["MANUAL_PURCHASE_COST_SNAPSHOT_INCOMPLETE",
      "MANUAL_PURCHASE_TOTAL_COST_MISMATCH"].contains warning

def resolvedReportedSegments (reported : ReportedSalesFacts) : List CoupangSalesSegment :=
  if reported.segments ≠ [] then reported.segments
  else if !reported.hasReportedRows ∧ reported.salesKrw = 0 ∧ reported.netSalesKrw = 0 ∧
      reported.salesQuantity = 0 then []
  else
    [{ fulfillmentMethod := normalizeCoupangFulfillmentMethod reported.saleMethods.head?
       sourceSaleMethods := reported.saleMethods
       salesKrw := reported.salesKrw
       cancelAmountKrw := reported.cancelAmountKrw
       netSalesKrw := reported.netSalesKrw
       salesQuantity := reported.salesQuantity
       orderCount := reported.orderCount
       lineCount := reported.lineCount }]

def findSegment (fulfillmentMethod : CoupangFulfillmentMethod) (segments : List CoupangSalesSegment) :
    Option CoupangSalesSegment :=
  segments.find? fun segment => segment.fulfillmentMethod = fulfillmentMethod

/-- A change of the segment that `findSegment` answers. -/
def modifySegment (fulfillmentMethod : CoupangFulfillmentMethod)
    (f : CoupangSalesSegment → CoupangSalesSegment) :
    List CoupangSalesSegment → List CoupangSalesSegment
  | [] => []
  | segment :: rest =>
    if segment.fulfillmentMethod = fulfillmentMethod then f segment :: rest
    else segment :: modifySegment fulfillmentMethod f rest

/-- `field: "salesKrw" | "netSalesKrw"`. -/
inductive SegmentAmount where
  | salesKrw
  | netSalesKrw
deriving DecidableEq

def SegmentAmount.get : SegmentAmount → CoupangSalesSegment → ℚ
  | .salesKrw, segment => segment.salesKrw
  | .netSalesKrw, segment => segment.netSalesKrw

def SegmentAmount.set : SegmentAmount → ℚ → CoupangSalesSegment → CoupangSalesSegment
  | .salesKrw, value, segment => { segment with salesKrw := value }
  | .netSalesKrw, value, segment => { segment with netSalesKrw := value }

/-- A deduction of a quantity from the segment of a method. -/
structure QuantityDeduction where
  fulfillmentMethod : CoupangFulfillmentMethod
  quantity : ℚ
deriving DecidableEq

/-- `max(0, segment[field])` of the segment of a deduction. -/
def availableAmount (field : SegmentAmount) (segments : List CoupangSalesSegment)
    (deduction : QuantityDeduction) : ℚ :=
  max 0 (((findSegment deduction.fulfillmentMethod segments).map field.get).getD 0)

def deductManualSalesAmount (deductions : List QuantityDeduction) (requestedSalesAmountKrw : ℚ)
    (field : SegmentAmount) (segments : List CoupangSalesSegment) : List CoupangSalesSegment :=
  let totalDeductionKrw := max 0 requestedSalesAmountKrw
  let desiredDeductions := cappedShares totalDeductionKrw (deductions.map (·.quantity))
    (deductions.map (availableAmount field segments))
  (deductions.zip desiredDeductions).foldl (fun segments d =>
    modifySegment d.1.fulfillmentMethod (fun s => field.set (field.get s - d.2) s) segments) segments

/-- The state of the loop over the deduction targets. -/
structure DeductionLoop where
  segments : List CoupangSalesSegment
  remainingQuantity : ℚ
  quantityDeductions : List QuantityDeduction

/-- One target: what it has is taken from first, and a negative quantity counts as nothing. -/
def deductQuantity (loop : DeductionLoop) (method : CoupangFulfillmentMethod) : DeductionLoop :=
  if loop.remainingQuantity ≤ 0 then loop
  else
    let availableQuantity := max 0 (((findSegment method loop.segments).map (·.salesQuantity)).getD 0)
    let deductedQuantity := min availableQuantity loop.remainingQuantity
    { segments := modifySegment method
        (fun s => { s with salesQuantity := availableQuantity - deductedQuantity }) loop.segments
      remainingQuantity := loop.remainingQuantity - deductedQuantity
      quantityDeductions :=
        if 0 < deductedQuantity then loop.quantityDeductions ++ [⟨method, deductedQuantity⟩]
        else loop.quantityDeductions }

def deductionTargets (segments : List CoupangSalesSegment) : List CoupangFulfillmentMethod :=
  [.SELLER, .GROWTH].filter fun method => (findSegment method segments).isSome

/-- Where no quantity could be deducted, the amount is taken from the last target. -/
def salesDeductions (targets : List CoupangFulfillmentMethod)
    (quantityDeductions : List QuantityDeduction) : List QuantityDeduction :=
  if quantityDeductions.length > 0 then quantityDeductions
  else targets.getLast?.toList.map fun method => ⟨method, 1⟩

def deductManualPurchaseFromReportedSegments (segments : List CoupangSalesSegment) (quantity : ℚ)
    (salesAmountKrw : Option ℚ) : List CoupangSalesSegment :=
  if quantity ≤ 0 ∨ segments.length = 0 then segments
  else
    let targets := deductionTargets segments
    let loop := targets.foldl deductQuantity ⟨segments, quantity, []⟩
    match salesAmountKrw with
    | none => loop.segments
    | some amount =>
      if targets.length > 0 then
        let deductions := salesDeductions targets loop.quantityDeductions
        deductManualSalesAmount deductions amount .netSalesKrw
          (deductManualSalesAmount deductions amount .salesKrw loop.segments)
      else loop.segments

/-- `if (condition && !warnings.includes(warning)) warnings.push(warning)`. -/
def pushWarning (condition : Prop) [Decidable condition] (warning : String) (warnings : List String) :
    List String :=
  if condition ∧ !warnings.contains warning then warnings ++ [warning] else warnings

/-- The warnings of a day with reported rows, in the order of their checks. -/
def adjustmentWarnings (reported : ReportedSalesFacts) (manual : ManualPurchaseFacts)
    (actualSalesKrw actualNetSalesKrw : Option ℚ) (actualSalesQuantity : ℚ) : List String :=
  let quantityExceeds := "MANUAL_PURCHASE_QUANTITY_EXCEEDS_REPORTED"
  let salesExceed := "MANUAL_PURCHASE_SALES_EXCEEDS_REPORTED"
  let warnings := manual.warnings ++
    (if manual.quantity > reported.salesQuantity then [quantityExceeds] else []) ++
    (if manual.salesAmountKrw.any (reported.salesKrw < ·) then [salesExceed] else [])
  let warnings := pushWarning (actualSalesQuantity < 0) quantityExceeds warnings
  let warnings := pushWarning (actualSalesKrw.any (· < 0)) salesExceed warnings
  warnings ++ (if actualNetSalesKrw.any (· < 0) then ["MANUAL_PURCHASE_ADJUSTED_NET_SALES_NEGATIVE"]
    else [])

def adjustReportedSalesForManualPurchase (reported : ReportedSalesFacts)
    (manual : Option ManualPurchaseFacts) : ActualSalesFacts :=
  let reportedSegments := resolvedReportedSegments reported
  let unadjusted : ActualSalesFacts :=
    { salesKrw := some reported.salesKrw
      netSalesKrw := some reported.netSalesKrw
      salesQuantity := some reported.salesQuantity
      orderCount := reported.orderCount
      segments := reportedSegments
      warnings := []
      isValid := true
      isManualOnly := false }
  match manual with
  | none => unadjusted
  | some manual =>
    if manual.quantity = 0 then unadjusted
    else if !reported.hasReportedRows then
      let warnings := manual.warnings ++ ["MANUAL_PURCHASE_WITHOUT_REPORTED_SALES"]
      { salesKrw := some 0
        netSalesKrw := some 0
        salesQuantity := some 0
        orderCount := 0
        segments := []
        warnings := unique (warnings.map some)
        isValid := !hasBlockingManualSalesWarning warnings
        isManualOnly := true }
    else
      let adjustedSegments := deductManualPurchaseFromReportedSegments reportedSegments
        manual.quantity manual.salesAmountKrw
      let segmentTotals := sumCoupangSalesSegments adjustedSegments
      let actualSalesKrw := manual.salesAmountKrw.map fun _ => segmentTotals.salesKrw
      let actualNetSalesKrw := manual.salesAmountKrw.map fun _ => segmentTotals.netSalesKrw
      let actualSalesQuantity := reported.salesQuantity - manual.quantity
      let warnings := adjustmentWarnings reported manual actualSalesKrw actualNetSalesKrw
        actualSalesQuantity
      { salesKrw := actualSalesKrw
        netSalesKrw := actualNetSalesKrw
        salesQuantity := some actualSalesQuantity
        orderCount := reported.orderCount
        segments := adjustedSegments
        warnings := unique (warnings.map some)
        isValid := !hasBlockingManualSalesWarning warnings
        isManualOnly := false }

/-! ## 5. What a day was reported to sell -/

theorem foldl_segmentTotals (segments : List CoupangSalesSegment) (t : SegmentTotals) :
    segments.foldl .add t =
    { salesKrw := t.salesKrw + (segments.map (·.salesKrw)).sum
      cancelAmountKrw := t.cancelAmountKrw + (segments.map (·.cancelAmountKrw)).sum
      netSalesKrw := t.netSalesKrw + (segments.map (·.netSalesKrw)).sum
      salesQuantity := t.salesQuantity + (segments.map (·.salesQuantity)).sum
      orderCount := t.orderCount + (segments.map (·.orderCount)).sum
      lineCount := t.lineCount + (segments.map (·.lineCount)).sum } := by
  induction segments generalizing t with
  | nil => simp
  | cons s rest ih => simp [ih, SegmentTotals.add, add_assoc]

theorem sumCoupangSalesSegments_eq (segments : List CoupangSalesSegment) :
    sumCoupangSalesSegments segments =
    { salesKrw := (segments.map (·.salesKrw)).sum
      cancelAmountKrw := (segments.map (·.cancelAmountKrw)).sum
      netSalesKrw := (segments.map (·.netSalesKrw)).sum
      salesQuantity := (segments.map (·.salesQuantity)).sum
      orderCount := (segments.map (·.orderCount)).sum
      lineCount := (segments.map (·.lineCount)).sum } := by
  rw [sumCoupangSalesSegments, foldl_segmentTotals]
  simp

section Amount

variable {g : ReportedSalesFactInput → ℚ} {f : CoupangSalesSegment → ℚ}
  (hf : ∀ row s, s.fulfillmentMethod = normalizeCoupangFulfillmentMethod row.saleMethod →
    f (addRowToSegment row s) = f s + g row) (h0 : ∀ m, f (emptySalesSegment m) = 0)
include hf h0

/-- **What a row adds to the segments**: an amount of a segment grows by the row's, when the row
    goes to it. -/
theorem sum_addReportedRow (row : ReportedSalesFactInput) (segments : List CoupangSalesSegment) :
    ((addReportedRow row segments).map f).sum = (segments.map f).sum + g row := by
  induction segments with
  | nil =>
    have h := hf row (emptySalesSegment (normalizeCoupangFulfillmentMethod row.saleMethod)) rfl
    simp [addReportedRow, h, h0]
  | cons s rest ih =>
    unfold addReportedRow
    split
    · rename_i h
      rw [map_cons, sum_cons, hf row s h, map_cons, sum_cons]
      ring
    · rw [map_cons, sum_cons, ih, map_cons, sum_cons]
      ring

theorem sum_foldl_addReportedSalesRow (rows : List ReportedSalesFactInput) (facts : ReportedSalesFacts) :
    ((rows.foldl addReportedSalesRow facts).segments.map f).sum =
      (facts.segments.map f).sum + (rows.map g).sum := by
  induction rows generalizing facts with
  | nil => simp
  | cons row rest ih =>
    rw [foldl_cons, ih, map_cons, sum_cons]
    have h := sum_addReportedRow hf h0 row facts.segments
    show ((addReportedRow row facts.segments).map f).sum + _ = _
    rw [h]
    ring

end Amount

theorem mem_methods_addReportedRow (row : ReportedSalesFactInput)
    (segments : List CoupangSalesSegment) (m : CoupangFulfillmentMethod) :
    m ∈ (addReportedRow row segments).map (·.fulfillmentMethod) ↔
      m = normalizeCoupangFulfillmentMethod row.saleMethod ∨
        m ∈ segments.map (·.fulfillmentMethod) := by
  induction segments with
  | nil => simp [addReportedRow, addRowToSegment, emptySalesSegment]
  | cons s rest ih =>
    unfold addReportedRow
    split
    · rename_i h
      simp only [map_cons, mem_cons, addRowToSegment, h]
      tauto
    · simp only [map_cons, mem_cons]
      tauto

theorem nodup_methods_addReportedRow (row : ReportedSalesFactInput)
    {segments : List CoupangSalesSegment} (h : (segments.map (·.fulfillmentMethod)).Nodup) :
    ((addReportedRow row segments).map (·.fulfillmentMethod)).Nodup := by
  induction segments with
  | nil => simp [addReportedRow]
  | cons s rest ih =>
    obtain ⟨hs, hr⟩ := nodup_cons.mp h
    unfold addReportedRow
    split
    · exact h
    · rename_i hne
      refine nodup_cons.mpr ⟨fun hm => ?_, ih hr⟩
      rcases (mem_methods_addReportedRow row rest _).mp hm with e | hm
      · exact hne e
      · exact hs hm

/-- The facts the rows of one key add up to: the totals are those of the segments, and no method
    has two segments. -/
structure ReportedSalesFacts.Synced (facts : ReportedSalesFacts) : Prop where
  salesKrw : facts.salesKrw = (facts.segments.map (·.salesKrw)).sum
  netSalesKrw : facts.netSalesKrw = (facts.segments.map (·.netSalesKrw)).sum
  salesQuantity : facts.salesQuantity = (facts.segments.map (·.salesQuantity)).sum
  nodup : (facts.segments.map (·.fulfillmentMethod)).Nodup
  nonempty : facts.hasReportedRows = true → facts.segments ≠ []

theorem synced_empty (productId date productName : String) :
    (emptyReportedSalesFacts productId date productName).Synced :=
  ⟨rfl, rfl, rfl, nodup_nil, nofun⟩

variable {facts : ReportedSalesFacts}

theorem ReportedSalesFacts.Synced.addRow (h : facts.Synced) (row : ReportedSalesFactInput) :
    (addReportedSalesRow facts row).Synced := by
  have hsum := sumCoupangSalesSegments_eq (addReportedRow row facts.segments)
  refine ⟨congrArg SegmentTotals.salesKrw hsum, congrArg SegmentTotals.netSalesKrw hsum,
    congrArg SegmentTotals.salesQuantity hsum, nodup_methods_addReportedRow row h.nodup, fun _ => ?_⟩
  show addReportedRow row facts.segments ≠ []
  cases facts.segments with
  | nil => exact cons_ne_nil _ _
  | cons s rest =>
    unfold addReportedRow
    split <;> exact cons_ne_nil _ _

theorem ReportedSalesFacts.Synced.foldl (h : facts.Synced) (rows : List ReportedSalesFactInput) :
    (rows.foldl addReportedSalesRow facts).Synced := by
  induction rows generalizing facts with
  | nil => exact h
  | cons row rest ih => exact ih (h.addRow row)

section

variable (rows : List ReportedSalesFactInput)

theorem hasReportedRows_foldl (facts : ReportedSalesFacts) :
    (rows.foldl addReportedSalesRow facts).hasReportedRows =
      (facts.hasReportedRows || !rows.isEmpty) := by
  induction rows generalizing facts with
  | nil => simp
  | cons row rest ih => rw [foldl_cons, ih]; simp [addReportedSalesRow, syncReportedTotalsFromSegments]

/-- The reported facts of a key, empty ones where there are none. -/
def reportedSalesFactsAt (productId date productName : String) : ReportedSalesFacts :=
  ((aggregateReportedSalesByProductDate rows).get (productDateKey productId date)).getD
    (emptyReportedSalesFacts productId date productName)

/-- The rows of a key. -/
def rowsAt (productId date : String) : List ReportedSalesFactInput :=
  rows.filter fun row => productDateKey row.productId row.date = productDateKey productId date

theorem reportedSalesFactsAt_eq (productId date productName : String) :
    ∃ p d n, reportedSalesFactsAt rows productId date productName =
      (rowsAt rows productId date).foldl addReportedSalesRow (emptyReportedSalesFacts p d n) := by
  unfold reportedSalesFactsAt aggregateReportedSalesByProductDate rowsAt
  rw [get_aggregateBy]
  cases rows.filter fun row =>
      productDateKey row.productId row.date = productDateKey productId date with
  | nil => exact ⟨productId, date, productName, rfl⟩
  | cons row rest => exact ⟨_, _, _, rfl⟩

end

section

variable (purchases : List ManualPurchaseFactInput) (productId date : String)

/-- The manual facts of a key. -/
def manualPurchaseFactsAt : Option ManualPurchaseFacts :=
  (aggregateManualPurchasesByProductDate purchases).get (productDateKey productId date)

def purchasesAt : List ManualPurchaseFactInput :=
  purchases.filter fun row => productDateKey row.productId row.date = productDateKey productId date

theorem manualPurchaseFactsAt_eq : manualPurchaseFactsAt purchases productId date =
      manualFactsOfGroup (purchasesAt purchases productId date) := by
  unfold manualPurchaseFactsAt aggregateManualPurchasesByProductDate purchasesAt
  rw [OrderedMap.get_ofList_filterMap, get_groupBy]
  split
  · next h => rw [h]; rfl
  · rfl

end

end AdsManagement.Coupang
