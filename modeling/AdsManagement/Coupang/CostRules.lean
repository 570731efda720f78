/-
  File:      Coupang/CostRules.lean
  Subject:   COST RULES AND SALES FEE RULES: the dated rules of a product and of the shop, and
             every operation that writes them (coupang.service.ts).

  A transaction that throws leaves the tables as they were: an operation returns the new tables
  or the error. Advisory locks only order the transactions and are left out, and so are the
  product, group and mapping columns the same requests may change. Ids and `createdAt` come
  from the database.

  * `CostData` -- a write, with absent columns left as they are (update) or defaulted (create);
  * `createProductSetting`, `updateProductConfiguration`, `correctProductCostRule` -- the writers
    of a product's history, each with the checks of its request;
  * `createSalesFeeRule`, `correctSalesFeeRule` -- the writers of the fee history;
  * `findRuleForDate`, `findCoupangCostRuleAtOrBeforeDate` -- the two readings of a history.
-/
import Mathlib.Data.String.Basic
import Mathlib.Data.Prod.Lex
import AdsManagement.Lib.RuleHistory
import AdsManagement.Common.Json
import AdsManagement.Coupang.Rows

namespace AdsManagement.Coupang

open Common Lib

/-! ## 1. Rules -/

/-- `Decimal(14, 2)`. -/
abbrev Krw := Scaled 2

/-- `Decimal(8, 6)`. -/
abbrev Rate := Scaled 6

structure CoupangCostRule where
  id : String
  coupangProductId : String
  salePriceKrw : Krw
  supplyPriceKrw : Krw
  productCostKrw : Krw
  salesFeeRate : Rate
  salesFeeKrw : Krw
  sellerShippingFeeKrw : Option Krw
  hanaroShippingFeeKrw : Option Krw
  growthInboundFeeKrw : Krw
  growthShippingFeeKrw : Krw
  returnRate : Rate
  returnCostPerUnitKrw : Krw
  extraCostKrw : Krw
  effectiveFrom : Int
  effectiveTo : Option Int
  note : Option String
  createdAt : Nat

/-- The data of a write; an absent column is `none`. -/
structure CostData where
  salePriceKrw : Option Krw
  supplyPriceKrw : Option Krw
  productCostKrw : Option Krw
  salesFeeRate : Option Rate
  salesFeeKrw : Option Krw
  sellerShippingFeeKrw : Option (Option Krw)
  hanaroShippingFeeKrw : Option (Option Krw)
  growthInboundFeeKrw : Option Krw
  growthShippingFeeKrw : Option Krw
  returnRate : Option Rate
  returnCostPerUnitKrw : Option Krw
  extraCostKrw : Option Krw
  effectiveFrom : Option Int
  effectiveTo : Option (Option Int)
  note : Option (Option String)

/-- `update({ where: { id }, data })`, on the row. -/
def CostData.update (data : CostData) (rule : CoupangCostRule) : CoupangCostRule where
  id := rule.id
  coupangProductId := rule.coupangProductId
  salePriceKrw := data.salePriceKrw.getD rule.salePriceKrw
  supplyPriceKrw := data.supplyPriceKrw.getD rule.supplyPriceKrw
  productCostKrw := data.productCostKrw.getD rule.productCostKrw
  salesFeeRate := data.salesFeeRate.getD rule.salesFeeRate
  salesFeeKrw := data.salesFeeKrw.getD rule.salesFeeKrw
  sellerShippingFeeKrw := data.sellerShippingFeeKrw.getD rule.sellerShippingFeeKrw
  hanaroShippingFeeKrw := data.hanaroShippingFeeKrw.getD rule.hanaroShippingFeeKrw
  growthInboundFeeKrw := data.growthInboundFeeKrw.getD rule.growthInboundFeeKrw
  growthShippingFeeKrw := data.growthShippingFeeKrw.getD rule.growthShippingFeeKrw
  returnRate := data.returnRate.getD rule.returnRate
  returnCostPerUnitKrw := data.returnCostPerUnitKrw.getD rule.returnCostPerUnitKrw
  extraCostKrw := data.extraCostKrw.getD rule.extraCostKrw
  effectiveFrom := data.effectiveFrom.getD rule.effectiveFrom
  effectiveTo := data.effectiveTo.getD rule.effectiveTo
  note := data.note.getD rule.note
  createdAt := rule.createdAt

/-- What the database adds to a created rule: its id, the time and the day of its creation. -/
structure RuleStamp where
  id : String
  createdAt : Nat
  today : Int

/-- `create({ data })`, with the defaults of the columns. -/
def CostData.create (data : CostData) (stamp : RuleStamp) (coupangProductId : String) :
    CoupangCostRule :=
  data.update
    { id := stamp.id, coupangProductId, salePriceKrw := 0, supplyPriceKrw := 0,
      productCostKrw := 0, salesFeeRate := 0, salesFeeKrw := 0, sellerShippingFeeKrw := none,
      hanaroShippingFeeKrw := none, growthInboundFeeKrw := 0, growthShippingFeeKrw := 0,
      returnRate := 0, returnCostPerUnitKrw := 0, extraCostKrw := 0, effectiveFrom := stamp.today,
      effectiveTo := none, note := none, createdAt := stamp.createdAt }

def costDated : DatedRule CoupangCostRule String where
  id := (·.id)
  start := (·.effectiveFrom)
  stop := (·.effectiveTo)
  setStop r e := { r with effectiveTo := e }

def ofProduct (coupangProductId : String) (rules : List CoupangCostRule) : List CoupangCostRule :=
  rules.filter fun r => r.coupangProductId = coupangProductId

/-- `orderBy: [{ effectiveFrom: "asc" }, { createdAt: "asc" }, { id: "asc" }]`. -/
def historyRank (r : CoupangCostRule) : Int ×ₗ (Nat ×ₗ String) :=
  toLex (r.effectiveFrom, toLex (r.createdAt, r.id))

def costRuleDateExists (message : String) : ApiError :=
  { code := "COUPANG_COST_RULE_DATE_EXISTS", message }

def normalizeCoupangCostRuleRanges (coupangProductId : String) (rules : List CoupangCostRule) :
    Except ApiError (List CoupangCostRule) :=
  normalizeRanges costDated
    (costRuleDateExists "Cost rules for a product cannot share an effective start date.")
    ((ofProduct coupangProductId rules).insertionSort fun a b => historyRank a ≤ historyRank b) rules

/-- `@@unique([coupangProductId, effectiveFrom])`: the error of the database. -/
def uniqueViolation : ApiError :=
  { code := "P2002", message := "Unique constraint failed on coupang_product_id, effective_from" }

def sameStart (a b : CoupangCostRule) : Bool :=
  a.coupangProductId = b.coupangProductId && a.effectiveFrom = b.effectiveFrom

/-- `CHECK (effective_to IS NULL OR effective_to >= effective_from)`. -/
def rangeViolation : ApiError :=
  { code := "23514", message := "coupang_cost_rules_effective_range_check" }

def validRange (r : CoupangCostRule) : Bool := r.effectiveTo.all (r.effectiveFrom ≤ ·)

def createRule (rule : CoupangCostRule) (rules : List CoupangCostRule) :
    Except ApiError (List CoupangCostRule) :=
  if rules.any (sameStart rule) then .error uniqueViolation
  else if !validRange rule then .error rangeViolation
  else .ok (rules ++ [rule])

def updateRule (id : String) (data : CostData) (rules : List CoupangCostRule) :
    Except ApiError (List CoupangCostRule) :=
  let updated := rules.map fun r => if r.id = id then data.update r else r
  if updated.any fun r => r.id = id && updated.any fun s => s.id ≠ id && sameStart r s then
    .error uniqueViolation
  else if updated.any fun r => r.id = id && !validRange r then .error rangeViolation
  else .ok updated

def deleteRule (id : String) (rules : List CoupangCostRule) : List CoupangCostRule :=
  rules.filter fun r => r.id ≠ id

def findRule (id : String) (rules : List CoupangCostRule) : Option CoupangCostRule :=
  rules.find? fun r => r.id = id

def findCoupangCostRuleAtOrBeforeDate (coupangProductId : String) (date : Int)
    (rules : List CoupangCostRule) : Option CoupangCostRule :=
  ((rules.filter fun r => r.coupangProductId = coupangProductId && r.effectiveFrom ≤ date).insertionSort
    fun a b => historyRank b ≤ historyRank a).head?

def findCoupangCostRuleStartingOnDate (coupangProductId : String) (date : Int)
    (rules : List CoupangCostRule) : Option CoupangCostRule :=
  ((rules.filter fun r => r.coupangProductId = coupangProductId && r.effectiveFrom = date).insertionSort
    fun a b => toLex (b.createdAt, b.id) ≤ toLex (a.createdAt, a.id)).head?

/-- The rule in force: the ranges are searched, the latest start first. -/
def findRuleForDate (rules : List CoupangCostRule) (date : Int) : Option CoupangCostRule :=
  ((rules.filter fun r => r.effectiveFrom ≤ date && r.effectiveTo.all (date ≤ ·)).insertionSort
    fun a b => historyRank b ≤ historyRank a).head?

/-! ## 2. Fields of a request -/

/-- `field.replace(/([a-z])([A-Z])/g, "$1_$2").toUpperCase().replace(/_KRW$/, "")`. -/
def fieldCode (field : String) : String :=
  let rec snake : List Char → List Char
    | a :: b :: rest =>
      if a.isLower && b.isUpper then a.toUpper :: '_' :: snake (b :: rest)
      else a.toUpper :: snake (b :: rest)
    | [a] => [a.toUpper]
    | [] => []
  let code := snake field.toList
  String.ofList (if code.drop (code.length - 4) = "_KRW".toList then code.take (code.length - 4) else code)

example : fieldCode "sellerShippingFeeKrw" = "SELLER_SHIPPING_FEE" := by decide

def invalidCoupangCostField (field requirement : String) : ApiError :=
  { code := "INVALID_" ++ fieldCode field, message := field ++ " " ++ requirement ++ "." }

/-- A decimal of a request. `-0` is negative. -/
structure BodyDecimal where
  value : ℚ
  isNegative : Bool

def decimalFromBody (value : Option Json) (field : String) : Except ApiError (Option BodyDecimal) :=
  if isBlankValue value then .ok none
  else
    match value with
    | some (.num q) => .ok (some { value := q, isNegative := q < 0 })
    | some (.str s) =>
      match readDecimal (trimChars s.toList) with
      | some q => .ok (some { value := q, isNegative := (trimChars s.toList).head? = some '-' })
      | none => .error (invalidCoupangCostField field "must be a numeric value")
    | _ => .error (invalidCoupangCostField field "must be a numeric value")

/-- `MAX_COUPANG_COST_INTEGER_KRW`. -/
def maxCoupangCostIntegerKrw : ℚ := 999999999999

section

variable (value : Option Json)

def nonNegativeCostDecimalFromBody (field : String) : Except ApiError (Option Krw) := do
  match ← decimalFromBody value field with
  | none => .ok none
  | some parsed =>
    if parsed.isNegative || parsed.value.den ≠ 1 || parsed.value > maxCoupangCostIntegerKrw then
      .error (invalidCoupangCostField field
        "must be a non-negative integer no greater than 999999999999")
    else .ok (some (Scaled.ofRat 2 parsed.value))

def nullableNonNegativeCostDecimalFromBody (field : String) : Except ApiError (Option Krw) :=
  if isBlankValue value then .ok none else nonNegativeCostDecimalFromBody value field

def rateDecimalFromBody (field : String) : Except ApiError Rate :=
  let invalid : ApiError :=
    { code := if field = "salesFeeRate" then "INVALID_SALES_FEE_RATE" else "INVALID_RETURN_RATE"
      message := field ++ " must be a finite number between 0 and 1." }
  if isBlankValue value then .error invalid
  else
    match value.bind jsNumber with
    | none => .error invalid
    | some q => if q < 0 ∨ q > 1 then .error invalid else .ok (Scaled.ofRat 6 q)

def salesFeeRateFromPercentBody : Except ApiError Rate :=
  let invalid : ApiError :=
    { code := "INVALID_SALES_FEE_PERCENT"
      message := "salesFeePercent must be a finite number between 0 and 100." }
  if isBlankValue value then .error invalid
  else
    match value.bind jsNumber with
    | none => .error invalid
    | some q => if q < 0 ∨ q > 100 then .error invalid else .ok (Scaled.ofRat 6 (q / 100))

/-- `optionalNullableString`: absent, `null`, or a text. -/
def optionalNullableString : Option (Option String) :=
  value.map fun v => optionalString (some v)

end

def assertGlobalSalesFeeFieldsNotPresent (body : Body) : Except ApiError Unit :=
  if ["salesFeeRate", "salesFeeKrw", "salesFeePercent"].any body.has then
    .error { code := "COUPANG_SALES_FEE_IS_GLOBAL"
             message := "Sales fee rate is managed by the global Coupang sales fee setting." }
  else .ok ()

def assertCoupangCostEffectiveToNotPresent (body : Body) : Except ApiError Unit :=
  if body.has "effectiveTo" then
    .error
      { code := "COUPANG_COST_RULE_EFFECTIVE_TO_MANAGED"
        message := "effectiveTo is derived from the next history row and cannot be written directly." }
  else .ok ()

/-- `COUPANG_COST_FIELDS`. -/
def coupangCostFields : List String :=
  ["salePriceKrw", "supplyPriceKrw", "productCostKrw", "sellerShippingFeeKrw", "hanaroShippingFeeKrw",
   "growthInboundFeeKrw", "growthShippingFeeKrw", "returnRate", "returnCostPerUnitKrw", "extraCostKrw"]

section

variable (body : Body)

def hasCoupangCostFields : Bool := coupangCostFields.any body.has

/-- `nonNegativeCostDecimalFromBody(body[field], field) ?? latest`. -/
def costFieldOr (field : String) (latest : Option Krw) : Except ApiError (Option Krw) := do
  let parsed ← nonNegativeCostDecimalFromBody (body.get field) field
  return parsed.or latest

/-- A shipping fee: the body's, `null` included, or the latest. -/
def shippingFeeOr (field : String) (latest : Option Krw) : Except ApiError (Option Krw) :=
  if body.has field then nullableNonNegativeCostDecimalFromBody (body.get field) field
  else .ok latest

/-- `body.returnRate === undefined ? latest : rateDecimalFromBody(body.returnRate, "returnRate")`. -/
def returnRateOr (latest : Option Rate) : Except ApiError (Option Rate) :=
  match body.get "returnRate" with
  | none => .ok latest
  | some v => (rateDecimalFromBody (some v) "returnRate").map some

/-- `body.effectiveFrom ? requiredDateFromBody(body.effectiveFrom, "effectiveFrom") : undefined`. -/
def truthyEffectiveFrom : Except ApiError (Option Int) :=
  if isFalsyValue (body.get "effectiveFrom") then .ok none
  else (requiredDateFromBody (body.get "effectiveFrom") "effectiveFrom").map some

/-- The start day of a correction, when the body has one. -/
def presentEffectiveFrom : Except ApiError (Option Int) :=
  if body.has "effectiveFrom" then
    (requiredDateFromBody (body.get "effectiveFrom") "effectiveFrom").map some
  else .ok none

/-- The data `maybeCostRuleCreate` hands to `create`; nothing without a cost field. -/
def maybeCostRuleCreate (latestCostRule : Option CoupangCostRule) : Except ApiError (Option CostData) :=
  if !hasCoupangCostFields body then .ok none
  else do
    let sellerShippingFeeKrw ← shippingFeeOr body "sellerShippingFeeKrw"
      (latestCostRule.bind (·.sellerShippingFeeKrw))
    let hanaroShippingFeeKrw ← shippingFeeOr body "hanaroShippingFeeKrw"
      (latestCostRule.bind (·.hanaroShippingFeeKrw))
    let salePriceKrw ← costFieldOr body "salePriceKrw" (latestCostRule.map (·.salePriceKrw))
    let supplyPriceKrw ← costFieldOr body "supplyPriceKrw" (latestCostRule.map (·.supplyPriceKrw))
    let productCostKrw ← costFieldOr body "productCostKrw" (latestCostRule.map (·.productCostKrw))
    let growthInboundFeeKrw ← costFieldOr body "growthInboundFeeKrw"
      (latestCostRule.map (·.growthInboundFeeKrw))
    let growthShippingFeeKrw ← costFieldOr body "growthShippingFeeKrw"
      (latestCostRule.map (·.growthShippingFeeKrw))
    let returnRate ← returnRateOr body (latestCostRule.map (·.returnRate))
    let returnCostPerUnitKrw ← costFieldOr body "returnCostPerUnitKrw"
      (latestCostRule.map (·.returnCostPerUnitKrw))
    let extraCostKrw ← costFieldOr body "extraCostKrw" (latestCostRule.map (·.extraCostKrw))
    let effectiveFrom ← truthyEffectiveFrom body
    let note := match body.get "note" with
      | none => latestCostRule.map (·.note)
      | some v => (optionalString (some v)).map some
    return some
      { salePriceKrw, supplyPriceKrw, productCostKrw
        salesFeeRate := some 0
        salesFeeKrw := some 0
        sellerShippingFeeKrw := some sellerShippingFeeKrw
        hanaroShippingFeeKrw := some hanaroShippingFeeKrw
        growthInboundFeeKrw, growthShippingFeeKrw, returnRate, returnCostPerUnitKrw, extraCostKrw
        effectiveFrom
        effectiveTo := none
        note }

end

/-! ## 3. Settings of a product -/

/-- `currentKoreaDateOnly`: the day the clock of the server shows. -/
def currentKoreaDateOnly (clock : String) : Except ApiError Int :=
  requiredDateFromBody (some (.str clock)) "date"

def effectiveFromOrToday (clock : String) (body : Body) : Except ApiError Int :=
  if body.has "effectiveFrom" then requiredDateFromBody (body.get "effectiveFrom") "effectiveFrom"
  else currentKoreaDateOnly clock

/-- The cost part of `createProductSetting`: a new product with its first cost rule. -/
def createProductSetting (clock : String) (stamp : RuleStamp) (productId : String) (body : Body)
    (rules : List CoupangCostRule) : Except ApiError (List CoupangCostRule) := do
  assertGlobalSalesFeeFieldsNotPresent body
  assertCoupangCostEffectiveToNotPresent body
  if hasCoupangCostFields body then
    let effectiveFrom ← effectiveFromOrToday clock body
    let costRuleBody := ("effectiveFrom", Json.str (formatDateOnly effectiveFrom)) :: body
    match ← maybeCostRuleCreate costRuleBody none with
    | none => return rules
    | some data => createRule (data.create stamp productId) rules
  else return rules

def coupangProductNotFound : ApiError :=
  { code := "COUPANG_PRODUCT_NOT_FOUND", message := "Coupang product was not found." }

/-- `rethrowCoupangCostRuleWriteError`: a start date that exists already is a bad request. -/
def rethrowCoupangCostRuleWriteError (error : ApiError) : ApiError :=
  if error.code = "P2002" then
    costRuleDateExists "A cost rule already starts on this date; retry or correct that history row instead."
  else error

def asCostRuleWrite {α : Type} (result : Except ApiError α) : Except ApiError α :=
  match result with
  | .ok a => .ok a
  | .error e => .error (rethrowCoupangCostRuleWriteError e)

/-- The cost part of `updateProductConfiguration`. `productFound`: the product is stored. -/
def updateProductConfiguration (stamp : RuleStamp) (productFound : Bool) (id : String) (body : Body)
    (rules : List CoupangCostRule) : Except ApiError (List CoupangCostRule) := do
  assertGlobalSalesFeeFieldsNotPresent body
  assertCoupangCostEffectiveToNotPresent body
  asCostRuleWrite do
    if !productFound then throw coupangProductNotFound
    if hasCoupangCostFields body then
      let effectiveFrom ← requiredDateFromBody (body.get "effectiveFrom") "effectiveFrom"
      let sameDateRule := findCoupangCostRuleStartingOnDate id effectiveFrom rules
      let baseRule := sameDateRule.or (findCoupangCostRuleAtOrBeforeDate id effectiveFrom rules)
      match ← maybeCostRuleCreate body baseRule with
      | none => throw { code := "COST_RULE_EMPTY", message := "At least one cost field is required." }
      | some snapshotData =>
        match sameDateRule with
        | some rule =>
          -- the sales fee of the history row stays
          let saved ← updateRule rule.id
            { snapshotData with salesFeeRate := some rule.salesFeeRate, salesFeeKrw := some rule.salesFeeKrw }
            rules
          normalizeCoupangCostRuleRanges id saved
        | none =>
          let saved ← createRule (snapshotData.create stamp id) rules
          normalizeCoupangCostRuleRanges id saved
    else return rules

/-- The data of a correction: only the fields the body has. -/
def costRuleCorrection (body : Body) : Except ApiError CostData := do
  let money := fun field : String =>
    if body.has field then nonNegativeCostDecimalFromBody (body.get field) field else .ok none
  let nullable := fun field : String =>
    if body.has field then (nullableNonNegativeCostDecimalFromBody (body.get field) field).map some
    else .ok none
  let rate := fun field : String =>
    if body.has field then (rateDecimalFromBody (body.get field) field).map some else .ok none
  let salePriceKrw ← money "salePriceKrw"
  let supplyPriceKrw ← money "supplyPriceKrw"
  let productCostKrw ← money "productCostKrw"
  let salesFeeKrw ← money "salesFeeKrw"
  let growthInboundFeeKrw ← money "growthInboundFeeKrw"
  let growthShippingFeeKrw ← money "growthShippingFeeKrw"
  let returnCostPerUnitKrw ← money "returnCostPerUnitKrw"
  let extraCostKrw ← money "extraCostKrw"
  let sellerShippingFeeKrw ← nullable "sellerShippingFeeKrw"
  let hanaroShippingFeeKrw ← nullable "hanaroShippingFeeKrw"
  let salesFeeRate ← rate "salesFeeRate"
  let returnRate ← rate "returnRate"
  let effectiveFrom ← presentEffectiveFrom body
  assertCoupangCostEffectiveToNotPresent body
  return { salePriceKrw, supplyPriceKrw, productCostKrw, salesFeeRate, salesFeeKrw,
           sellerShippingFeeKrw, hanaroShippingFeeKrw, growthInboundFeeKrw, growthShippingFeeKrw,
           returnRate, returnCostPerUnitKrw, extraCostKrw, effectiveFrom, effectiveTo := none,
           note := optionalNullableString (body.get "note") }

/-- The fields `correctProductCostRule` looks for in a body. -/
def correctableCostFields : List String :=
  ["salePriceKrw", "supplyPriceKrw", "productCostKrw", "salesFeeKrw", "growthInboundFeeKrw",
   "growthShippingFeeKrw", "returnCostPerUnitKrw", "extraCostKrw", "sellerShippingFeeKrw",
   "hanaroShippingFeeKrw", "salesFeeRate", "returnRate", "effectiveFrom", "note"]

/-- The first rule that starts after a day, another rule than the one given. -/
def followingRule (id productId : String) (date : Int) (rules : List CoupangCostRule) :
    Option CoupangCostRule :=
  ((rules.filter fun r => r.coupangProductId = productId && date < r.effectiveFrom && r.id ≠ id).insertionSort
    fun a b => historyRank a ≤ historyRank b).head?

def correctProductCostRule (productFound : Bool) (productId costRuleId : String) (body : Body)
    (rules : List CoupangCostRule) : Except ApiError (List CoupangCostRule) :=
  asCostRuleWrite do
    if !productFound then throw coupangProductNotFound
    match findRule costRuleId rules with
    | none =>
      throw { code := "COUPANG_COST_RULE_NOT_FOUND", message := "Coupang cost rule was not found." }
    | some existing =>
      if existing.coupangProductId ≠ productId then
        throw { code := "COUPANG_COST_RULE_PRODUCT_MISMATCH"
                message := "Cost rule belongs to another Coupang product." }
      let data ← costRuleCorrection body
      let nextFrom := data.effectiveFrom.getD existing.effectiveFrom
      if rules.any fun r => r.coupangProductId = productId && r.effectiveFrom = nextFrom && r.id ≠ costRuleId then
        throw (costRuleDateExists
          "A cost rule already starts on this date; correct that history row instead.")
      if !correctableCostFields.any body.has then
        throw { code := "COST_RULE_CORRECTION_EMPTY"
                message := "At least one correction field is required." }
      let data := if data.effectiveFrom.isSome then
          { data with effectiveTo := some ((followingRule costRuleId productId nextFrom rules).map
              fun r => previousDate r.effectiveFrom) }
        else data
      let saved ← updateRule costRuleId data rules
      normalizeCoupangCostRuleRanges productId saved

/-! ## 4. Sales fee rules -/

structure CoupangSalesFeeRule where
  id : String
  salesFeeRate : Rate
  effectiveFrom : Int
  effectiveTo : Option Int
  note : Option String
  createdAt : Nat

def feeDated : DatedRule CoupangSalesFeeRule String where
  id := (·.id)
  start := (·.effectiveFrom)
  stop := (·.effectiveTo)
  setStop r e := { r with effectiveTo := e }

def feeRank (r : CoupangSalesFeeRule) : Int ×ₗ (Nat ×ₗ String) :=
  toLex (r.effectiveFrom, toLex (r.createdAt, r.id))

def salesFeeRuleDateExists (message : String) : ApiError :=
  { code := "COUPANG_SALES_FEE_RULE_DATE_EXISTS", message }

/-- `orderBy: [{ effectiveFrom: "asc" }, { createdAt: "asc" }]`. -/
def normalizeSalesFeeRuleRanges (rules : List CoupangSalesFeeRule) :
    Except ApiError (List CoupangSalesFeeRule) :=
  normalizeRanges feeDated
    (salesFeeRuleDateExists "Global sales fee rules cannot share an effective start date.")
    (rules.insertionSort fun a b =>
      toLex (a.effectiveFrom, a.createdAt) ≤ toLex (b.effectiveFrom, b.createdAt)) rules

def findSalesFeeRuleForDate (rules : List CoupangSalesFeeRule) (date : Int) :
    Option CoupangSalesFeeRule :=
  ((rules.filter fun r => r.effectiveFrom ≤ date && r.effectiveTo.all (date ≤ ·)).insertionSort
    fun a b => feeRank b ≤ feeRank a).head?

/-- `currentSalesFeeRule`, on a given day. -/
def currentSalesFeeRule (rules : List CoupangSalesFeeRule) (date : Int) :
    Except ApiError CoupangSalesFeeRule :=
  match ((rules.filter fun r => r.effectiveFrom ≤ date && r.effectiveTo.all (date ≤ ·)).insertionSort
      fun a b => toLex (b.effectiveFrom, b.createdAt) ≤ toLex (a.effectiveFrom, a.createdAt)).head? with
  | some rule => .ok rule
  | none =>
    .error { code := "COUPANG_GLOBAL_SALES_FEE_RATE_MISSING"
             message := "No global Coupang sales fee rate applies on " ++ formatDateOnly date ++ "." }

def createSalesFeeRule (stamp : RuleStamp) (body : Body) (rules : List CoupangSalesFeeRule) :
    Except ApiError (List CoupangSalesFeeRule) := do
  let salesFeeRate ← salesFeeRateFromPercentBody (body.get "salesFeePercent")
  let effectiveFrom ← requiredDateFromBody (body.get "effectiveFrom") "effectiveFrom"
  let note := optionalNullableString (body.get "note")
  if rules.any fun r => r.effectiveFrom = effectiveFrom then
    throw (salesFeeRuleDateExists
      "A global sales fee rule already starts on this date; correct that history row instead.")
  normalizeSalesFeeRuleRanges (rules ++
    [{ id := stamp.id, salesFeeRate, effectiveFrom,
       effectiveTo := none, note := note.getD none, createdAt := stamp.createdAt }])

def presentSalesFeePercent (body : Body) : Except ApiError (Option Rate) :=
  if body.has "salesFeePercent" then
    (salesFeeRateFromPercentBody (body.get "salesFeePercent")).map some
  else .ok none

/-- The fields `correctSalesFeeRule` looks for in a body. -/
def correctableFeeFields : List String := ["salesFeePercent", "effectiveFrom", "note"]

def correctSalesFeeRule (id : String) (body : Body) (rules : List CoupangSalesFeeRule) :
    Except ApiError (List CoupangSalesFeeRule) := do
  match rules.find? fun r => r.id = id with
  | none =>
    throw { code := "COUPANG_SALES_FEE_RULE_NOT_FOUND", message := "Global sales fee rule was not found." }
  | some existing =>
    let salesFeeRate ← presentSalesFeePercent body
    let effectiveFrom ← presentEffectiveFrom body
    let note := optionalNullableString (body.get "note")
    if !correctableFeeFields.any body.has then
      throw { code := "SALES_FEE_RULE_CORRECTION_EMPTY"
              message := "At least one correction field is required." }
    let nextFrom := effectiveFrom.getD existing.effectiveFrom
    if rules.any fun r => r.effectiveFrom = nextFrom && r.id ≠ id then
      throw (salesFeeRuleDateExists "Another global sales fee rule already starts on this date.")
    let following := ((rules.filter fun r => nextFrom < r.effectiveFrom && r.id ≠ id).insertionSort
      fun a b => feeRank a ≤ feeRank b).head?
    normalizeSalesFeeRuleRanges (rules.map fun r =>
      if r.id = id then
        { r with
          salesFeeRate := salesFeeRate.getD r.salesFeeRate
          effectiveFrom := nextFrom
          effectiveTo := if effectiveFrom.isSome then following.map fun f => previousDate f.effectiveFrom
                         else r.effectiveTo
          note := note.getD r.note }
      else r)

end AdsManagement.Coupang
