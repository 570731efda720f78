/-
  File:      Meta/ProductRules.lean
  Subject:   PRODUCT RULE SNAPSHOTS (products.service.ts, domain/effective-rule.ts): the dated
             cost rules and CPA rules of a product and the two requests that write them.

  Cost rules and CPA rules are handled by the same code with other columns, so the code is
  written once over a `RuleFamily`. A request is one transaction: it returns the new table or
  throws, and then the table stays as it was. The advisory lock only orders the transactions
  and is left out, and so is the security audit. Ids, `createdAt` and the latest exchange rate
  come from the database. Ids are UUIDs in lower case, which `localeCompare` orders as their
  characters do.

  * `saveCostRuleSnapshot`, `correctCostRule`, `saveCpaRuleSnapshot`, `correctCpaRule`;
  * `findEffectiveRuleForDate` -- the rule the reports of a day use;
  * `RuleCall`, `runCalls` -- sequences of requests.
-/
import AdsManagement.Meta.Mappings

namespace AdsManagement.Meta

open Common Lib

/-! ## 1. Rules -/

/-- A row of `product_cost_rules` or `product_cpa_rules`, the columns of a snapshot together. -/
structure ProductRule (ν : Type) where
  id : String
  productId : String
  values : ν
  effectiveFrom : Int
  effectiveTo : Option Int
  createdAt : Nat
deriving DecidableEq

/-- The columns of a cost rule: `Decimal(14, 2)`, the rate `Decimal(12, 4)`. -/
structure CostValues where
  salePriceKrw : Scaled 2
  vatKrw : Scaled 2
  productCostKrw : Scaled 2
  shippingKrw : Scaled 2
  extraCostKrw : Scaled 2
  fxRateKrwPerUsd : Scaled 4
  note : Option String
deriving DecidableEq

/-- The columns of a CPA rule: `Decimal(6, 4)`. -/
structure CpaValues where
  targetRatio : Scaled 4
  watchRatio : Scaled 4
  stopRatio : Scaled 4
  note : Option String
deriving DecidableEq

variable {ν : Type}

def ruleDated : DatedRule (ProductRule ν) String where
  id := (·.id)
  start := (·.effectiveFrom)
  stop := (·.effectiveTo)
  setStop r e := { r with effectiveTo := e }

/-- `orderBy: [{ effectiveFrom: "asc" }, { createdAt: "asc" }, { id: "asc" }]`. -/
def ruleRank (r : ProductRule ν) : Int ×ₗ (Nat ×ₗ String) :=
  toLex (r.effectiveFrom, toLex (r.createdAt, r.id))

/-- `where: { productId }`. -/
def rulesOf (productId : String) (rules : List (ProductRule ν)) : List (ProductRule ν) :=
  rules.filter fun r => r.productId = productId

/-- `findMany({ where: { productId }, orderBy })`. -/
def history (productId : String) (rules : List (ProductRule ν)) : List (ProductRule ν) :=
  (rulesOf productId rules).insertionSort fun a b => ruleRank a ≤ ruleRank b

/-- `compareEffectiveRulePriority`: the latest start first. -/
def compareEffectiveRulePriority (a b : ProductRule ν) : Prop := ruleRank b ≤ ruleRank a

instance : DecidableRel (@compareEffectiveRulePriority ν) :=
  fun a b => inferInstanceAs (Decidable (ruleRank b ≤ ruleRank a))

def findEffectiveRuleForDate (rules : List (ProductRule ν)) (date : Int) : Option (ProductRule ν) :=
  ((rules.filter fun r => r.effectiveFrom ≤ date && r.effectiveTo.all (date ≤ ·)).insertionSort
    compareEffectiveRulePriority).head?

def latestRuleAtOrBefore (rules : List (ProductRule ν)) (date : Int) : Option (ProductRule ν) :=
  ((rules.filter fun r => r.effectiveFrom ≤ date).insertionSort compareEffectiveRulePriority).head?

/-! ## 2. Errors and the fields of a request -/

/-- An exception with the lists some of them carry. -/
structure RuleError extends ApiError where
  missingFields : List String := []
  duplicateDates : List String := []
deriving DecidableEq

variable {α : Type}

def fromRequest (result : Except ApiError α) : Except RuleError α :=
  result.mapError fun e => { toApiError := e }

def refuse (code message : String) : Except RuleError α :=
  .error { code, message }

def decimal (value : Option Json) (field : String) : Except RuleError ℚ :=
  let invalid := refuse "INVALID_NUMBER" (field ++ " 숫자 값이 올바르지 않습니다.")
  match value with
  | none => invalid
  | some .null => invalid
  | some (.bool _) => invalid
  | some v =>
    if trim (jsText v) = "" then invalid
    else
      match jsNumber v with
      | none => invalid
      | some parsed => if parsed < 0 then invalid else .ok parsed

/-- A field the body owns, `undefined` apart. -/
def hasProvidedField (body : Body) (field : String) : Bool := body.has field

def decimalIfPresent (body : Body) (field : String) : Except RuleError (Option ℚ) :=
  if hasProvidedField body field then (decimal (body.get field) field).map some else .ok none

def nullableString (value : Option Json) : Option String := optionalString value

/-- The note of a write: the body's, `null` included, or the one there is. -/
def noteOr (body : Body) (old : Option String) : Option String :=
  if hasProvidedField body "note" then nullableString (body.get "note") else old

def assertServerManagedEffectiveTo (body : Body) (code : String) : Except RuleError Unit :=
  if hasProvidedField body "effectiveTo" then
    refuse code "effectiveTo는 다음 규칙의 시작일을 기준으로 서버가 자동 계산합니다."
  else .ok ()

def assertAtLeastOneField (body : Body) (fields : List String) (code : String) : Except RuleError Unit :=
  if fields.any (hasProvidedField body) then .ok ()
  else refuse code "저장할 규칙 값을 하나 이상 입력해주세요."

def assertRequiredFields (body : Body) (fields : List String) (code : String) : Except RuleError Unit :=
  let missingFields := fields.filter fun field => !hasProvidedField body field
  if missingFields = [] then .ok ()
  else
    .error
      { code
        message := "기준 규칙이 없는 첫 저장에는 " ++ String.intercalate ", " missingFields ++
          " 값이 필요합니다."
        missingFields }

/-- The dates counted by their texts. -/
def assertNoDuplicateEffectiveDates (rules : List (ProductRule ν)) (code : String) :
    Except RuleError Unit :=
  let dates := rules.map fun r => formatDateOnly r.effectiveFrom
  let duplicateDates := dates.eraseDups.filter fun date => 1 < dates.count date
  if duplicateDates = [] then .ok ()
  else
    .error
      { code
        message := "같은 적용 시작일의 기존 중복 규칙이 있어 저장을 중단했습니다. 중복 진단 결과를 먼저 확인해주세요."
        duplicateDates }

def productNotFound : Except RuleError α := refuse "PRODUCT_NOT_FOUND" "제품을 찾을 수 없습니다."

def assertProductWithClient (products : List Product) (id : String) : Except RuleError Product :=
  match products.find? fun p => p.id = id with
  | none => productNotFound
  | some product => .ok product

def assertActiveProductWithClient (products : List Product) (id : String) :
    Except RuleError Product := do
  let product ← assertProductWithClient products id
  if !product.isActive then refuse "PRODUCT_INACTIVE" "비활성 제품에는 새 규칙 이력을 저장할 수 없습니다."
  else .ok product

/-- A number written to a column `Decimal(precision, scale)`. -/
def column (precision scale : Nat) (q : ℚ) : Except RuleError (Scaled scale) :=
  if (Scaled.ofRat scale q).units.natAbs < 10 ^ precision then .ok (Scaled.ofRat scale q)
  else refuse "22003" "numeric field overflow"

/-! ## 3. Families of rules -/

/-- What a request finds in the database besides the rules: the products, the latest rate of
    the exchange-rate table, and the id and time a created rule gets. -/
structure RuleEnv where
  products : List Product
  latestRate : Option (Scaled 6)
  id : String
  createdAt : Nat

/-- What distinguishes cost rules and CPA rules. -/
structure RuleFamily (ν : Type) where
  code : String
  snapshotFields : List String
  requiredFirstSnapshotFields : List String
  correctionFields : List String
  notFound : String
  productMismatch : String
  dateExists : String
  savedNotFound : String
  /-- The columns of a save, over those of the base rule. -/
  snapshot : RuleEnv → Body → Option ν → Except RuleError ν
  /-- The columns of a correction, over those of the rule. -/
  correction : Body → ν → Except RuleError ν

/-- `hasProvidedField(body, field) ? decimal(body[field], field) : baseRule!.field`. -/
def numberOrBase (provided : Option ℚ) (base : Option ℚ) : Except RuleError ℚ :=
  match provided, base with
  | some q, _ => .ok q
  | none, some q => .ok q
  | none, none => refuse "TypeError" "Cannot read properties of null"

def resolveLegacyFxRate (latestRate : Option (Scaled 6)) (value : Option Json) :
    Except RuleError ℚ :=
  if !isBlankValue value then decimal value "fxRateKrwPerUsd"
  else .ok ((latestRate.map (·.value)).getD 0)

/-- `baseRule?.fxRateKrwPerUsd ?? await this.resolveLegacyFxRate(body.fxRateKrwPerUsd, tx)`. -/
def baseFxRate (env : RuleEnv) (body : Body) (baseRule : Option CostValues) : Except RuleError ℚ :=
  match baseRule with
  | some base => .ok base.fxRateKrwPerUsd.value
  | none => resolveLegacyFxRate env.latestRate (body.get "fxRateKrwPerUsd")

/-- `hasProvidedField(body, "salePriceKrw") || !baseRule ? salePriceKrw.mul(0.1) : baseRule.vatKrw`. -/
def snapshotVat (provided : Option ℚ) (salePriceKrw : ℚ) (baseRule : Option CostValues) : ℚ :=
  match provided, baseRule with
  | none, some base => base.vatKrw.value
  | _, _ => salePriceKrw * (1 / 10)

def costSnapshot (env : RuleEnv) (body : Body) (baseRule : Option CostValues) :
    Except RuleError CostValues := do
  let salePrice ← decimalIfPresent body "salePriceKrw"
  let salePriceKrw ← numberOrBase salePrice (baseRule.map (·.salePriceKrw.value))
  let vatKrw := snapshotVat salePrice salePriceKrw baseRule
  let productCost ← decimalIfPresent body "productCostKrw"
  let productCostKrw ← numberOrBase productCost (baseRule.map (·.productCostKrw.value))
  let shipping ← decimalIfPresent body "shippingKrw"
  let shippingKrw ← numberOrBase shipping (baseRule.map (·.shippingKrw.value))
  let extraCost ← decimalIfPresent body "extraCostKrw"
  let extraCostKrw ← numberOrBase extraCost (baseRule.map (·.extraCostKrw.value))
  let fxRateKrwPerUsd ← baseFxRate env body baseRule
  return {
    salePriceKrw := ← column 14 2 salePriceKrw
    vatKrw := ← column 14 2 vatKrw
    productCostKrw := ← column 14 2 productCostKrw
    shippingKrw := ← column 14 2 shippingKrw
    extraCostKrw := ← column 14 2 extraCostKrw
    fxRateKrwPerUsd := ← column 12 4 fxRateKrwPerUsd
    note := noteOr body (baseRule.bind (·.note)) }

/-- `update`, where an absent column stays as it is. -/
def columnOr (precision scale : Nat) (q : Option ℚ) (old : Scaled scale) :
    Except RuleError (Scaled scale) :=
  match q with
  | some q => column precision scale q
  | none => .ok old

def costCorrection (body : Body) (existing : CostValues) : Except RuleError CostValues := do
  let salePriceKrw ← decimalIfPresent body "salePriceKrw"
  let vatKrw := salePriceKrw.map (· * (1 / 10))
  let productCostKrw ← decimalIfPresent body "productCostKrw"
  let shippingKrw ← decimalIfPresent body "shippingKrw"
  let extraCostKrw ← decimalIfPresent body "extraCostKrw"
  let fxRateKrwPerUsd ← decimalIfPresent body "fxRateKrwPerUsd"
  return {
    salePriceKrw := ← columnOr 14 2 salePriceKrw existing.salePriceKrw
    vatKrw := ← columnOr 14 2 vatKrw existing.vatKrw
    productCostKrw := ← columnOr 14 2 productCostKrw existing.productCostKrw
    shippingKrw := ← columnOr 14 2 shippingKrw existing.shippingKrw
    extraCostKrw := ← columnOr 14 2 extraCostKrw existing.extraCostKrw
    fxRateKrwPerUsd := ← columnOr 12 4 fxRateKrwPerUsd existing.fxRateKrwPerUsd
    note := noteOr body existing.note }

def cpaSnapshot (_env : RuleEnv) (body : Body) (baseRule : Option CpaValues) :
    Except RuleError CpaValues := do
  let target ← decimalIfPresent body "targetRatio"
  let targetRatio ← numberOrBase target (baseRule.map (·.targetRatio.value))
  let watch ← decimalIfPresent body "watchRatio"
  let watchRatio ← numberOrBase watch (baseRule.map (·.watchRatio.value))
  let stop ← decimalIfPresent body "stopRatio"
  let stopRatio ← numberOrBase stop (baseRule.map (·.stopRatio.value))
  return {
    targetRatio := ← column 6 4 targetRatio
    watchRatio := ← column 6 4 watchRatio
    stopRatio := ← column 6 4 stopRatio
    note := noteOr body (baseRule.bind (·.note)) }

def cpaCorrection (body : Body) (existing : CpaValues) : Except RuleError CpaValues := do
  let targetRatio ← decimalIfPresent body "targetRatio"
  let watchRatio ← decimalIfPresent body "watchRatio"
  let stopRatio ← decimalIfPresent body "stopRatio"
  return {
    targetRatio := ← columnOr 6 4 targetRatio existing.targetRatio
    watchRatio := ← columnOr 6 4 watchRatio existing.watchRatio
    stopRatio := ← columnOr 6 4 stopRatio existing.stopRatio
    note := noteOr body existing.note }

def costFamily : RuleFamily CostValues where
  code := "PRODUCT_COST_RULE"
  snapshotFields := ["salePriceKrw", "productCostKrw", "shippingKrw", "extraCostKrw", "note"]
  requiredFirstSnapshotFields := ["salePriceKrw", "productCostKrw", "shippingKrw", "extraCostKrw"]
  correctionFields := ["salePriceKrw", "productCostKrw", "shippingKrw", "extraCostKrw",
    "fxRateKrwPerUsd", "effectiveFrom", "note"]
  notFound := "원가 규칙을 찾을 수 없습니다."
  productMismatch := "다른 제품의 원가 이력은 정정할 수 없습니다."
  dateExists := "같은 적용 시작일의 원가 이력이 이미 있습니다. 해당 이력을 정정해주세요."
  savedNotFound := "저장된 원가 규칙을 찾을 수 없습니다."
  snapshot := costSnapshot
  correction := costCorrection

def cpaFamily : RuleFamily CpaValues where
  code := "PRODUCT_CPA_RULE"
  snapshotFields := ["targetRatio", "watchRatio", "stopRatio", "note"]
  requiredFirstSnapshotFields := ["targetRatio", "watchRatio", "stopRatio"]
  correctionFields := ["targetRatio", "watchRatio", "stopRatio", "effectiveFrom", "note"]
  notFound := "CPA 규칙을 찾을 수 없습니다."
  productMismatch := "다른 제품의 CPA 이력은 정정할 수 없습니다."
  dateExists := "같은 적용 시작일의 CPA 이력이 이미 있습니다. 해당 이력을 정정해주세요."
  savedNotFound := "저장된 CPA 규칙을 찾을 수 없습니다."
  snapshot := cpaSnapshot
  correction := cpaCorrection

/-! ## 4. The two requests -/

/-- `normalizeCostRuleRanges` / `normalizeCpaRuleRanges`. -/
def normalizeRuleRanges (F : RuleFamily ν) (productId : String) (rules : List (ProductRule ν)) :
    Except RuleError (List (ProductRule ν)) := do
  assertNoDuplicateEffectiveDates (history productId rules) (F.code ++ "_DUPLICATE_DATES")
  return endRanges ruleDated (history productId rules) rules

inductive RuleOperation where
  | created
  | updatedSameDate
  | corrected
deriving DecidableEq

structure RuleWriteResult (ν : Type) where
  operation : RuleOperation
  rule : ProductRule ν
  effectiveFrom : String
  effectiveTo : Option String
  previousRuleEffectiveTo : Option String
  nextRuleEffectiveFrom : Option String

/-- `costRuleWriteResult` / `cpaRuleWriteResult`: the rule with its neighbours. -/
def ruleWriteResult (F : RuleFamily ν) (productId ruleId : String) (operation : RuleOperation)
    (rules : List (ProductRule ν)) : Except RuleError (RuleWriteResult ν) :=
  let ordered := history productId rules
  let index := ordered.findIdx fun r => r.id = ruleId
  match ordered[index]? with
  | none => refuse (F.code ++ "_NOT_FOUND") F.savedNotFound
  | some rule =>
    let previousRule := if index = 0 then none else ordered[index - 1]?
    .ok
      { operation
        rule
        effectiveFrom := formatDateOnly rule.effectiveFrom
        effectiveTo := rule.effectiveTo.map formatDateOnly
        previousRuleEffectiveTo := (previousRule.bind (·.effectiveTo)).map formatDateOnly
        nextRuleEffectiveFrom := ordered[index + 1]?.map fun r => formatDateOnly r.effectiveFrom }

/-- `update({ where: { id }, data })`. -/
def updateRule (id : String) (data : ProductRule ν → ProductRule ν) (rules : List (ProductRule ν)) :
    List (ProductRule ν) :=
  rules.map fun r => if r.id = id then data r else r

/-- `create({ data })`; the id is the primary key. -/
def createRule (rule : ProductRule ν) (rules : List (ProductRule ν)) :
    Except RuleError (List (ProductRule ν)) :=
  if rules.any fun r => r.id = rule.id then refuse "P2002" "Unique constraint failed on id"
  else .ok (rules ++ [rule])

def startDate (body : Body) : Except RuleError Int := do
  let text ← fromRequest (requiredString (body.get "effectiveFrom") "effectiveFrom")
  fromRequest (asDateOnly text)

/-- The start of a correction: the body's, or the one there is. -/
def startDateOr (body : Body) (old : Int) : Except RuleError Int :=
  if hasProvidedField body "effectiveFrom" then startDate body else .ok old

/-- The table once the snapshot is written: in place on its own day, else a new rule. -/
def writeSnapshot (env : RuleEnv) (productId : String) (sameDateRule : Option (ProductRule ν))
    (effectiveFrom : Int) (snapshot : ν) (rules : List (ProductRule ν)) :
    Except RuleError (String × RuleOperation × List (ProductRule ν)) :=
  match sameDateRule with
  | some same =>
    .ok (same.id, .updatedSameDate,
      updateRule same.id
        (fun r => { r with values := snapshot, effectiveFrom, effectiveTo := none }) rules)
  | none => do
    let rules ← createRule
      { id := env.id, productId, values := snapshot, effectiveFrom
        effectiveTo := none, createdAt := env.createdAt } rules
    return (env.id, .created, rules)

/-- `if (!baseRule) assertRequiredFields(...)`. -/
def assertBaseOrRequiredFields (F : RuleFamily ν) (body : Body) (baseRule : Option (ProductRule ν)) :
    Except RuleError Unit :=
  match baseRule with
  | some _ => .ok ()
  | none => assertRequiredFields body F.requiredFirstSnapshotFields (F.code ++ "_BASE_REQUIRED")

def saveRuleSnapshot (F : RuleFamily ν) (env : RuleEnv) (productId : String) (body : Body)
    (rules : List (ProductRule ν)) : Except RuleError (List (ProductRule ν) × RuleWriteResult ν) := do
  assertServerManagedEffectiveTo body (F.code ++ "_EFFECTIVE_TO_MANAGED")
  assertAtLeastOneField body F.snapshotFields (F.code ++ "_SNAPSHOT_EMPTY")
  let effectiveFrom ← startDate body
  let _ ← assertActiveProductWithClient env.products productId
  let existingRules := history productId rules
  assertNoDuplicateEffectiveDates existingRules (F.code ++ "_DUPLICATE_DATES")
  let sameDateRule := existingRules.find? fun r => r.effectiveFrom = effectiveFrom
  let baseRule := sameDateRule.or (latestRuleAtOrBefore existingRules effectiveFrom)
  assertBaseOrRequiredFields F body baseRule
  let snapshot ← F.snapshot env body (baseRule.map (·.values))
  let (savedId, operation, written) ← writeSnapshot env productId sameDateRule effectiveFrom snapshot rules
  let normalized ← normalizeRuleRanges F productId written
  let result ← ruleWriteResult F productId savedId operation normalized
  return (normalized, result)

def correctRule (F : RuleFamily ν) (env : RuleEnv) (productId ruleId : String) (body : Body)
    (rules : List (ProductRule ν)) : Except RuleError (List (ProductRule ν) × RuleWriteResult ν) := do
  assertServerManagedEffectiveTo body (F.code ++ "_EFFECTIVE_TO_MANAGED")
  assertAtLeastOneField body F.correctionFields (F.code ++ "_CORRECTION_EMPTY")
  let _ ← assertProductWithClient env.products productId
  match rules.find? fun r => r.id = ruleId with
  | none => refuse (F.code ++ "_NOT_FOUND") F.notFound
  | some existing =>
    if existing.productId ≠ productId then refuse (F.code ++ "_PRODUCT_MISMATCH") F.productMismatch
    else
      let effectiveFrom ← startDateOr body existing.effectiveFrom
      if rules.any fun r => r.productId = productId && r.effectiveFrom = effectiveFrom && r.id ≠ ruleId then
        refuse (F.code ++ "_DATE_EXISTS") F.dateExists
      else
        let corrected ← F.correction body existing.values
        let written := updateRule ruleId
          (fun r => { r with values := corrected, effectiveFrom }) rules
        let normalized ← normalizeRuleRanges F productId written
        let result ← ruleWriteResult F productId ruleId .corrected normalized
        return (normalized, result)

def saveCostRuleSnapshot (env : RuleEnv) (productId : String) (body : Body) :
    List (ProductRule CostValues) → Except RuleError (List (ProductRule CostValues) × RuleWriteResult CostValues) :=
  saveRuleSnapshot costFamily env productId body

def correctCostRule (env : RuleEnv) (productId ruleId : String) (body : Body) :
    List (ProductRule CostValues) → Except RuleError (List (ProductRule CostValues) × RuleWriteResult CostValues) :=
  correctRule costFamily env productId ruleId body

def saveCpaRuleSnapshot (env : RuleEnv) (productId : String) (body : Body) :
    List (ProductRule CpaValues) → Except RuleError (List (ProductRule CpaValues) × RuleWriteResult CpaValues) :=
  saveRuleSnapshot cpaFamily env productId body

def correctCpaRule (env : RuleEnv) (productId ruleId : String) (body : Body) :
    List (ProductRule CpaValues) → Except RuleError (List (ProductRule CpaValues) × RuleWriteResult CpaValues) :=
  correctRule cpaFamily env productId ruleId body

/-! ## 5. Sequences of requests -/

inductive RuleCall where
  | save (productId : String) (body : Body)
  | correct (productId ruleId : String) (body : Body)

def RuleCall.answer (F : RuleFamily ν) (env : RuleEnv) (rules : List (ProductRule ν)) :
    RuleCall → Except RuleError (List (ProductRule ν) × RuleWriteResult ν)
  | .save productId body => saveRuleSnapshot F env productId body rules
  | .correct productId ruleId body => correctRule F env productId ruleId body rules

/-- The table after a request; a request that throws is rolled back. -/
def RuleCall.run (F : RuleFamily ν) (rules : List (ProductRule ν)) (call : RuleEnv × RuleCall) :
    List (ProductRule ν) :=
  match call.2.answer F call.1 rules with
  | .ok (rules', _) => rules'
  | .error _ => rules

/-- A sequence of requests, from no rule. -/
def runCalls (F : RuleFamily ν) (calls : List (RuleEnv × RuleCall)) : List (ProductRule ν) :=
  calls.foldl (RuleCall.run F) []

/-- The columns in force for a product on a day. -/
def valuesAt (productId : String) (rules : List (ProductRule ν)) (date : Int) : Option ν :=
  (findEffectiveRuleForDate (rulesOf productId rules) date).map (·.values)

end AdsManagement.Meta
