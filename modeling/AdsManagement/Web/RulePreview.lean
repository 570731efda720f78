/-
  File:      Web/RulePreview.lean
  Subject:   THE RULE FORMS OF THE BROWSER (web/src/lib/meta-product-cost.ts and the forms of
             settings/products/page.tsx): what a save or a correction is going to do, computed
             from the rules the API has listed, and the body the form sends.

  Dates are texts here. `localeCompare` orders dates, timestamps and uuids as their characters
  do. `toISOString` throws on a date that does not exist, so what calls it is optional.

  * `previewMetaProductRuleHistory` -- the preview of a history;
  * `changedRulePayload`, `metaProductCostRulePayload`, `metaProductCpaRulePayload` -- the body;
  * `costRuleDraft`, `cpaRuleDraft`, `payloadBasis` -- what the forms compare a draft with;
  * `ruleJson` -- a rule as the API sends it.
-/
import AdsManagement.Meta.ProductRules

namespace AdsManagement.Web

open Common Meta

/-! ## 1. Rules in the browser -/

/-- `MetaProductEffectiveRule`; `values` are the columns of the family, which a rule made for a
    preview without a basis lacks. -/
structure MetaProductRule (κ : Type) where
  id : String
  productId : String
  effectiveFrom : String
  effectiveTo : Option String
  createdAt : Option String
  values : Option κ

variable {κ : Type}

/-- `value?.slice(0, 10) ?? ""`. -/
def dateKey (value : Option String) : String :=
  match value with
  | some text => String.ofList (text.toList.take 10)
  | none => ""

def validDateKey (value : Option String) : Option String :=
  if isIsoShape (dateKey value) then some (dateKey value) else none

/-- `new Date(text + "T00:00:00.000Z")`: a day past the end of its month is one of the next. -/
def isoDay (text : String) : Option Int := do
  let (year, rest) ← number4 text.toList
  let rest ← skipChar '-' rest
  let (month, rest) ← number2 rest
  let rest ← skipChar '-' rest
  let (day, rest) ← number2 rest
  if rest = [] ∧ 1 ≤ month ∧ month ≤ 12 ∧ 1 ≤ day ∧ day ≤ 31 then some (daysFromCivil year month day)
  else none

def previousDateInput (value : String) : Option String :=
  (isoDay value).map fun date => formatDateOnly (date - 1)

/-- What both comparators compare, one upwards and one downwards. -/
def metaRuleRank (rule : MetaProductRule κ) : String ×ₗ (String ×ₗ String) :=
  toLex (dateKey (some rule.effectiveFrom), toLex (rule.createdAt.getD "", rule.id))

def compareMetaProductRulePriority (left right : MetaProductRule κ) : Prop :=
  metaRuleRank right ≤ metaRuleRank left

def compareMetaProductRuleChronology (left right : MetaProductRule κ) : Prop :=
  metaRuleRank left ≤ metaRuleRank right

instance : DecidableRel (@compareMetaProductRulePriority κ) :=
  fun a b => inferInstanceAs (Decidable (metaRuleRank b ≤ metaRuleRank a))

instance : DecidableRel (@compareMetaProductRuleChronology κ) :=
  fun a b => inferInstanceAs (Decidable (metaRuleRank a ≤ metaRuleRank b))

/-- `.sort(compareMetaProductRulePriority)[0] ?? null`. -/
def firstByPriority (rules : List (MetaProductRule κ)) : Option (MetaProductRule κ) :=
  (rules.insertionSort compareMetaProductRulePriority).head?

/-- `.sort(compareMetaProductRuleChronology)[0] ?? null`. -/
def firstByChronology (rules : List (MetaProductRule κ)) : Option (MetaProductRule κ) :=
  (rules.insertionSort compareMetaProductRuleChronology).head?

/-- The range of a rule holds a date. -/
def isInForce (date : String) (rule : MetaProductRule κ) : Bool :=
  (validDateKey (some rule.effectiveFrom)).any fun effectiveFrom =>
    effectiveFrom ≤ date && (validDateKey rule.effectiveTo).all (date ≤ ·)

def ruleForDate (rules : List (MetaProductRule κ)) (date : String) : Option (MetaProductRule κ) :=
  firstByPriority (rules.filter (isInForce date))

/-- `nextRule ? previousDateInput(dateKey(nextRule.effectiveFrom)) : null`. -/
def endBefore (nextRule : Option (MetaProductRule κ)) : Option (Option String) :=
  match nextRule with
  | some next => (previousDateInput (dateKey (some next.effectiveFrom))).map some
  | none => some none

/-- Every rule ends the day before the next one in the list. -/
def closeRanges : List (MetaProductRule κ) → Option (List (MetaProductRule κ))
  | [] => some []
  | rule :: rest => do
    let effectiveTo ← endBefore rest.head?
    let closed ← closeRanges rest
    return { rule with effectiveTo } :: closed

def normalizeMetaProductRuleRanges (rules : List (MetaProductRule κ)) :
    Option (List (MetaProductRule κ)) :=
  closeRanges (rules.insertionSort compareMetaProductRuleChronology)

/-! ## 2. The preview -/

inductive CurrentValueImpact where
  | current
  | historical
  | future
  | rejectedDateCollision
deriving DecidableEq

structure MetaProductRuleHistoryPreview (κ : Type) where
  currentRule : Option (MetaProductRule κ)
  basisRule : Option (MetaProductRule κ)
  sameDateRule : Option (MetaProductRule κ)
  dateCollisionRule : Option (MetaProductRule κ)
  nextRule : Option (MetaProductRule κ)
  expectedEffectiveTo : Option String
  currentValueImpact : CurrentValueImpact

/-- The id of a rule that is not there yet. -/
def previewRuleId : String := "__meta-product-rule-preview__"

/-- `correctingRuleId ? datedRules.find(…) ?? null : null`. -/
def selectRule (datedRules : List (MetaProductRule κ)) (correctingRuleId : Option String) :
    Option (MetaProductRule κ) :=
  if isTruthy correctingRuleId then datedRules.find? fun rule => some rule.id = correctingRuleId else none

/-- `selectedRule ? datedRules.filter((rule) => rule.id !== selectedRule.id) : datedRules`. -/
def candidateRules (datedRules : List (MetaProductRule κ)) (selectedRule : Option (MetaProductRule κ)) :
    List (MetaProductRule κ) :=
  match selectedRule with
  | some selected => datedRules.filter fun rule => rule.id ≠ selected.id
  | none => datedRules

/-- `targetDate > today ? "FUTURE" : "HISTORICAL"`, the rule in force today as it is and as it
    will be taken first. -/
def currentImpact (dateCollisionRule currentRule currentAfterSave : Option (MetaProductRule κ))
    (previewId targetDate today : String) : CurrentValueImpact :=
  let changesCurrentRule :=
    currentRule.map (·.id) = some previewId ∨ currentAfterSave.map (·.id) = some previewId ∨
      currentRule.map (·.id) ≠ currentAfterSave.map (·.id)
  if dateCollisionRule.isSome then .rejectedDateCollision
  else if changesCurrentRule then .current
  else if today < targetDate then .future
  else .historical

def previewMetaProductRuleHistory (rules : List (MetaProductRule κ)) (targetDate today : String)
    (correctingRuleId : Option String) : Option (MetaProductRuleHistoryPreview κ) := do
  let datedRules := rules.filter fun rule => (validDateKey (some rule.effectiveFrom)).isSome
  let currentRule := ruleForDate datedRules today
  let selectedRule := selectRule datedRules correctingRuleId
  let candidates := candidateRules datedRules selectedRule
  let sameDateRule :=
    firstByPriority (candidates.filter fun rule => dateKey (some rule.effectiveFrom) = targetDate)
  let dateCollisionRule := if selectedRule.isSome then sameDateRule else none
  let basisRule := (selectedRule.or sameDateRule).or
    (firstByPriority (candidates.filter fun rule => dateKey (some rule.effectiveFrom) ≤ targetDate))
  let nextRule :=
    firstByChronology (candidates.filter fun rule => targetDate < dateKey (some rule.effectiveFrom))
  let expectedEffectiveTo ← endBefore nextRule
  let previewId := ((selectedRule.or sameDateRule).map (·.id)).getD previewRuleId
  let previewRule : MetaProductRule κ :=
    { id := previewId
      productId := ((basisRule.or datedRules.head?).map (·.productId)).getD ""
      effectiveFrom := targetDate
      effectiveTo := expectedEffectiveTo
      createdAt := some (((selectedRule.bind (·.createdAt)).or (sameDateRule.bind (·.createdAt))).getD
        "9999-12-31T23:59:59.999Z")
      values := basisRule.bind (·.values) }
  let normalizedCandidates ← normalizeMetaProductRuleRanges
    (candidates.filter (fun rule => some rule.id ≠ sameDateRule.map (·.id)) ++ [previewRule])
  let currentAfterSave := ruleForDate normalizedCandidates today
  return {
    currentRule
    basisRule
    sameDateRule
    dateCollisionRule
    nextRule
    expectedEffectiveTo
    currentValueImpact :=
      currentImpact dateCollisionRule currentRule currentAfterSave previewId targetDate today }

/-! ## 3. Drafts and bodies -/

structure MetaProductCostRuleDraft where
  salePriceKrw : String
  productCostKrw : String
  shippingKrw : String
  extraCostKrw : String
  effectiveFrom : String
  note : String

structure MetaProductCpaRuleDraft where
  targetRatio : String
  watchRatio : String
  stopRatio : String
  effectiveFrom : String
  note : String

inductive MetaProductRulePayloadMode where
  | snapshot
  | correction
deriving DecidableEq

/-- `note.trim() || null`. -/
def trimmedNote (note : String) : Option String := if trim note = "" then none else some (trim note)

/-- A note in a body. -/
def noteJson : Option String → Json
  | some text => .str text
  | none => .null

variable {τ : Type}

/-- `!basis || draft[field] !== basis[field]`. -/
def isChanged (draft : τ) (basis : Option τ) (field : τ → String) : Bool :=
  basis.all fun b => field draft ≠ field b

/-- The body with what differs from the basis: `fields` are the numeric fields with their names. -/
def changedRulePayload (effectiveFrom note : τ → String) (fields : List (String × (τ → String)))
    (draft : τ) (basis : Option τ) (mode : MetaProductRulePayloadMode) : Body :=
  let start := dateKey (some (effectiveFrom draft))
  (if mode = .snapshot ∨ start ≠ dateKey (basis.map effectiveFrom) then [("effectiveFrom", .str start)]
    else []) ++
  (fields.filter fun field => isChanged draft basis field.2).map
    (fun field => (field.1, .str (field.2 draft))) ++
  (if trimmedNote (note draft) ≠ basis.bind (fun b => trimmedNote (note b)) then
    [("note", noteJson (trimmedNote (note draft)))] else [])

/-- `isEmptySave`: a form without a changed value cannot be sent. -/
def isEmptySave (payload : Body) : MetaProductRulePayloadMode → Bool
  | .correction => payload.isEmpty
  | .snapshot => payload.all fun field => field.1 = "effectiveFrom"

def metaProductCostRulePayload (draft : MetaProductCostRuleDraft)
    (basis : Option MetaProductCostRuleDraft) (mode : MetaProductRulePayloadMode) : Body :=
  changedRulePayload (·.effectiveFrom) (·.note)
    [("salePriceKrw", (·.salePriceKrw)), ("productCostKrw", (·.productCostKrw)),
      ("shippingKrw", (·.shippingKrw)), ("extraCostKrw", (·.extraCostKrw))] draft basis mode

def metaProductCpaRulePayload (draft : MetaProductCpaRuleDraft)
    (basis : Option MetaProductCpaRuleDraft) (mode : MetaProductRulePayloadMode) : Body :=
  changedRulePayload (·.effectiveFrom) (·.note)
    [("targetRatio", (·.targetRatio)), ("watchRatio", (·.watchRatio)), ("stopRatio", (·.stopRatio))]
    draft basis mode

/-! ## 4. Rules as the API sends them -/

/-- The columns of a cost rule in JSON: numbers are the texts of their decimals. -/
structure CostTexts where
  salePriceKrw : String
  vatKrw : String
  productCostKrw : String
  shippingKrw : String
  extraCostKrw : String
  fxRateKrwPerUsd : String
  note : Option String

structure CpaTexts where
  targetRatio : String
  watchRatio : String
  stopRatio : String
  note : Option String

def costTexts (v : CostValues) : CostTexts where
  salePriceKrw := v.salePriceKrw.text
  vatKrw := v.vatKrw.text
  productCostKrw := v.productCostKrw.text
  shippingKrw := v.shippingKrw.text
  extraCostKrw := v.extraCostKrw.text
  fxRateKrwPerUsd := v.fxRateKrwPerUsd.text
  note := v.note

def cpaTexts (v : CpaValues) : CpaTexts where
  targetRatio := v.targetRatio.text
  watchRatio := v.watchRatio.text
  stopRatio := v.stopRatio.text
  note := v.note

/-- `toJSON` of a day. -/
def dateJson (d : Int) : String := formatDateOnly d ++ "T00:00:00.000Z"

/-- Three digits of milliseconds. -/
def pad3 (n : Nat) : List Char := digitChar (n / 100) :: pad2 n

/-- `toJSON` of a time in milliseconds. -/
def timeJson (ms : Nat) : String :=
  formatDateOnly (ms / 86400000 : Nat) ++ String.ofList
    ('T' :: (pad2 (ms / 3600000 % 24) ++ ':' :: (pad2 (ms / 60000 % 60) ++ ':' ::
      (pad2 (ms / 1000 % 60) ++ '.' :: (pad3 (ms % 1000) ++ ['Z'])))))

def ruleJson {ν : Type} (texts : ν → κ) (r : ProductRule ν) : MetaProductRule κ where
  id := r.id
  productId := r.productId
  effectiveFrom := dateJson r.effectiveFrom
  effectiveTo := r.effectiveTo.map dateJson
  createdAt := some (timeJson r.createdAt)
  values := some (texts r.values)

/-- `costRuleDraft(rule, effectiveFrom)` of the form. -/
def costRuleDraft (rule : Option (MetaProductRule CostTexts)) (effectiveFrom : String) :
    MetaProductCostRuleDraft :=
  let values := rule.bind (·.values)
  { salePriceKrw := (values.map (·.salePriceKrw)).getD ""
    productCostKrw := (values.map (·.productCostKrw)).getD "0"
    shippingKrw := (values.map (·.shippingKrw)).getD "0"
    extraCostKrw := (values.map (·.extraCostKrw)).getD "0"
    effectiveFrom := dateKey (some effectiveFrom)
    note := (values.bind (·.note)).getD "" }

def cpaRuleDraft (rule : Option (MetaProductRule CpaTexts)) (effectiveFrom : String) :
    MetaProductCpaRuleDraft :=
  let values := rule.bind (·.values)
  { targetRatio := (values.map (·.targetRatio)).getD "0.8"
    watchRatio := (values.map (·.watchRatio)).getD "1.1"
    stopRatio := (values.map (·.stopRatio)).getD "1.25"
    effectiveFrom := dateKey (some effectiveFrom)
    note := (values.bind (·.note)).getD "" }

/-- `payloadBasis`: the corrected rule on its own day, or the basis of the preview on the day of
    the draft. -/
def payloadBasis (ruleDraft : Option (MetaProductRule κ) → String → τ)
    (correctingRule basisRule : Option (MetaProductRule κ)) (effectiveFrom : String) : Option τ :=
  match correctingRule with
  | some rule => some (ruleDraft (some rule) rule.effectiveFrom)
  | none => basisRule.map fun rule => ruleDraft (some rule) effectiveFrom

end AdsManagement.Web
