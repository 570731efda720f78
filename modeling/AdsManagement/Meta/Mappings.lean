/-
  File:      Meta/Mappings.lean
  Subject:   MAPPINGS OF ADSETS TO PRODUCTS AND STAGES: manual mappings with their date ranges,
             the match rules, and the two matchers (mappings/mappings.service.ts,
             domain/matching.ts).

  A manual mapping is a row of a history table; the product table and the stage table have the
  same columns but for the value, so both are lists of `ManualHistory`, in the order of their
  creation. A query without `orderBy` may answer in any order, which a `RowOrder` stands for.
  Notes, creators and audit records are written and never read by the matchers, and left out;
  so are the copies of an attribution in the rows of an upload. `new RegExp(pattern, "i")` is
  handed in.

  * `matchProduct`, `matchStage` -- what an import asks;
  * `createManualProductMapping`, `createManualStageMapping` -- the two requests.
-/
import AdsManagement.Meta.MetricStore

namespace AdsManagement.Meta

open Common Lib Coupang

/-! ## 1. Tables -/

/-- A row of `adset_product_histories` (its value a product) or `adset_stage_histories`. -/
structure ManualHistory (α : Type) where
  id : Nat
  metaAdsetId : Nat
  value : α
  effectiveFrom : Int
  effectiveTo : Option Int
deriving DecidableEq

inductive MatchType where
  | CONTAINS
  | EXACT
  | REGEX
  | MANUAL
deriving DecidableEq

structure ProductMatchRule where
  id : String
  productId : String
  matchType : MatchType
  pattern : String
  patternKey : Option String
  priority : Int
  validFrom : Int
  validTo : Option Int
  isActive : Bool

structure Product where
  id : String
  isActive : Bool

structure MappingStore where
  store : MetaStore
  productHistories : List (ManualHistory String)
  stageHistories : List (ManualHistory AdStage)
  rules : List ProductMatchRule
  products : List Product

/-- The order in which the database answers a query that leaves it open. -/
structure RowOrder (α : Type) where
  arrange : List α → List α
  perm : ∀ l, (arrange l).Perm l

/-- What the mappings service gets from outside. -/
structure MappingEnv where
  now : Nat
  toLowerCase : String → String
  toUpperCase : String → String
  /-- `new RegExp(pattern, "i").test(text)`. -/
  regexTest : String → String → Bool
  order : QueryOrder
  productHistories : RowOrder (ManualHistory String)
  stageHistories : RowOrder (ManualHistory AdStage)
  rules : RowOrder ProductMatchRule

/-! ## 2. The matchers -/

def isDateInRange (date : String) (start stop : Option String) : Bool :=
  if isTruthy start && date < start.getD "" then false
  else if isTruthy stop && stop.getD "" < date then false
  else true

/-- A mapping as the matchers see it, its dates written out. -/
def ManualHistory.covers {α : Type} (history : ManualHistory α) (date : String) : Bool :=
  isDateInRange date (some (formatDateOnly history.effectiveFrom))
    (history.effectiveTo.map formatDateOnly)

def ProductMatchRule.matches (env : MappingEnv) (nameKey : String) (rule : ProductMatchRule) : Bool :=
  let pattern := rule.patternKey.getD (AdsetNameNormalizer.toKey env.toLowerCase rule.pattern)
  match rule.matchType with
  | .EXACT => nameKey = pattern
  | .REGEX => env.regexTest pattern nameKey
  | _ => includesText nameKey.toList pattern

/-- `AdsetProductMatcher.match`. -/
def matchAdsetProduct (env : MappingEnv) (adsetName : String) (metricDate : String)
    (histories : List (ManualHistory String)) (rules : List ProductMatchRule) : ProductMatch :=
  match histories.find? fun history => history.covers metricDate with
  | some manual => ⟨some manual.value, .MANUAL, none⟩
  | none =>
    let nameKey := AdsetNameNormalizer.toKey env.toLowerCase adsetName
    let activeRules := (rules.filter fun rule => rule.isActive &&
      isDateInRange metricDate (some (formatDateOnly rule.validFrom))
        (rule.validTo.map formatDateOnly)).insertionSort fun a b => a.priority ≤ b.priority
    match activeRules.find? (ProductMatchRule.matches env nameKey) with
    | some rule => ⟨some rule.productId, .RULE, some rule.id⟩
    | none => ⟨none, .UNMATCHED, none⟩

/-- `(^|[\s_-])token($|[\s_-])`: the token is one of the pieces between separators. -/
def hasStageToken (nameKey token : String) : Bool :=
  (nameKey.toList.splitOnP fun c => isJsSpace c || c = '_' || c = '-').any fun piece =>
    piece.map lowerChar = token.toList

/-- `AdsetStageMatcher.match`. -/
def matchAdsetStage (env : MappingEnv) (adsetName : String) (metricDate : String)
    (histories : List (ManualHistory AdStage)) : StageMatch :=
  match histories.find? fun history => history.covers metricDate with
  | some manual => ⟨manual.value, .MANUAL⟩
  | none =>
    let key := AdsetNameNormalizer.toKey env.toLowerCase adsetName
    if hasStageToken key "asc" then ⟨.ASC, .INFERRED⟩
    else if hasStageToken key "cbo" then ⟨.CBO, .INFERRED⟩
    else if hasStageToken key "sc" then ⟨.SC, .INFERRED⟩
    else ⟨.UNKNOWN, .UNMATCHED⟩

def ofAdset {α : Type} (metaAdsetId : Nat) (histories : List (ManualHistory α)) :
    List (ManualHistory α) :=
  histories.filter fun history => history.metaAdsetId = metaAdsetId

def productIsActive (products : List Product) (productId : String) : Bool :=
  products.any fun product => product.id = productId && product.isActive

/-- `where: { isActive: true, product: { is: { isActive: true } } }`, by priority. -/
def activeRules (env : MappingEnv) (db : MappingStore) : List ProductMatchRule :=
  (env.rules.arrange (db.rules.filter fun rule =>
    rule.isActive && productIsActive db.products rule.productId)).insertionSort
      fun a b => a.priority ≤ b.priority

section

variable (env : MappingEnv) (db : MappingStore) (metaAdsetId : Nat) (adsetName : String)
  (metricDate : Int)

def matchProduct : ProductMatch :=
  matchAdsetProduct env adsetName (formatDateOnly metricDate)
    (env.productHistories.arrange (ofAdset metaAdsetId db.productHistories)) (activeRules env db)

def matchStage : StageMatch :=
  matchAdsetStage env adsetName (formatDateOnly metricDate)
    (env.stageHistories.arrange (ofAdset metaAdsetId db.stageHistories))

end

/-! ## 3. The adset of a request -/

/-- `timestamp(lastSeenOn ?? createdAt)`, in milliseconds. -/
def adsetTimestamp (adset : MetaAdset) : Int :=
  match adset.lastSeenOn with
  | some day => day * 86400000
  | none => adset.createdAt

/-- Adsets with an external id first, then the one seen last. -/
def bestAdsetCandidate (candidates : List MetaAdset) : Option MetaAdset :=
  (candidates.insertionSort fun left right =>
    if isTruthy left.externalAdsetId = isTruthy right.externalAdsetId then
      adsetTimestamp right ≤ adsetTimestamp left
    else isTruthy left.externalAdsetId).head?

/-- An adset that no report has named yet. -/
def unseenAdset (externalAdsetId : Option String) (adsetName adsetNameKey : String) (now id : Nat) :
    MetaAdset where
  id := id
  externalAdsetId := externalAdsetId
  adsetName := adsetName
  adsetNameKey := adsetNameKey
  firstSeenOn := none
  lastSeenOn := none
  currentProductId := none
  currentStage := .UNKNOWN
  createdAt := now

def adsetNotFound (message : String) : ApiError := ⟨"ADSET_NOT_FOUND", message⟩

/-- `resolveAdset`. Under the fence the second read of an adset finds what the first one found. -/
def resolveAdset (env : MappingEnv) (body : Body) (table : AdsetTable) :
    Except ApiError (AdsetTable × MetaAdset) :=
  match optionalString (body.get "metaAdsetId") with
  | some metaAdsetId =>
    match table.rows.find? fun adset => idText adset.id = metaAdsetId with
    | some found => .ok (table, found)
    | none => .error (adsetNotFound "광고세트를 찾을 수 없습니다.")
  | none =>
    match (optionalString (body.get "externalAdsetId")).or
        (optionalString (body.get "metaAdsetExternalId")) with
    | some externalAdsetId =>
      match table.rows.find? fun adset => adset.externalAdsetId = some externalAdsetId with
      | some found => .ok (table, found)
      | none =>
        match optionalString (body.get "adsetName") with
        | none => .error (adsetNotFound "externalAdsetId에 해당하는 광고세트를 찾을 수 없습니다.")
        | some adsetName =>
          let adsetNameKey := AdsetNameNormalizer.toKey env.toLowerCase adsetName
          match bestAdsetCandidate (env.order.adsets (table.rows.filter fun adset =>
              adset.externalAdsetId = none ∧ adset.adsetNameKey = adsetNameKey)) with
          | some legacy =>
            let change (adset : MetaAdset) : MetaAdset :=
              { adset with
                externalAdsetId := some externalAdsetId
                adsetName := AdsetNameNormalizer.normalizeName adsetName
                adsetNameKey }
            .ok (table.update legacy.id change, change legacy)
          | none =>
            let make := unseenAdset (some externalAdsetId) (AdsetNameNormalizer.normalizeName adsetName)
              adsetNameKey env.now
            .ok (table.create make, make table.nextId)
    | none => do
      let adsetName ← requiredString (body.get "adsetName") "adsetName"
      let adsetNameKey := AdsetNameNormalizer.toKey env.toLowerCase adsetName
      match bestAdsetCandidate (env.order.adsets (table.rows.filter fun adset =>
          adset.adsetNameKey = adsetNameKey)) with
      | some existing => .ok (table, existing)
      | none =>
        let make := unseenAdset none (AdsetNameNormalizer.normalizeName adsetName) adsetNameKey env.now
        .ok (table.create make, make table.nextId)

def ensureProduct (products : List Product) (productId : String) : Except ApiError Unit :=
  match products.find? fun product => product.id = productId with
  | some product =>
    if product.isActive then .ok ()
    else .error ⟨"PRODUCT_INACTIVE", "Inactive products cannot be used for mappings."⟩
  | none => .error ⟨"PRODUCT_NOT_FOUND", "제품을 찾을 수 없습니다."⟩

/-! ## 4. Manual mappings -/

/-- `metricDate: { gte: effectiveFrom, ...(effectiveTo ? { lte: effectiveTo } : {}) }`. -/
def inRange (effectiveFrom : Int) (effectiveTo : Option Int) (date : Int) : Bool :=
  effectiveFrom ≤ date && effectiveTo.all fun stop => date ≤ stop

/-- `updateMany` on the metrics of a table. -/
def updateMetrics {κ δ : Type} (sel : Versioned κ δ → Bool) (change : δ → δ) (table : VersionTable κ δ) :
    VersionTable κ δ :=
  { table with
    rows := table.rows.map fun row => if sel row then { row with data := change row.data } else row }

section

variable (metaAdsetId : Nat) (effectiveFrom : Int) (effectiveTo : Option Int)

/-- The current metrics of an adset in a range of dates. -/
def selectsAdset (row : MetaAdsetDailyMetric) : Bool :=
  row.key.metaAdsetId = metaAdsetId && row.current && inRange effectiveFrom effectiveTo row.key.metricDate

def selectsAd (row : MetaAdDailyMetric) : Bool :=
  row.data.metaAdsetRefId = metaAdsetId && row.current &&
    inRange effectiveFrom effectiveTo row.key.metricDate

/-- Both metric tables after one change of the selected rows. -/
def applyToMetrics
    (adset : AdsetMetricData → AdsetMetricData) (ad : AdMetricData → AdMetricData) (store : MetaStore) :
    MetaStore :=
  { store with
    adsetMetrics := updateMetrics (selectsAdset metaAdsetId effectiveFrom effectiveTo) adset store.adsetMetrics
    adMetrics := updateMetrics (selectsAd metaAdsetId effectiveFrom effectiveTo) ad store.adMetrics }

end

def manualProductAdset (productId : String) (data : AdsetMetricData) : AdsetMetricData :=
  { data with productId := some productId, productMatchSource := .MANUAL, productMatchRuleId := none }

def manualProductAd (productId : String) (data : AdMetricData) : AdMetricData :=
  { data with productId := some productId, productMatchSource := .MANUAL, productMatchRuleId := none }

def manualStageAdset (stage : AdStage) (data : AdsetMetricData) : AdsetMetricData :=
  { data with stage, stageMatchSource := .MANUAL }

def manualStageAd (stage : AdStage) (data : AdMetricData) : AdMetricData :=
  { data with stage, stageMatchSource := .MANUAL }

/-- The dates of a mapping request. -/
def mappingDates (body : Body) : Except ApiError (Int × Option Int) := do
  let text ← requiredString (body.get "effectiveFrom") "effectiveFrom"
  let effectiveFrom ← asDateOnly text
  if isFalsyValue (body.get "effectiveTo") then .ok (effectiveFrom, none)
  else
    let effectiveTo ← asDateOnly (((body.get "effectiveTo").map jsText).getD "")
    .ok (effectiveFrom, some effectiveTo)

/-- A mapping request creates one history row and may rewrite the metrics it covers. -/
def createManualProductMapping (env : MappingEnv) (body : Body) (db : MappingStore) :
    Except ApiError MappingStore := do
  let productId ← requiredString (body.get "productId") "productId"
  let (effectiveFrom, effectiveTo) ← mappingDates body
  let (adsets, metaAdset) ← resolveAdset env body db.store.adsets
  ensureProduct db.products productId
  let store : MetaStore :=
    { db.store with
      adsets := adsets.update metaAdset.id fun adset => { adset with currentProductId := some productId } }
  let applied := !isFalsyValue (body.get "applyCurrentMetrics")
  .ok { db with
    store := if applied then applyToMetrics metaAdset.id effectiveFrom effectiveTo
        (manualProductAdset productId) (manualProductAd productId) store else store
    productHistories := db.productHistories ++
      [⟨db.productHistories.length, metaAdset.id, productId, effectiveFrom, effectiveTo⟩] }

def parseStage (env : MappingEnv) (value : Option Json) : Except ApiError AdStage :=
  let text := env.toUpperCase (match value with
    | none => ""
    | some .null => ""
    | some v => jsText v)
  if text = "SC" then .ok .SC
  else if text = "CBO" then .ok .CBO
  else if text = "ASC" then .ok .ASC
  else if text = "UNKNOWN" then .ok .UNKNOWN
  else .error ⟨"INVALID_STAGE", "stage 값이 올바르지 않습니다."⟩

def createManualStageMapping (env : MappingEnv) (body : Body) (db : MappingStore) :
    Except ApiError MappingStore := do
  let stage ← parseStage env (body.get "stage")
  let (effectiveFrom, effectiveTo) ← mappingDates body
  let (adsets, metaAdset) ← resolveAdset env body db.store.adsets
  let store : MetaStore :=
    { db.store with
      adsets := adsets.update metaAdset.id fun adset => { adset with currentStage := stage } }
  let applied := !isFalsyValue (body.get "applyCurrentMetrics")
  .ok { db with
    store := if applied then applyToMetrics metaAdset.id effectiveFrom effectiveTo
        (manualStageAdset stage) (manualStageAd stage) store else store
    stageHistories := db.stageHistories ++
      [⟨db.stageHistories.length, metaAdset.id, stage, effectiveFrom, effectiveTo⟩] }

inductive MappingRequest where
  | product (env : MappingEnv) (body : Body)
  | stage (env : MappingEnv) (body : Body)

def MappingRequest.answer (db : MappingStore) : MappingRequest → Except ApiError MappingStore
  | .product env body => createManualProductMapping env body db
  | .stage env body => createManualStageMapping env body db

/-- A request that fails leaves the database as it was. -/
def MappingRequest.run (db : MappingStore) (request : MappingRequest) : MappingStore :=
  match request.answer db with
  | .ok db' => db'
  | .error _ => db

def runRequests (requests : List MappingRequest) (db : MappingStore) : MappingStore :=
  requests.foldl MappingRequest.run db

end AdsManagement.Meta
