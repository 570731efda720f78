/-
  File:      Meta/MetricStore.lean
  Subject:   THE META METRICS: ad and adset metrics with their versions, and the operations on them
             (uploads/meta-ad-daily-import.service.ts, meta-adset-import.service.ts,
             meta-metric-version.service.ts, meta-adset-aggregate.service.ts,
             meta-entity-writer.service.ts, upload-lifecycle.service.ts).

  Both metric tables are versioned tables: `batch` is `uploadBatchId`, `version` is
  `importVersion`, `current` is `isCurrent`, the columns of the unique constraint are the `key`
  and the other columns the `data`. Campaigns, ads and creatives never come back into a metric's
  key, flag or sums and are left out, with the ids that refer to them; so is
  `supersededByMetricId`, which is written and never read. Dates are day numbers.

  * `importAdDailyMetric`, `importMetric`, `importAdsetAggregateMetric` -- one metric;
  * `refreshAdsetAggregatesFromAdMetrics` -- the adset metrics made from the ad metrics;
  * `importMetaAdDailyCsv`, `importMetaAdsetCsv`, `deleteUpload` -- the operations;
  * `Operation`, `Reachable` -- the stores of all runs.
-/
import AdsManagement.Lib.VersionedTable
import AdsManagement.Cafe24.UploadStore
import AdsManagement.Meta.Csv

namespace AdsManagement.Meta

open Common Lib Coupang

/-! ## 1. The tables -/

/-- The stage of an adset. -/
inductive AdStage where
  | SC
  | CBO
  | ASC
  | UNKNOWN
deriving DecidableEq

/-- An ad on a day. -/
structure AdMetricKey where
  metricDate : Int
  metaCampaignId : String
  metaAdsetId : String
  adIdentityKey : String
deriving DecidableEq

/-- An adset on a day. -/
structure AdsetMetricKey where
  metricDate : Int
  metaAdsetId : Nat
deriving DecidableEq

/-- The product and the stage of a metric, and where they come from. -/
structure MatchColumns where
  productId : Option String
  stage : AdStage
  productMatchSource : MatchSource
  stageMatchSource : MatchSource
  productMatchRuleId : Option String

/-- The columns of an ad metric. -/
structure AdMetricData extends PlainColumns, MatchColumns where
  metaAdsetRefId : Nat
  campaignNameSnapshot : String
  adsetNameSnapshot : String
  adNameSnapshot : String
  adDeliveryStatus : Option String
  purchaseCount : Int
  spendUsd : Scaled 4

/-- A version of an ad metric. -/
abbrev MetaAdDailyMetric := Versioned AdMetricKey AdMetricData

/-- `rawRow` of an adset metric: the row of the file, or what the metric was aggregated from. -/
inductive AdsetRawRow where
  | file (rawRow : RawRow)
  | aggregate (metricIds : List Nat) (metaCampaignId metaAdsetId : String) (adCount : Nat)

/-- The columns of an adset metric. -/
structure AdsetMetricData extends PlainColumns, MatchColumns where
  adsetName : String
  adsetNameKey : String
  deliveryStatus : Option String
  resultCount : Int
  frequency : Option (Scaled 6)
  costPerResultUsd : Option (Scaled 4)
  spendUsd : Scaled 4
  startDate : Option Int
  cpmUsd : Option (Scaled 4)
  cpcLinkUsd : Option (Scaled 4)
  ctrLinkPct : Option (Scaled 6)
  ctrAllPct : Option (Scaled 6)
  cpcAllUsd : Option (Scaled 4)
  costPerLandingPageViewUsd : Option (Scaled 4)
  rawRow : AdsetRawRow

/-- A version of an adset metric. -/
abbrev MetaAdsetDailyMetric := Versioned AdsetMetricKey AdsetMetricData

/-- An adset, by its external id or its name. -/
structure MetaAdset where
  id : Nat
  externalAdsetId : Option String
  adsetName : String
  adsetNameKey : String
  firstSeenOn : Option Int
  lastSeenOn : Option Int
  currentProductId : Option String
  currentStage : AdStage
  createdAt : Nat

/-- The adsets, with the next id. -/
structure AdsetTable where
  rows : List MetaAdset
  nextId : Nat

/-- What the rows of a file are about. -/
inductive UploadLevel where
  | AD
  | ADSET
deriving DecidableEq

/-- Whether the original file of a batch is stored (`columnSchema`, its storage marker). -/
inductive StorageState where
  | PENDING
  | STORED
deriving DecidableEq

/-- The batch of a file. -/
structure UploadBatch where
  id : Nat
  fileHashSha256 : String
  level : UploadLevel
  storage : StorageState
  rowCount : Nat
  validRowCount : Nat
  warningCount : Nat
  errorCount : Nat
  conflictPolicy : ConflictPolicy
  status : UploadStatus
  reportStart : Option Int
  reportEnd : Option Int
  importedAt : Option Nat

/-- The record of a row of a file. -/
structure UploadRow where
  uploadBatchId : Nat
  rowNumber : Nat
  validationStatus : RowValidationStatus

/-- An issue of a row, or of the whole file. -/
structure UploadRowError extends IssueColumns where
  uploadBatchId : Nat
  rowNumber : Option Nat

/-- The tables of the imports. -/
structure MetaStore where
  batches : List UploadBatch
  nextBatchId : Nat
  uploadRows : List UploadRow
  rowErrors : List UploadRowError
  adsets : AdsetTable
  adMetrics : VersionTable AdMetricKey AdMetricData
  adsetMetrics : VersionTable AdsetMetricKey AdsetMetricData

/-- Before the first import. -/
def emptyStore : MetaStore := ⟨[], 0, [], [], ⟨[], 0⟩, ⟨[], 0⟩, ⟨[], 0⟩⟩

/-! ## 2. Keys -/

/-- An id in the text of a key. -/
def idText (id : Nat) : String := String.ofList (natText id)

/-- The text of the key of an adset metric. -/
def snapshotMetricKey (key : AdsetMetricKey) : String :=
  formatDateOnly key.metricDate ++ ":" ++ idText key.metaAdsetId

/-- The text of the key of an ad metric. -/
def snapshotAdMetricKey (key : AdMetricKey) : String :=
  formatDateOnly key.metricDate ++ ":" ++ key.metaCampaignId ++ ":" ++ key.metaAdsetId ++ ":" ++
    key.adIdentityKey

/-- Every value that occurs more than once, in the order of the second occurrences. -/
def duplicatedValues (values : List String) : List String :=
  (values.foldl (fun (state : List String × List String) value =>
    (state.1 ++ [value],
      if state.1.contains value && !state.2.contains value then state.2 ++ [value] else state.2))
    ([], [])).2

/-- Of two metrics with one text key the later stays. -/
def uniqueAdMetricKeys (keys : List AdMetricKey) : List AdMetricKey :=
  (OrderedMap.ofList (keys.map fun key => (snapshotAdMetricKey key, key))).values

/-- The keys with different texts. -/
def uniqueAdsetMetricKeys (keys : List AdsetMetricKey) : List AdsetMetricKey :=
  (OrderedMap.ofList (keys.map fun key => (snapshotMetricKey key, key))).values

/-! ## 3. Metric versions -/

/-- What becomes of a row whose key is current. -/
structure DuplicateDecision where
  importMetric : Bool
  supersedeExisting : Bool
  note : String

/-- `DuplicatePolicyResolver.resolve`. -/
def resolve (policy : ConflictPolicy) (hasCurrentMetric : Bool) : DuplicateDecision :=
  if !hasCurrentMetric then ⟨true, false, "No duplicate current metric found."⟩
  else
    match policy with
    | .SKIP => ⟨false, false, "Existing current metric kept by SKIP policy."⟩
    | .NEW_VERSION =>
      ⟨true, true, "NEW_VERSION stores the new row as current and preserves the previous current row."⟩
    | .OVERWRITE =>
      ⟨true, true, "OVERWRITE stores the new row as current and supersedes the previous current row."⟩

/-- What an import of one metric leaves, and whether it was skipped. -/
structure MetricImport (κ δ : Type) where
  table : VersionTable κ δ
  skipped : Bool

/-- The body that the three imports below share. -/
def importVersion {κ δ : Type} [DecidableEq κ] (policy : ConflictPolicy) (batchId now : Nat) (key : κ)
    (data : δ) (table : VersionTable κ δ) : MetricImport κ δ :=
  let decision := resolve policy (currentRow key table.rows).isSome
  if decision.importMetric then
    ⟨addVersion decision.supersedeExisting batchId now key data table, false⟩
  else ⟨table, true⟩

/-- What the mappings service finds for an adset on a date. -/
structure ProductMatch where
  productId : Option String
  source : MatchSource
  matchRuleId : Option String
deriving DecidableEq

/-- A stage and where it comes from. -/
structure StageMatch where
  stage : AdStage
  source : MatchSource

/-- The key of a parsed row. -/
def adMetricKey (row : ParsedMetaAdDailyRow) : AdMetricKey where
  metricDate := row.metricDate
  metaCampaignId := row.metaCampaignId
  metaAdsetId := row.metaAdsetExternalId
  adIdentityKey := row.adIdentityKey

/-- The columns that the matcher writes. -/
def matchColumns (productMatch : ProductMatch) (stageMatch : StageMatch) : MatchColumns where
  productId := productMatch.productId
  stage := stageMatch.stage
  productMatchSource := productMatch.source
  stageMatchSource := stageMatch.source
  productMatchRuleId := productMatch.matchRuleId

/-- The columns of a parsed row of the ad level. -/
def adDailyMetricCreateData (row : ParsedMetaAdDailyRow) (metaAdsetRefId : Nat)
    (productMatch : ProductMatch) (stageMatch : StageMatch) : AdMetricData :=
  { row.toPlainColumns, matchColumns productMatch stageMatch with
    metaAdsetRefId
    campaignNameSnapshot := row.campaignName
    adsetNameSnapshot := row.adsetName
    adNameSnapshot := row.adName
    adDeliveryStatus := row.adDeliveryStatus
    purchaseCount := row.purchaseCount
    spendUsd := Scaled.ofRat 4 row.spendUsd }

/-- A row of the ad level enters its table. -/
def importAdDailyMetric (policy : ConflictPolicy) (batchId now : Nat) (row : ParsedMetaAdDailyRow)
    (data : AdMetricData) (table : VersionTable AdMetricKey AdMetricData) :
    MetricImport AdMetricKey AdMetricData :=
  importVersion policy batchId now (adMetricKey row) data table

/-- The columns of a parsed row of the adset level. -/
def adsetMetricCreateData (row : ParsedMetaAdsetRow) (rawRow : RawRow) (productMatch : ProductMatch)
    (stageMatch : StageMatch) : AdsetMetricData :=
  { row.toPlainColumns, matchColumns productMatch stageMatch with
    adsetName := row.adsetName
    adsetNameKey := row.adsetNameKey
    deliveryStatus := row.deliveryStatus
    resultCount := row.resultCount
    frequency := row.frequency.map (Scaled.ofRat 6)
    costPerResultUsd := row.costPerResultUsd.map (Scaled.ofRat 4)
    spendUsd := Scaled.ofRat 4 row.spendUsd
    startDate := row.startDate
    cpmUsd := row.cpmUsd.map (Scaled.ofRat 4)
    cpcLinkUsd := row.cpcLinkUsd.map (Scaled.ofRat 4)
    ctrLinkPct := row.ctrLinkPct.map (Scaled.ofRat 6)
    ctrAllPct := row.ctrAllPct.map (Scaled.ofRat 6)
    cpcAllUsd := row.cpcAllUsd.map (Scaled.ofRat 4)
    costPerLandingPageViewUsd := row.costPerLandingPageViewUsd.map (Scaled.ofRat 4)
    rawRow := .file rawRow }

/-- A row of the adset level enters its table. -/
def importMetric (policy : ConflictPolicy) (batchId now : Nat) (row : ParsedMetaAdsetRow)
    (metaAdsetId : Nat) (data : AdsetMetricData) (table : VersionTable AdsetMetricKey AdsetMetricData) :
    MetricImport AdsetMetricKey AdsetMetricData :=
  importVersion policy batchId now ⟨row.metricDate, metaAdsetId⟩ data table

/-- The ads of the days that the file does not name are hidden. -/
def deactivateMissingAdSnapshotMetrics (snapshotDates : List Int) (includedKeys : List String)
    (table : VersionTable AdMetricKey AdMetricData) : VersionTable AdMetricKey AdMetricData :=
  if snapshotDates.length = 0 ∨ includedKeys.length = 0 then table
  else
    hide (fun key => snapshotDates.contains key.metricDate &&
      !includedKeys.contains (snapshotAdMetricKey key)) table

/-- The adsets of the days that the file does not name are hidden. -/
def deactivateMissingSnapshotMetrics (snapshotDates : List Int) (includedKeys : List String)
    (table : VersionTable AdsetMetricKey AdsetMetricData) : VersionTable AdsetMetricKey AdsetMetricData :=
  if snapshotDates.length = 0 ∨ includedKeys.length = 0 then table
  else
    hide (fun key => snapshotDates.contains key.metricDate &&
      !includedKeys.contains (snapshotMetricKey key)) table

/-! ## 4. Aggregates -/

/-- The sum of a column. -/
def totalOf (rows : List MetaAdDailyMetric) (selector : AdMetricData → Int) : Int :=
  (rows.map fun row => selector row.data).sum

/-- The spend of some ads. -/
def spendOf (rows : List MetaAdDailyMetric) : ℚ := (rows.map fun row => row.data.spendUsd.value).sum

/-- `none` over zero. -/
def ratio (numerator denominator : ℚ) : Option ℚ :=
  if denominator = 0 then none else some (numerator / denominator)

/-- The first value there is. -/
def firstNonNull {α : Type} (values : List (Option α)) : Option α := values.findSome? id

/-- An active ad makes an active adset. -/
def chooseDeliveryStatus (values : List (Option String)) : Option String :=
  let present := values.filterMap fun value => value.filter (· != "")
  let normalized := present.map fun value => String.ofList (value.toList.map lowerChar)
  if normalized.contains "active" then some "active"
  else if normalized.contains "inactive" then some "inactive"
  else present.head?

/-- No product. -/
def unmatchedProductAttribution : ProductMatch := ⟨none, .UNMATCHED, none⟩

/-- The product that all ads share. -/
def aggregateProductAttribution (rows : List MetaAdDailyMetric) : ProductMatch :=
  if rows.length = 0 ∨ rows.any (fun row => !isTruthy row.data.productId) then
    unmatchedProductAttribution
  else
    match (rows.filterMap fun row => row.data.productId.filter (· != "")).eraseDups with
    | [productId] =>
      let sources :=
        ((rows.map fun row => row.data.productMatchSource).filter (· ≠ .UNMATCHED)).eraseDups
      let productMatchSource :=
        match sources with
        | [source] => source
        | _ =>
          if sources.contains .MANUAL then .MANUAL
          else if sources.contains .RULE then .RULE
          else .INFERRED
      let ruleIds := (rows.filterMap fun row => row.data.productMatchRuleId.filter (· != "")).eraseDups
      ⟨some productId, productMatchSource,
        match productMatchSource, ruleIds with
        | .RULE, [ruleId] => some ruleId
        | _, _ => none⟩
    | _ => unmatchedProductAttribution

/-- `AdsetAggregateInput`: the key and the columns of the adset metric. -/
structure AdsetAggregateInput where
  key : AdsetMetricKey
  data : AdsetMetricData

/-- `aggregateAdRows` of a group and `adsetAggregateMetricCreateData`: the sums are made of exact
    decimals and stored in columns of the same scale. -/
def aggregateAdRows (toLowerCase : String → String) (first : MetaAdDailyMetric)
    (rest : List MetaAdDailyMetric) : AdsetAggregateInput :=
  let rows := first :: rest
  let last := rest.getLast?.getD first
  let productAttribution := aggregateProductAttribution rows
  let spendUsd := spendOf rows
  let purchaseCount := totalOf rows (·.purchaseCount)
  let reach := totalOf rows (·.reach)
  let impressions := totalOf rows (·.impressions)
  let linkClicks := totalOf rows (·.linkClicks)
  let clicksAll := totalOf rows (·.clicksAll)
  let landingPageViews := totalOf rows (·.landingPageViews)
  { key := ⟨first.key.metricDate, first.data.metaAdsetRefId⟩
    data :=
      { dateStart := rest.foldl (fun date row => min date row.data.dateStart) first.data.dateStart
        dateEnd := rest.foldl (fun date row => max date row.data.dateEnd) first.data.dateEnd
        adsetName := last.data.adsetNameSnapshot
        adsetNameKey := AdsetNameNormalizer.toKey toLowerCase last.data.adsetNameSnapshot
        deliveryStatus := chooseDeliveryStatus (rows.map (·.data.adDeliveryStatus))
        attributionSetting := firstNonNull (rows.map (·.data.attributionSetting))
        resultCount := purchaseCount
        resultIndicator := firstNonNull (rows.map (·.data.resultIndicator))
        reach
        frequency := (ratio impressions reach).map (Scaled.ofRat 6)
        costPerResultUsd := (ratio spendUsd purchaseCount).map (Scaled.ofRat 4)
        adsetBudgetLabel := firstNonNull (rows.map (·.data.adsetBudgetLabel))
        adsetBudgetType := firstNonNull (rows.map (·.data.adsetBudgetType))
        spendUsd := Scaled.ofRat 4 spendUsd
        endStatus := firstNonNull (rows.map (·.data.endStatus))
        startDate := none
        impressions
        cpmUsd := (ratio (spendUsd * 1000) impressions).map (Scaled.ofRat 4)
        linkClicks
        shopClicks := totalOf rows (·.shopClicks)
        cpcLinkUsd := (ratio spendUsd linkClicks).map (Scaled.ofRat 4)
        ctrLinkPct := (ratio (linkClicks * 100) impressions).map (Scaled.ofRat 6)
        clicksAll
        ctrAllPct := (ratio (clicksAll * 100) impressions).map (Scaled.ofRat 6)
        cpcAllUsd := (ratio spendUsd clicksAll).map (Scaled.ofRat 4)
        landingPageViews
        costPerLandingPageViewUsd := (ratio spendUsd landingPageViews).map (Scaled.ofRat 4)
        toMatchColumns := matchColumns productAttribution ⟨last.data.stage, last.data.stageMatchSource⟩
        rawRow := .aggregate (rows.map (·.id)) first.key.metaCampaignId first.key.metaAdsetId
          rows.length } }

/-- An aggregate enters the table of adset metrics. -/
def importAdsetAggregateMetric (policy : ConflictPolicy) (batchId now : Nat)
    (input : AdsetAggregateInput) (table : VersionTable AdsetMetricKey AdsetMetricData) :
    MetricImport AdsetMetricKey AdsetMetricData :=
  importVersion policy batchId now input.key input.data table

/-- The order in which the database answers: ad metrics by date and names, adsets by
    `lastSeenOn` and `createdAt` with the latest first. Collation and ties are its own. -/
structure QueryOrder where
  adMetrics : List MetaAdDailyMetric → List MetaAdDailyMetric
  adMetrics_perm : ∀ l, (adMetrics l).Perm l
  adsets : List MetaAdset → List MetaAdset
  adsets_perm : ∀ l, (adsets l).Perm l

/-- `${formatDateOnly(metric.metricDate)}:${metric.metaAdsetRefId}`. -/
def groupKey (metric : MetaAdDailyMetric) : String :=
  snapshotMetricKey ⟨metric.key.metricDate, metric.data.metaAdsetRefId⟩

/-- The current ads of some days. -/
def currentOnDates (snapshotDates : List Int) (rows : List MetaAdDailyMetric) :
    List MetaAdDailyMetric :=
  rows.filter fun row => row.current && snapshotDates.contains row.key.metricDate

/-- The aggregates of the groups, in the order of the groups. -/
def adsetAggregates (toLowerCase : String → String) (groups : List (List MetaAdDailyMetric)) :
    List AdsetAggregateInput :=
  groups.filterMap fun
    | [] => none
    | first :: rest => some (aggregateAdRows toLowerCase first rest)

/-- The state of the loop over the aggregates. -/
structure AggregateLoop where
  table : VersionTable AdsetMetricKey AdsetMetricData
  includedAdsetKeys : List String
  importedCount : Nat

/-- One aggregate. -/
def aggregateTurn (batchId now : Nat) (state : AggregateLoop) (aggregate : AdsetAggregateInput) :
    AggregateLoop :=
  let result := importAdsetAggregateMetric .OVERWRITE batchId now aggregate state.table
  if result.skipped then { state with table := result.table }
  else ⟨result.table, state.includedAdsetKeys ++ [snapshotMetricKey aggregate.key],
    state.importedCount + 1⟩

/-- The adsets of some days become the aggregates of their ads. -/
def refreshAdsetAggregatesFromAdMetrics (toLowerCase : String → String) (order : QueryOrder)
    (batchId now : Nat) (snapshotDates : List Int)
    (adMetrics : VersionTable AdMetricKey AdMetricData)
    (adsetMetrics : VersionTable AdsetMetricKey AdsetMetricData) :
    VersionTable AdsetMetricKey AdsetMetricData × Nat :=
  if snapshotDates.length = 0 then (adsetMetrics, 0)
  else
    let metrics := order.adMetrics (currentOnDates snapshotDates adMetrics.rows)
    let groups := (groupBy groupKey metrics).values
    let loop := (adsetAggregates toLowerCase groups).foldl (aggregateTurn batchId now)
      ⟨adsetMetrics, [], 0⟩
    (if loop.includedAdsetKeys.length > 0 then
        deactivateMissingSnapshotMetrics snapshotDates loop.includedAdsetKeys loop.table
      else loop.table,
      loop.importedCount)

/-! ## 5. Adsets -/

/-- The update of an adset. -/
def AdsetTable.update (id : Nat) (change : MetaAdset → MetaAdset) (table : AdsetTable) : AdsetTable :=
  { table with rows := table.rows.map fun adset => if adset.id = id then change adset else adset }

/-- A new adset. -/
def AdsetTable.create (make : Nat → MetaAdset) (table : AdsetTable) : AdsetTable where
  rows := table.rows ++ [make table.nextId]
  nextId := table.nextId + 1

/-- A new adset; the other columns take their defaults. -/
def newAdset (externalAdsetId : Option String) (adsetName adsetNameKey : String) (seenOn : Int)
    (now id : Nat) : MetaAdset where
  id := id
  externalAdsetId := externalAdsetId
  adsetName := adsetName
  adsetNameKey := adsetNameKey
  firstSeenOn := some seenOn
  lastSeenOn := some seenOn
  currentProductId := none
  currentStage := .UNKNOWN
  createdAt := now

/-- What an adset keeps when it is seen. -/
def seenAgain (adsetName : String) (seenOn : Int) (adset : MetaAdset) : MetaAdset :=
  { adset with
    adsetName
    firstSeenOn := some (adset.firstSeenOn.getD seenOn)
    lastSeenOn := some seenOn }

/-- The adset of a row of the ad level, by external id, else by name. -/
def upsertAdsetFromAdDaily (toLowerCase : String → String) (order : QueryOrder) (now : Nat)
    (row : ParsedMetaAdDailyRow) (table : AdsetTable) : AdsetTable × MetaAdset :=
  let adsetNameKey := AdsetNameNormalizer.toKey toLowerCase row.adsetName
  match table.rows.find? fun adset => adset.externalAdsetId = some row.metaAdsetExternalId with
  | some existing =>
    let change (adset : MetaAdset) : MetaAdset :=
      { seenAgain row.adsetName row.metricDate adset with adsetNameKey }
    (table.update existing.id change, change existing)
  | none =>
    match (order.adsets (table.rows.filter fun adset =>
        adset.externalAdsetId = none ∧ adset.adsetNameKey = adsetNameKey)).head? with
    | some legacyByName =>
      let change (adset : MetaAdset) : MetaAdset :=
        { seenAgain row.adsetName row.metricDate adset with
          adsetNameKey
          externalAdsetId := some row.metaAdsetExternalId }
      (table.update legacyByName.id change, change legacyByName)
    | none =>
      let make := newAdset (some row.metaAdsetExternalId) row.adsetName adsetNameKey row.metricDate now
      (table.create make, make table.nextId)

/-- The adset of a row of the adset level, by name. -/
def upsertAdset (order : QueryOrder) (now : Nat) (row : ParsedMetaAdsetRow) (table : AdsetTable) :
    AdsetTable × MetaAdset :=
  let existingCandidates := order.adsets (table.rows.filter fun adset =>
    adset.adsetNameKey = row.adsetNameKey)
  match (existingCandidates.find? fun candidate => isTruthy candidate.externalAdsetId).or
      existingCandidates.head? with
  | some existing =>
    (table.update existing.id (seenAgain row.adsetName row.metricDate),
      seenAgain row.adsetName row.metricDate existing)
  | none =>
    let make := newAdset none row.adsetName row.adsetNameKey row.metricDate now
    (table.create make, make table.nextId)

/-- `tx.metaAdset.update` after the product and the stage are matched. -/
def matchedAdset (productId : Option String) (stage : AdStage) (firstSeenOn : Option Int) (seenOn : Int)
    (adset : MetaAdset) : MetaAdset :=
  { adset with
    currentProductId := productId
    currentStage := stage
    firstSeenOn := some (firstSeenOn.getD seenOn)
    lastSeenOn := some seenOn }

/-! ## 6. Batches -/

/-- What an import gets from outside: the clock, the order of query results, what the mappings
    service answers, and which services fail. -/
structure ImportEnv where
  now : Nat
  order : QueryOrder
  matchProduct : Nat → String → Int → ProductMatch
  matchStage : Nat → String → Int → StageMatch
  /-- `duplicateBatchHash`, which draws a random number. -/
  duplicateHash : String
  /-- Whether the lease of a batch that is still being validated has run out. -/
  leaseExpired : Bool
  storageFails : Bool
  /-- The message with which the exchange rates could not be had. -/
  ratesError : Option String
  /-- The database rolls the transaction of the rows back. -/
  aborts : Bool

/-- How an import ends. -/
inductive ImportOutcome where
  | duplicate (batchId : Nat)
  | rejected (batchId : Nat) (code : String)
  | aborted (batchId : Nat)
  | imported (batchId : Nat) (errorCount : Nat)
deriving DecidableEq

/-- The update of a batch. -/
def updateBatch (id : Nat) (change : UploadBatch → UploadBatch) (batches : List UploadBatch) :
    List UploadBatch :=
  batches.map fun batch => if batch.id = id then change batch else batch

/-- An issue of the whole file. -/
def batchError (batchId : Nat) (severity : Severity) (columnName : Option String)
    (errorCode message : String) : UploadRowError where
  uploadBatchId := batchId
  rowNumber := none
  columnName := columnName
  severity := severity
  errorCode := errorCode
  message := message
  rawValue := none

/-- An issue of a row. -/
def rowErrorOf (batchId rowNumber : Nat) (issue : ParseIssue) : UploadRowError where
  uploadBatchId := batchId
  rowNumber := some rowNumber
  columnName := some issue.columnName
  severity := .ERROR
  errorCode := issue.errorCode
  message := issue.message
  rawValue := issue.rawValue

/-- `isRetryableMetaOriginalStoragePending` and the counts that have to be zero. -/
def isClaimable (store : MetaStore) (leaseExpired : Bool) (level : UploadLevel) (batch : UploadBatch) :
    Bool :=
  batch.level = level &&
    ((batch.status = .FAILED && batch.storage = .PENDING) ||
      (batch.status = .VALIDATING && leaseExpired)) &&
    !store.uploadRows.any (·.uploadBatchId = batch.id) &&
    !store.rowErrors.any (·.uploadBatchId = batch.id) &&
    !store.adMetrics.rows.any (·.batch = batch.id) &&
    !store.adsetMetrics.rows.any (·.batch = batch.id) &&
    batch.validRowCount = 0 && batch.warningCount = 0 && batch.errorCount = 0 &&
    batch.importedAt.isNone

section

variable (env : ImportEnv) (level : UploadLevel) (policy : ConflictPolicy) (file : MetaCsvFile)

/-- The batch as it is created. -/
def newBatch (duplicated : Bool) (id : Nat) : UploadBatch where
  id := id
  fileHashSha256 := if duplicated then env.duplicateHash else file.fileHashSha256
  level := level
  storage := .PENDING
  rowCount := file.rows.length
  validRowCount := 0
  warningCount := 0
  errorCount := 0
  conflictPolicy := policy
  status := .VALIDATING
  reportStart := none
  reportEnd := none
  importedAt := none

/-- The batch an import works on: a new one, or under `SKIP` one whose file was never stored.
    Without one the file is answered as a duplicate. -/
def reserveBatch (store : MetaStore) : MetaStore × Nat × Bool :=
  let create (duplicated : Bool) : MetaStore × Nat × Bool :=
    ({ store with
        batches := store.batches ++ [newBatch env level policy file duplicated store.nextBatchId]
        nextBatchId := store.nextBatchId + 1 }, store.nextBatchId, true)
  match store.batches.find? fun batch => batch.fileHashSha256 = file.fileHashSha256 with
  | none => create false
  | some duplicated =>
    if policy = .SKIP then
      if isClaimable store env.leaseExpired level duplicated then
        ({ store with
            batches := updateBatch duplicated.id
              (fun batch => { batch with status := .VALIDATING, storage := .PENDING }) store.batches },
          duplicated.id, true)
      else (store, duplicated.id, false)
    else create true

end

/-- The batch fails with these errors. -/
def failBatch (store : MetaStore) (batchId errorCount : Nat) (errors : List UploadRowError) : MetaStore :=
  { store with
    batches := updateBatch batchId (fun batch =>
      { batch with status := .FAILED, errorCount }) store.batches
    rowErrors := store.rowErrors ++ errors }

/-- The original is stored. -/
def storedBatch (store : MetaStore) (batchId : Nat) : MetaStore :=
  { store with
    batches := updateBatch batchId (fun batch => { batch with storage := .STORED }) store.batches }

/-- An error for each missing column. -/
def missingColumnErrors (batchId : Nat) (missing : List String) : List UploadRowError :=
  missing.map fun columnName => batchError batchId .ERROR (some columnName) "MISSING_REQUIRED_COLUMN"
    ("필수 컬럼이 누락되었습니다: " ++ columnName)

/-- The counts and the status at the end. -/
def finishBatch (batchId : Nat) (now : Nat) (validRowCount warningCount errorCount importedCount : Nat)
    (reportStart reportEnd : Option Int) (batches : List UploadBatch) : List UploadBatch :=
  updateBatch batchId (fun batch =>
    { batch with
      status := if errorCount > 0 ∧ importedCount > 0 then .PARTIAL
        else if errorCount > 0 then .FAILED else .IMPORTED
      validRowCount
      warningCount
      errorCount
      reportStart
      reportEnd
      importedAt := if importedCount > 0 then some now else none }) batches

/-! ## 7. The ad-level import -/

section Imports

variable (sha1 : Sha1) (toLowerCase : String → String)

/-- What the loops over the rows of both levels change. -/
structure RowLoop where
  adsets : AdsetTable
  uploadRows : List UploadRow
  rowErrors : List UploadRowError
  validRowCount : Nat
  warningCount : Nat
  errorCount : Nat
  skippedDuplicateCount : Nat
  reportStart : Option Int
  reportEnd : Option Int
  snapshotDatesByKey : OrderedMap String Int

/-- What the loop over the rows of an ad-level file changes. -/
structure AdLoop extends RowLoop where
  adMetrics : VersionTable AdMetricKey AdMetricData
  importedAdMetricCount : Nat
  includedAdKeys : List String

/-- What the import says of a row. -/
def rowStatus (issues : List ParseIssue) (productId : Option String) : RowValidationStatus :=
  if issues.length > 0 then .ERROR else if isTruthy productId then .VALID else .UNMATCHED

/-- A row once its adset, product and stage are known. -/
structure MatchedAdRow where
  adsets : AdsetTable
  metaAdsetId : Nat
  productMatch : ProductMatch
  stageMatch : StageMatch

/-- The adset of a row and what matches it. -/
def matchAdRow (env : ImportEnv) (row : ParsedMetaAdDailyRow) (adsets : AdsetTable) : MatchedAdRow :=
  let upserted := upsertAdsetFromAdDaily toLowerCase env.order env.now row adsets
  let metaAdset := upserted.2
  let productMatch := env.matchProduct metaAdset.id
    (row.adName ++ " " ++ row.adsetName ++ " " ++ row.campaignName) row.metricDate
  let stageMatch := env.matchStage metaAdset.id (row.campaignName ++ " " ++ row.adsetName) row.metricDate
  { adsets := upserted.1.update metaAdset.id
      (matchedAdset productMatch.productId stageMatch.stage metaAdset.firstSeenOn row.metricDate)
    metaAdsetId := metaAdset.id
    productMatch
    stageMatch }

/-- The part of a turn that every row goes through. -/
def RowLoop.count (batchId rowNumber : Nat) (issues : List ParseIssue) (productId : Option String)
    (state : RowLoop) : RowLoop :=
  let validationStatus := rowStatus issues productId
  { state with
    validRowCount := state.validRowCount + (if validationStatus = .ERROR then 0 else 1)
    warningCount := state.warningCount + (if validationStatus = .UNMATCHED then 1 else 0)
    errorCount := state.errorCount + (if validationStatus = .ERROR then 1 else 0)
    uploadRows := state.uploadRows ++ [⟨batchId, rowNumber, validationStatus⟩]
    rowErrors := state.rowErrors ++ issues.map (rowErrorOf batchId rowNumber) }

/-- The days of the report grow by those of a row. -/
def RowLoop.seenDates (dateStart dateEnd : Int) (state : RowLoop) : RowLoop :=
  { state with
    reportStart := Cafe24.minDate state.reportStart dateStart
    reportEnd := Cafe24.maxDate state.reportEnd dateEnd }

/-- The state before the first row. -/
def RowLoop.start (store : MetaStore) (warnings : List UploadRowError) : RowLoop where
  adsets := store.adsets
  uploadRows := store.uploadRows
  rowErrors := store.rowErrors ++ warnings
  validRowCount := 0
  warningCount := warnings.length
  errorCount := 0
  skippedDuplicateCount := 0
  reportStart := none
  reportEnd := none
  snapshotDatesByKey := OrderedMap.empty

/-- One turn of the loop over the rows. -/
def adTurn (env : ImportEnv) (policy : ConflictPolicy) (batchId : Nat) (state : AdLoop)
    (entry : Nat × ParsedAdDaily) : AdLoop :=
  match entry.2.parsedRow with
  | none => { state with toRowLoop := state.count batchId entry.1 entry.2.issues none }
  | some row =>
    let matched := matchAdRow toLowerCase env row state.adsets
    let counted := RowLoop.count batchId entry.1 entry.2.issues matched.productMatch.productId
      { state.seenDates row.dateStart row.dateEnd with adsets := matched.adsets }
    if entry.2.issues.length > 0 then { state with toRowLoop := counted }
    else
      let result := importAdDailyMetric policy batchId env.now row
        (adDailyMetricCreateData row matched.metaAdsetId matched.productMatch matched.stageMatch)
        state.adMetrics
      { counted with
        adMetrics := result.table
        importedAdMetricCount := state.importedAdMetricCount + (if result.skipped then 0 else 1)
        skippedDuplicateCount := counted.skippedDuplicateCount + (if result.skipped then 1 else 0)
        snapshotDatesByKey := counted.snapshotDatesByKey.set (formatDateOnly row.metricDate) row.metricDate
        includedAdKeys := state.includedAdKeys ++ [snapshotAdMetricKey (adMetricKey row)] }

/-- The warnings of a file without recommended columns. -/
def headerWarnings (headers : List String) : List String :=
  (missingColumns META_AD_DAILY_RECOMMENDED_COLUMNS headers).map
      (fun column => "권장 컬럼이 없습니다: " ++ column) ++
    (if missingColumns ["광고 ID"] headers = [] then []
      else ["광고 ID가 없어 campaign_id + adset_id + ad_name 조합으로 광고를 식별합니다. Meta 다운로드 설정에서 광고 ID 컬럼 추가를 권장합니다."]) ++
    (let missing := missingColumns META_VIDEO_PLAY_COLUMNS headers
      if missing.length = 0 ∨ missing.length = META_VIDEO_PLAY_COLUMNS.length then []
      else ["동영상 재생 컬럼이 일부만 존재하며 누락 단계는 표시할 수 없습니다: " ++
        String.intercalate ", " missing])

/-- The rows of the file as the import reads them, with their numbers. -/
def numberedRows {α : Type} (rows : List α) : List (Nat × α) :=
  rows.zipIdx.map fun entry => (entry.2 + 2, entry.1)

/-- The rows of the ad level. -/
def parsedAdRows (file : MetaCsvFile) : List ParsedAdDaily :=
  file.rows.map (MetaAdDailyCsvParser.parseRow sha1)

/-- Before the first row. -/
def adLoopStart (batchId : Nat) (file : MetaCsvFile) (store : MetaStore) : AdLoop where
  toRowLoop := .start store
    ((headerWarnings file.headers).map (batchError batchId .WARNING none "CSV_SCHEMA_WARNING"))
  adMetrics := store.adMetrics
  importedAdMetricCount := 0
  includedAdKeys := []

section

variable (env : ImportEnv) (policy : ConflictPolicy) (batchId : Nat) (file : MetaCsvFile)
  (store : MetaStore)

/-- The loop over the rows, from the store the transaction sees. -/
def adLoop : AdLoop :=
  (numberedRows (parsedAdRows sha1 file)).foldl (adTurn toLowerCase env policy batchId)
    (adLoopStart batchId file store)

/-- The transaction of the rows. -/
def importAdRows : MetaStore × ImportOutcome :=
  let loop := adLoop sha1 toLowerCase env policy batchId file store
  let snapshotDates := loop.snapshotDatesByKey.values
  let refresh := loop.errorCount = 0 ∧ loop.includedAdKeys.length > 0
  let adMetrics :=
    if refresh then deactivateMissingAdSnapshotMetrics snapshotDates loop.includedAdKeys loop.adMetrics
    else loop.adMetrics
  let adsetMetrics :=
    if refresh then
      (refreshAdsetAggregatesFromAdMetrics toLowerCase env.order batchId env.now snapshotDates adMetrics
        store.adsetMetrics).1
    else store.adsetMetrics
  ({ store with
      batches := finishBatch batchId env.now loop.validRowCount loop.warningCount loop.errorCount
        loop.importedAdMetricCount loop.reportStart loop.reportEnd store.batches
      uploadRows := loop.uploadRows
      rowErrors := loop.rowErrors
      adsets := loop.adsets
      adMetrics
      adsetMetrics }, .imported batchId loop.errorCount)

end

/-- The rates of the days could not be fetched. -/
def exchangeRateError (batchId : Nat) (ratesError : Option String) : UploadRowError :=
  batchError batchId .ERROR none "EXCHANGE_RATE_SYNC_FAILED" (ratesError.getD "")

/-- The daily keys of the rows that could be read, also of those with issues. -/
def dailyKeys (rows : List ParsedAdDaily) : List String :=
  (rows.filterMap (·.parsedRow)).map dailyAdMetricKey

/-- What both imports do with a file: it is stored for a reserved batch, then come the checks in
    their order, and last the transaction of the rows. -/
def importCsv (env : ImportEnv) (level : UploadLevel) (policy : ConflictPolicy) (file : MetaCsvFile)
    (required duplicateKeys : List String) (hasValidRow : Bool)
    (importRows : Nat → MetaStore → MetaStore × ImportOutcome) (store : MetaStore) :
    MetaStore × ImportOutcome :=
  let reserved := reserveBatch env level policy file store
  let batchId := reserved.2.1
  if !reserved.2.2 then (store, .duplicate batchId)
  else if env.storageFails then
    (failBatch reserved.1 batchId 0 [], .rejected batchId "UPLOAD_STORAGE_UNAVAILABLE")
  else
    let stored := storedBatch reserved.1 batchId
    let missing := missingColumns required file.headers
    if missing ≠ [] then
      (failBatch stored batchId missing.length (missingColumnErrors batchId missing),
        .rejected batchId "CSV_HEADER_INVALID")
    else if duplicateKeys ≠ [] then
      (failBatch stored batchId duplicateKeys.length (duplicateKeys.map fun key =>
        batchError batchId .ERROR none "DUPLICATE_AD_DAILY_KEY"
          ("같은 파일 안에 중복 광고 일별 키가 있습니다: " ++ key)), .rejected batchId "DUPLICATE_AD_DAILY_KEY")
    else if env.ratesError.isSome && hasValidRow then
      (failBatch stored batchId 1 [exchangeRateError batchId env.ratesError],
        .rejected batchId "EXCHANGE_RATE_SYNC_FAILED")
    else if env.aborts then (stored, .aborted batchId)
    else importRows batchId stored

/-- The import of a file of the ad level. -/
def importMetaAdDailyCsv (env : ImportEnv) (policy : ConflictPolicy) (file : MetaCsvFile) :
    MetaStore → MetaStore × ImportOutcome :=
  importCsv env .AD policy file META_AD_DAILY_REQUIRED_COLUMNS
    (duplicatedValues (dailyKeys (parsedAdRows sha1 file)))
    ((parsedAdRows sha1 file).any fun parsed => parsed.parsedRow.isSome && parsed.issues.length = 0)
    fun batchId => importAdRows sha1 toLowerCase env policy batchId file

/-! ## 8. The adset-level import -/

/-- The state of the loop over the rows of the adset level. -/
structure AdsetLoop extends RowLoop where
  adsetMetrics : VersionTable AdsetMetricKey AdsetMetricData
  importedMetricCount : Nat
  includedSnapshotKeys : List String

/-- One row of the adset level. -/
def adsetTurn (env : ImportEnv) (policy : ConflictPolicy) (batchId : Nat) (state : AdsetLoop)
    (entry : Nat × RawRow × ParsedAdset) : AdsetLoop :=
  match entry.2.2.parsedRow with
  | none => { state with toRowLoop := state.count batchId entry.1 entry.2.2.issues none }
  | some row =>
    let upserted := upsertAdset env.order env.now row state.adsets
    let metaAdset := upserted.2
    let productMatch := env.matchProduct metaAdset.id row.adsetName row.metricDate
    let stageMatch := env.matchStage metaAdset.id row.adsetName row.metricDate
    let counted := RowLoop.count batchId entry.1 entry.2.2.issues productMatch.productId
      { state.seenDates row.dateStart row.dateEnd with
        adsets := upserted.1.update metaAdset.id
          (matchedAdset productMatch.productId stageMatch.stage metaAdset.firstSeenOn row.metricDate) }
    if entry.2.2.issues.length > 0 then { state with toRowLoop := counted }
    else
      let result := importMetric policy batchId env.now row metaAdset.id
        (adsetMetricCreateData row entry.2.1 productMatch stageMatch) state.adsetMetrics
      { counted with
        adsetMetrics := result.table
        importedMetricCount := state.importedMetricCount + (if result.skipped then 0 else 1)
        skippedDuplicateCount := counted.skippedDuplicateCount + (if result.skipped then 1 else 0)
        snapshotDatesByKey := counted.snapshotDatesByKey.set (formatDateOnly row.metricDate) row.metricDate
        includedSnapshotKeys := state.includedSnapshotKeys ++
          [snapshotMetricKey ⟨row.metricDate, metaAdset.id⟩] }

/-- The rows of the adset level. -/
def parsedAdsetRows (file : MetaCsvFile) : List (RawRow × ParsedAdset) :=
  file.rows.map fun rawRow => (rawRow, MetaCsvParser.parseRow toLowerCase rawRow)

/-- Before the first row. -/
def adsetLoopStart (store : MetaStore) : AdsetLoop where
  toRowLoop := .start store []
  adsetMetrics := store.adsetMetrics
  importedMetricCount := 0
  includedSnapshotKeys := []

section

variable (env : ImportEnv) (policy : ConflictPolicy) (batchId : Nat) (file : MetaCsvFile)
  (store : MetaStore)

/-- After the last row. -/
def adsetLoop : AdsetLoop :=
  (numberedRows (parsedAdsetRows toLowerCase file)).foldl (adsetTurn env policy batchId)
    (adsetLoopStart store)

/-- The rows enter, and a file without errors hides what it does not name. -/
def importAdsetRows : MetaStore × ImportOutcome :=
  let loop := adsetLoop toLowerCase env policy batchId file store
  let adsetMetrics :=
    if loop.errorCount = 0 ∧ loop.includedSnapshotKeys.length > 0 then
      deactivateMissingSnapshotMetrics loop.snapshotDatesByKey.values loop.includedSnapshotKeys
        loop.adsetMetrics
    else loop.adsetMetrics
  ({ store with
      batches := finishBatch batchId env.now loop.validRowCount loop.warningCount loop.errorCount
        loop.importedMetricCount loop.reportStart loop.reportEnd store.batches
      uploadRows := loop.uploadRows
      rowErrors := loop.rowErrors
      adsets := loop.adsets
      adsetMetrics }, .imported batchId loop.errorCount)

end

/-- Two rows of one adset and day are not refused. -/
def importMetaAdsetCsv (env : ImportEnv) (policy : ConflictPolicy) (file : MetaCsvFile) :
    MetaStore → MetaStore × ImportOutcome :=
  importCsv env .ADSET policy file META_ADSET_REQUIRED_COLUMNS []
    ((parsedAdsetRows toLowerCase file).any fun parsed =>
      parsed.2.parsedRow.isSome && parsed.2.issues.length = 0)
    fun batchId => importAdsetRows toLowerCase env policy batchId file

end Imports

/-! ## 9. Deletions -/

/-- The ad metrics of some keys are elected again. -/
def restoreCurrentAdMetrics (keys : List AdMetricKey) (table : VersionTable AdMetricKey AdMetricData) :
    VersionTable AdMetricKey AdMetricData :=
  (uniqueAdMetricKeys keys).foldl (fun table key => reelect key table) table

/-- The adset metrics of some keys are elected again. -/
def restoreCurrentAdsetMetrics (keys : List AdsetMetricKey)
    (table : VersionTable AdsetMetricKey AdsetMetricData) : VersionTable AdsetMetricKey AdsetMetricData :=
  (uniqueAdsetMetricKeys keys).foldl (fun table key => reelect key table) table

/-- The keys of the metrics a batch stored. -/
def storedKeys {κ δ : Type} (batchId : Nat) (table : VersionTable κ δ) : List κ :=
  (table.rows.filter fun row => row.batch = batchId).map (·.key)

/-- `retains` says whether the stored file could be retained; without that nothing changes. -/
def deleteUpload (retains : Bool) (id : Nat) (store : MetaStore) : MetaStore :=
  if store.batches.any (·.id = id) && retains then
    { store with
      batches := store.batches.filter (·.id ≠ id)
      uploadRows := store.uploadRows.filter (·.uploadBatchId ≠ id)
      rowErrors := store.rowErrors.filter (·.uploadBatchId ≠ id)
      adMetrics := restoreCurrentAdMetrics (storedKeys id store.adMetrics) (removeBatch id store.adMetrics)
      adsetMetrics := restoreCurrentAdsetMetrics (storedKeys id store.adsetMetrics)
        (removeBatch id store.adsetMetrics) }
  else store

/-! ## 10. Runs -/

/-- What users do. -/
inductive Operation where
  | importMetaAdDailyCsv (env : ImportEnv) (policy : ConflictPolicy) (file : MetaCsvFile)
  | importMetaAdsetCsv (env : ImportEnv) (policy : ConflictPolicy) (file : MetaCsvFile)
  | deleteUpload (retains : Bool) (id : Nat)

variable (sha1 : Sha1) (toLowerCase : String → String)

/-- What it leaves. -/
def Operation.run (store : MetaStore) : Operation → MetaStore
  | .importMetaAdDailyCsv env policy file =>
    (Meta.importMetaAdDailyCsv sha1 toLowerCase env policy file store).1
  | .importMetaAdsetCsv env policy file => (Meta.importMetaAdsetCsv toLowerCase env policy file store).1
  | .deleteUpload retains id => Meta.deleteUpload retains id store

/-- One operation after another. -/
def runAll (operations : List Operation) (store : MetaStore) : MetaStore :=
  operations.foldl (fun store operation => operation.run sha1 toLowerCase store) store

/-- The stores of all runs of imports and deletions from the empty store. -/
inductive Reachable : MetaStore → Prop where
  | start : Reachable emptyStore
  | step {store : MetaStore} (operation : Operation) (h : Reachable store) :
      Reachable (operation.run sha1 toLowerCase store)

end AdsManagement.Meta
