/-
  File:      Metrics/Views.lean
  Subject:   THE VIEWS OF THE DASHBOARD: the summary, the trends (dashboard-metrics.service.ts),
             the figures of products and of adsets (meta-adset-metrics-read.service.ts), each over
             the rows of its own query.

  A trend keys its groups by a text, date and label around a colon, and splits the text again. A
  label with a colon is cut, and products of one name share a group.

  * `dashboardSummary`, `dashboardTrends`, `productMetrics`, `adsetMetrics` -- the views;
  * `trend_sums`, `product_sums`, `adset_sums` -- each view sums up to the totals of the summary;
  * `Grouped` -- what the groups of a trend should be;
  * `views_partition_iff` -- they are, exactly when names have no colon and tell products apart.
-/
import AdsManagement.Common.Patterns
import AdsManagement.Lib.Separated
import AdsManagement.Metrics.Decoration

namespace AdsManagement.Metrics

open Common Lib List
open Meta (AdStage ProductRule CostValues CpaValues)

/-! ## 1. The summary -/

structure ComparisonValue where
  current : ℚ
  previous : ℚ
  delta : ℚ
  deltaPct : Option ℚ

/-- `ComparisonCalculator.compare` of two known values. -/
def compare (current previous : ℚ) : ComparisonValue where
  current := current
  previous := previous
  delta := current - previous
  deltaPct := if previous = 0 then none else some ((current - previous) / previous * 100)

structure AggregateComparison where
  spendKrw : ComparisonValue
  purchaseCount : ComparisonValue
  cpaKrw : Option ComparisonValue
  marginKrw : ComparisonValue

/-- A cost per purchase that one side lacks has no delta. -/
def compareAggregate (current previous : DecoratedTotals) : AggregateComparison where
  spendKrw := compare current.totals.spendKrw previous.totals.spendKrw
  purchaseCount := compare current.totals.purchaseCount previous.totals.purchaseCount
  cpaKrw := current.totals.cpaKrw.bind fun cpa => previous.totals.cpaKrw.map (compare cpa)
  marginKrw := compare current.totals.marginKrw previous.totals.marginKrw

structure DailyAverages where
  dailySpendKrw : Option ℚ
  dailyPurchaseCount : Option ℚ
  dailyMarginKrw : Option ℚ

def dailyAverages (aggregate : DecoratedTotals) : DailyAverages where
  dailySpendKrw := divideOrNull (some aggregate.totals.spendKrw) aggregate.dataDays
  dailyPurchaseCount := divideOrNull (some aggregate.totals.purchaseCount) aggregate.dataDays
  dailyMarginKrw := divideOrNull (some aggregate.totals.marginKrw) aggregate.dataDays

/-- The summary without its health and its decisions, which are counts of other tables. -/
structure DashboardSummary where
  fromText : String
  toText : String
  selectedDays : Int
  dataDays : Nat
  totals : PeriodMetricResult
  ruleStatus : CriteriaStatus
  averages : DailyAverages
  previousDay : AggregateComparison
  previousSamePeriod : AggregateComparison
  firstDay : AggregateComparison

def dashboardSummary (db : MetricsDb) (order : MetricOrder) (fromText toText deliveryStatusInput : Option String) :
    Except ApiError DashboardSummary := do
  let deliveryStatus ← parseDeliveryStatusFilter deliveryStatusInput
  let range ← parseDateRange fromText toText
  let between (fromDate toDate : Int) : DecoratedTotals :=
    aggregateDecoratedMetrics (decoratedMetrics db order fromDate toDate deliveryStatus)
  let aggregate := between range.fromDate range.toDate
  let selectedDays := range.toDate - range.fromDate + 1
  let previousDay := between (range.toDate - 1) (range.toDate - 1)
  let previousSamePeriod := between (range.fromDate - selectedDays) (range.toDate - selectedDays)
  let firstDay := between range.fromDate range.fromDate
  let lastDay := between range.toDate range.toDate
  return {
    fromText := formatDateOnly range.fromDate
    toText := formatDateOnly range.toDate
    selectedDays
    dataDays := aggregate.dataDays
    totals := aggregate.totals
    ruleStatus := aggregate.ruleStatus
    averages := dailyAverages aggregate
    previousDay := compareAggregate aggregate previousDay
    previousSamePeriod := compareAggregate aggregate previousSamePeriod
    firstDay := compareAggregate lastDay firstDay }

/-! ## 2. Trends -/

/-- `groupBy`: any other text groups by date. -/
inductive TrendGrouping where
  | date
  | stage
  | product
deriving DecidableEq

def trendGrouping (groupByInput : Option String) : TrendGrouping :=
  if groupByInput = some "stage" then .stage
  else if groupByInput = some "product" then .product
  else .date

def stageText : AdStage → String
  | .SC => "SC"
  | .CBO => "CBO"
  | .ASC => "ASC"
  | .UNKNOWN => "UNKNOWN"

/-- `row.metric.product?.displayName ?? "미매칭"`. -/
def productLabel (metric : MetricWithRelations) : String :=
  (metric.product.map (·.displayName)).getD "미매칭"

def trendKey (grouping : TrendGrouping) (row : DecoratedMetric) : String :=
  match grouping with
  | .stage => row.metricDate ++ ":" ++ stageText row.metric.stage
  | .product => row.metricDate ++ ":" ++ productLabel row.metric
  | .date => row.metricDate

def trendGroups (grouping : TrendGrouping) (decorated : List DecoratedMetric) :
    OrderedMap String (List DecoratedMetric) := groupBy (trendKey grouping) decorated

/-- `key.split(":")`. -/
def splitKey (key : String) : List String := (key.toList.splitOn ':').map String.ofList

structure TrendRow where
  date : String
  group : String
  spendUsd : ℚ
  spendKrw : ℚ
  purchaseCount : Int
  cpaKrw : Option ℚ
  cpaUsd : Option ℚ
  marginKrw : ℚ
  revenueKrw : ℚ
  ctrLinkPct : Option ℚ
  cpcLinkUsd : Option ℚ

def trendRow (entry : String × List DecoratedMetric) : TrendRow :=
  let parts := splitKey entry.1
  let aggregate := aggregateDecoratedMetrics entry.2
  { date := parts.head?.getD ""
    group := parts[1]?.getD "all"
    spendUsd := aggregate.totals.spendUsd
    spendKrw := aggregate.totals.spendKrw
    purchaseCount := aggregate.totals.purchaseCount
    cpaKrw := aggregate.totals.cpaKrw
    cpaUsd := aggregate.totals.cpaUsd
    marginKrw := aggregate.totals.marginKrw
    revenueKrw := aggregate.totals.revenueKrw
    ctrLinkPct := aggregate.totals.ctrLinkPct
    cpcLinkUsd := aggregate.totals.cpcLinkUsd }

/-- `.sort((a, b) => a.date.localeCompare(b.date))`, which orders dates as their characters do. -/
def sortByDate (rows : List TrendRow) : List TrendRow := rows.insertionSort fun a b => a.date ≤ b.date

def dashboardTrends (db : MetricsDb) (order : MetricOrder) (fromText toText groupByInput
    deliveryStatusInput : Option String) : Except ApiError (List TrendRow) := do
  let deliveryStatus ← parseDeliveryStatusFilter deliveryStatusInput
  let range ← parseDateRange fromText toText
  let decorated := decoratedMetrics db order range.fromDate range.toDate deliveryStatus
  return sortByDate ((trendGroups (trendGrouping groupByInput) decorated).entries.map trendRow)

/-! ## 3. Products and adsets -/

structure ProductMetrics where
  productId : String
  product : Option MetricProduct
  totals : PeriodMetricResult
  averages : DailyAverages
  dataDays : Nat
  thresholds : Option ProductCpaThresholds
  targetCpaKrw : Option ℚ
  breakEvenCpaKrw : Option ℚ
  watchCpaKrw : Option ℚ
  stopCpaKrw : Option ℚ
  ruleStatus : RuleStatus

/-- The rows of a product; a group is never empty. -/
def productRow (entry : String × List DecoratedMetric) : Option ProductMetrics :=
  entry.2.head?.map fun first =>
    let aggregate := aggregateDecoratedMetrics entry.2
    { productId := entry.1
      product := first.metric.product
      totals := aggregate.totals
      averages := dailyAverages aggregate
      dataDays := aggregate.dataDays
      thresholds := first.thresholds
      targetCpaKrw := first.thresholds.bind (·.targetCpaKrw)
      breakEvenCpaKrw := first.thresholds.bind (·.breakEvenCpaKrw)
      watchCpaKrw := first.thresholds.bind (·.watchCpaKrw)
      stopCpaKrw := first.thresholds.bind (·.stopCpaKrw)
      ruleStatus := summarizeRuleStatus entry.2 }

def productMetrics (db : MetricsDb) (order : MetricOrder) (fromText toText deliveryStatusInput : Option String) :
    Except ApiError (List ProductMetrics) := do
  let deliveryStatus ← parseDeliveryStatusFilter deliveryStatusInput
  let range ← parseDateRange fromText toText
  let decorated := (decoratedMetrics db order range.fromDate range.toDate deliveryStatus).filter
    fun row => isTruthy row.metric.productId
  return (groupBy (fun row => row.metric.productId.getD "unmatched") decorated).entries.filterMap productRow

structure AdsetMetricQuery where
  fromText : Option String
  toText : Option String
  campaignId : Option String
  productId : Option String
  stage : Option AdStage
  decision : Option String
  deliveryStatus : Option String

/-- The filters of `where` besides the range and the status. -/
def adsetWhere (query : AdsetMetricQuery) (metric : MetricWithRelations) : Bool :=
  (!isTruthy query.productId || metric.productId = query.productId) &&
  query.stage.all (metric.stage = ·) &&
  (!isTruthy query.campaignId ||
    (if isUuid ['1', '2', '3', '4', '5'] (query.campaignId.getD "") then
      (metric.metaAdset.bind (·.campaignRefId)) = query.campaignId
    else (metric.metaAdset.bind (·.externalCampaignId)) = query.campaignId))

structure AdsetMetrics where
  metaAdsetId : String
  adsetName : String
  product : Option MetricProduct
  stage : AdStage
  deliveryStatus : Option String
  totals : PeriodMetricResult
  dataDays : Nat
  thresholds : Option ProductCpaThresholds
  ruleStatus : RuleStatus
  cpaDeltaVsPreviousDay : Option ℚ
  firstSeenOn : Option String
  lastSeenOn : Option String

/-- The rows of an adset; a group is never empty. -/
def adsetRow (entry : String × List DecoratedMetric) : Option AdsetMetrics :=
  entry.2.head?.bind fun first => entry.2.getLast?.map fun last =>
    let aggregate := aggregateDecoratedMetrics entry.2
    { metaAdsetId := entry.1
      adsetName := last.metric.adsetName
      product := last.metric.product
      stage := last.metric.stage
      deliveryStatus := last.metric.deliveryStatus
      totals := aggregate.totals
      dataDays := aggregate.dataDays
      thresholds := last.thresholds
      ruleStatus := summarizeRuleStatus entry.2
      cpaDeltaVsPreviousDay := none
      firstSeenOn := (first.metric.metaAdset.bind (·.firstSeenOn)).map formatDateOnly
      lastSeenOn := (last.metric.metaAdset.bind (·.lastSeenOn)).map formatDateOnly }

def adsetMetrics (db : MetricsDb) (order : MetricOrder) (query : AdsetMetricQuery) :
    Except ApiError (List AdsetMetrics) := do
  let range ← parseDateRange query.fromText query.toText
  let deliveryStatus ← parseDeliveryStatusFilter query.deliveryStatus
  let metrics := (currentAdsetMetrics db order range.fromDate range.toDate deliveryStatus).filter
    (adsetWhere query)
  let rows := (groupBy (·.metric.metaAdsetId) (decorate db metrics)).entries.filterMap adsetRow
  if !isTruthy query.decision then return rows
  else
    let allowed := (db.decisionLogs.filter fun log => log.periodStart = range.fromDate &&
      log.periodEnd = range.toDate && some log.decision = query.decision).filterMap (·.metaAdsetId)
    return rows.filter fun row => allowed.contains row.metaAdsetId

/-! ## 4. The sums of the views -/

def TrendRow.finances (row : TrendRow) : Finances where
  spendUsd := row.spendUsd
  spendKrw := row.spendKrw
  purchaseCount := row.purchaseCount
  revenueKrw := row.revenueKrw
  marginKrw := row.marginKrw

theorem trend_sums (grouping : TrendGrouping) (rows : List DecoratedMetric) :
    ((sortByDate ((trendGroups grouping rows).entries.map trendRow)).map (·.finances)).sum =
      (rows.map (·.periodRow.finances)).sum := by
  unfold sortByDate
  rw [((perm_insertionSort _ _).map _).sum_eq, map_map, ← finances_groups (trendKey grouping),
    OrderedMap.values, map_map]
  rfl

/-- A view that has a row for every group has the sums of the rows. -/
theorem sum_groupRows {α : Type} (key : DecoratedMetric → String) (rows : List DecoratedMetric)
    {view : String × List DecoratedMetric → Option α} {finances : α → Finances}
    (h : ∀ e, e.2 ≠ [] → (view e).map finances = some (aggregateDecoratedMetrics e.2).totals.finances) :
    (((groupBy key rows).entries.filterMap view).map finances).sum =
      (rows.map (·.periodRow.finances)).sum := by
  have hview : (groupBy key rows).entries.filterMap (fun e => (view e).map finances) =
      (groupBy key rows).entries.map fun e => (aggregateDecoratedMetrics e.2).totals.finances := by
    rw [← filterMap_eq_map]
    exact filterMap_congr fun e he => h e (mem_entries_groupBy.mp he).2
  rw [map_filterMap, hview, ← finances_groups key, OrderedMap.values, map_map]
  rfl

theorem product_sums (rows : List DecoratedMetric) :
    (((groupBy (fun row => row.metric.productId.getD "unmatched") rows).entries.filterMap productRow).map
      (·.totals.finances)).sum = (rows.map (·.periodRow.finances)).sum := by
  refine sum_groupRows _ rows fun ⟨productId, group⟩ hne => ?_
  obtain ⟨first, rest, rfl⟩ := exists_cons_of_ne_nil hne
  rfl

theorem adset_sums (rows : List DecoratedMetric) :
    (((groupBy (·.metric.metaAdsetId) rows).entries.filterMap adsetRow).map (·.totals.finances)).sum =
      (rows.map (·.periodRow.finances)).sum := by
  refine sum_groupRows _ rows fun ⟨metaAdsetId, group⟩ hne => ?_
  obtain ⟨first, rest, rfl⟩ := exists_cons_of_ne_nil hne
  unfold adsetRow
  simp only [head?_cons, Option.bind_some, getLast?_cons, Option.map_some]

/-- Each view sums up to some totals, the view of products with the unmatched rows beside it. -/
structure SumsUp (db : MetricsDb) (order : MetricOrder) (fromText toText deliveryStatus : Option String)
    (unmatched : List DecoratedMetric) (totals : Finances) : Prop where
  trends : ∀ groupByInput, ∃ trends,
    dashboardTrends db order fromText toText groupByInput deliveryStatus = .ok trends ∧
      (trends.map (·.finances)).sum = totals
  products : ∃ products, productMetrics db order fromText toText deliveryStatus = .ok products ∧
    (products.map (·.totals.finances)).sum + (unmatched.map (·.periodRow.finances)).sum = totals
  adsets : ∃ adsets, adsetMetrics db order
      { fromText
        toText
        campaignId := none
        productId := none
        stage := none
        decision := none
        deliveryStatus } = .ok adsets ∧
    (adsets.map (·.totals.finances)).sum = totals

/-- The decorated rows without a product. -/
def unmatchedRows (rows : List DecoratedMetric) : List DecoratedMetric :=
  rows.filter fun row => !isTruthy row.metric.productId

section Requests

variable (db : MetricsDb) (order : MetricOrder) {fromText toText deliveryStatusInput : Option String}
  {range : DateRange} {deliveryStatus : DeliveryStatusFilter}
  (hrange : parseDateRange fromText toText = .ok range)
  (hstatus : parseDeliveryStatusFilter deliveryStatusInput = .ok deliveryStatus)

include hrange hstatus

/-- **Every view sums up to the totals of the summary.** -/
theorem views_sum_up :
    let rows := decoratedMetrics db order range.fromDate range.toDate deliveryStatus
    ∃ summary, dashboardSummary db order fromText toText deliveryStatusInput = .ok summary ∧
      SumsUp db order fromText toText deliveryStatusInput (unmatchedRows rows) summary.totals.finances := by
  intro rows
  have hsummary : ∃ summary, dashboardSummary db order fromText toText deliveryStatusInput = .ok summary ∧
      summary.totals = (aggregateDecoratedMetrics rows).totals := by
    unfold dashboardSummary
    rw [hrange, hstatus]
    exact ⟨_, rfl, rfl⟩
  obtain ⟨summary, hok, htotals⟩ := hsummary
  refine ⟨summary, hok, ?_⟩
  rw [htotals, finances_aggregate]
  refine ⟨fun groupByInput => ?_, ?_, ?_⟩
  · unfold dashboardTrends
    rw [hrange, hstatus]
    exact ⟨_, rfl, trend_sums _ rows⟩
  · unfold productMetrics
    rw [hrange, hstatus]
    refine ⟨_, rfl, ?_⟩
    rw [product_sums, ← sum_append, ← map_append]
    exact ((filter_append_perm _ rows).map _).sum_eq
  · unfold adsetMetrics
    rw [hrange, hstatus]
    refine ⟨_, rfl, ?_⟩
    rw [adset_sums]
    have hwhere : ∀ metric : MetricWithRelations, adsetWhere
        { fromText
          toText
          campaignId := none
          productId := none
          stage := none
          decision := none
          deliveryStatus := deliveryStatusInput } metric = true := fun _ => rfl
    rw [filter_eq_self.mpr fun metric _ => hwhere metric]
    rfl

end Requests

/-! ## 5. The groups of a trend -/

/-- The date of a row with its stage or product. -/
def trendGroup (grouping : TrendGrouping) (metric : MetricWithRelations) :
    Int × Option AdStage × Option (Option String) :=
  match grouping with
  | .date => (metric.metricDate, none, none)
  | .stage => (metric.metricDate, some metric.stage, none)
  | .product => (metric.metricDate, none, some metric.productId)

/-- The full name of that stage or product. -/
def trendLabel (grouping : TrendGrouping) (metric : MetricWithRelations) : String :=
  match grouping with
  | .date => "all"
  | .stage => stageText metric.stage
  | .product => productLabel metric

/-- **What the groups of a trend should be**: each row is in one of them, each has all rows of one
    date and one stage or product, and is labelled so. -/
structure Grouped (grouping : TrendGrouping) (rows : List DecoratedMetric) : Prop where
  once : ∀ row ∈ rows, ∃! entry, entry ∈ (trendGroups grouping rows).entries ∧ row ∈ entry.2
  uniform : ∀ entry ∈ (trendGroups grouping rows).entries, ∃ first ∈ entry.2, entry.2 =
    rows.filter fun row => trendGroup grouping row.metric = trendGroup grouping first.metric
  labelled : ∀ entry ∈ (trendGroups grouping rows).entries, ∀ row ∈ entry.2,
    (trendRow entry).date = formatDateOnly row.metric.metricDate ∧
      (trendRow entry).group = trendLabel grouping row.metric

theorem digitChar_ne_colon (n : Nat) : digitChar n ≠ ':' := by
  intro h
  have hdigit := digit?_digitChar n
  rw [h] at hdigit
  exact (nomatch hdigit)

theorem colon_notMem_formatDateOnly {d : Int} (h : ReadsBack d) : ':' ∉ (formatDateOnly d).toList := by
  obtain ⟨y, m, n, -, -, -, -, htext⟩ := formatDateOnly_eq h
  rw [htext]
  simp [isoChars, pad4, pad2, (digitChar_ne_colon _).symm]

/-- A row under its own date, as the database has it. -/
structure DecoratedMetric.Dated (row : DecoratedMetric) : Prop where
  text : row.metricDate = formatDateOnly row.metric.metricDate
  readsBack : ReadsBack row.metric.metricDate

section Keys

variable {grouping : TrendGrouping} {row row' : DecoratedMetric}

/-- The characters of a key. -/
theorem toList_trendKey (h : row.Dated) (hg : grouping ≠ .date) :
    (trendKey grouping row).toList = (formatDateOnly row.metric.metricDate).toList ++
      ':' :: (trendLabel grouping row.metric).toList := by
  cases grouping with
  | date => exact absurd rfl hg
  | stage | product => simp [trendKey, trendLabel, h.text]

/-- A key names the date and the label. -/
theorem trendKey_eq_iff (h : row.Dated) (h' : row'.Dated) :
    trendKey grouping row = trendKey grouping row' ↔
      row.metric.metricDate = row'.metric.metricDate ∧
        trendLabel grouping row.metric = trendLabel grouping row'.metric := by
  by_cases hg : grouping = .date
  · subst hg
    show row.metricDate = row'.metricDate ↔ _ ∧ "all" = "all"
    rw [h.text, h'.text]
    exact ⟨fun e => ⟨formatDateOnly_inj h.readsBack h'.readsBack e, rfl⟩, fun e => by rw [e.1]⟩
  · rw [← String.toList_inj, toList_trendKey h hg, toList_trendKey h' hg]
    constructor
    · intro e
      obtain ⟨hdate, hlabel⟩ := append_sep_inj (colon_notMem_formatDateOnly h.readsBack)
        (colon_notMem_formatDateOnly h'.readsBack) e
      exact ⟨formatDateOnly_inj h.readsBack h'.readsBack (String.toList_inj.mp hdate),
        String.toList_inj.mp hlabel⟩
    · intro e
      rw [e.1, e.2]

/-- The text before the first colon is the date; the text after it is the label if that has no
    colon. -/
theorem trendRow_of_key (h : row.Dated) (group : List DecoratedMetric) :
    (trendRow (trendKey grouping row, group)).date = formatDateOnly row.metric.metricDate ∧
      ((trendRow (trendKey grouping row, group)).group = trendLabel grouping row.metric ↔
        ':' ∉ (trendLabel grouping row.metric).toList) := by
  have hcolon := colon_notMem_formatDateOnly h.readsBack
  by_cases hg : grouping = .date
  · subst hg
    have hsplit : splitKey (trendKey .date row) = [formatDateOnly row.metric.metricDate] := by
      show splitKey row.metricDate = _
      rw [h.text, splitKey, splitOn_eq_singleton hcolon, map_singleton, String.ofList_toList]
    unfold trendRow
    simp only [hsplit]
    exact ⟨rfl, iff_of_true rfl (show ':' ∉ "all".toList by decide)⟩
  · obtain ⟨part, parts, hparts⟩ := exists_cons_of_ne_nil
      (splitOn_ne_nil ':' (trendLabel grouping row.metric).toList)
    have hsplit : splitKey (trendKey grouping row) =
        formatDateOnly row.metric.metricDate :: String.ofList part :: parts.map String.ofList := by
      rw [splitKey, toList_trendKey h hg, splitOn_append_cons_self_of_not_mem hcolon, hparts,
        map_cons, map_cons, String.ofList_toList]
    unfold trendRow
    simp only [hsplit]
    refine ⟨rfl, ?_⟩
    show String.ofList part = trendLabel grouping row.metric ↔ _
    rw [← head?_splitOn_eq_self_iff, hparts, head?_cons, Option.some.injEq, ← String.toList_inj,
      String.toList_ofList]

end Keys

variable {rows : List DecoratedMetric} {grouping : TrendGrouping}

/-- The rows of a group are those of its date and its label. -/
theorem mem_trendGroups (hdated : ∀ row ∈ rows, row.Dated) {entry : String × List DecoratedMetric}
    (he : entry ∈ (trendGroups grouping rows).entries) {first : DecoratedMetric} (hf : first ∈ entry.2) :
    first ∈ rows ∧ entry.1 = trendKey grouping first ∧ entry.2 = rows.filter fun row =>
      row.metric.metricDate = first.metric.metricDate ∧
        trendLabel grouping row.metric = trendLabel grouping first.metric := by
  have hgroup := (mem_entries_groupBy.mp he).1
  rw [hgroup, mem_filter] at hf
  have hkey : trendKey grouping first = entry.1 := of_decide_eq_true hf.2
  refine ⟨hf.1, hkey.symm, ?_⟩
  rw [hgroup, ← hkey]
  exact filter_congr fun row hrow => decide_eq_decide.mpr
    (trendKey_eq_iff (hdated row hrow) (hdated first hf.1))

/-- **When a trend is grouped as it should be**: no label has a colon, and on one date a label is
    that of one stage or product. -/
theorem grouped_iff (hdated : ∀ row ∈ rows, row.Dated)
    (hlabel : ∀ row ∈ rows, ∀ row' ∈ rows, trendGroup grouping row.metric = trendGroup grouping row'.metric →
      row.metric.metricDate = row'.metric.metricDate ∧
        trendLabel grouping row.metric = trendLabel grouping row'.metric) :
    Grouped grouping rows ↔
      (∀ row ∈ rows, ':' ∉ (trendLabel grouping row.metric).toList) ∧
        ∀ row ∈ rows, ∀ row' ∈ rows, row.metric.metricDate = row'.metric.metricDate →
          trendLabel grouping row.metric = trendLabel grouping row'.metric →
            trendGroup grouping row.metric = trendGroup grouping row'.metric := by
  have hentry : ∀ row ∈ rows, ∃ entry ∈ (trendGroups grouping rows).entries, row ∈ entry.2 := fun row hrow =>
    (existsUnique_mem_groupBy (trendKey grouping) hrow).exists
  constructor
  · intro h
    refine ⟨fun row hrow => ?_, fun row hrow row' hrow' hdate hsame => ?_⟩
    · obtain ⟨entry, he, hmem⟩ := hentry row hrow
      obtain ⟨-, hkey, -⟩ := mem_trendGroups hdated he hmem
      have hgroup := (h.labelled entry he row hmem).2
      have hpair : entry = (trendKey grouping row, entry.2) := by rw [← hkey]
      rw [hpair] at hgroup
      exact (trendRow_of_key (hdated row hrow) entry.2).2.mp hgroup
    · obtain ⟨entry, he, hmem⟩ := hentry row' hrow'
      obtain ⟨-, -, hrows⟩ := mem_trendGroups hdated he hmem
      have hboth : row ∈ entry.2 := by
        rw [hrows]
        exact mem_filter.mpr ⟨hrow, decide_eq_true ⟨hdate, hsame⟩⟩
      obtain ⟨first, -, huniform⟩ := h.uniform entry he
      rw [huniform] at hmem hboth
      have h1 := of_decide_eq_true (mem_filter.mp hboth).2
      have h2 := of_decide_eq_true (mem_filter.mp hmem).2
      exact h1.trans h2.symm
  · intro ⟨hcolon, hsame⟩
    refine ⟨fun row hrow => existsUnique_mem_groupBy _ hrow, fun entry he => ?_, fun entry he row hmem => ?_⟩
    · obtain ⟨first, hf⟩ := exists_mem_of_ne_nil _ (mem_entries_groupBy.mp he).2
      obtain ⟨hfirst, -, hrows⟩ := mem_trendGroups hdated he hf
      refine ⟨first, hf, hrows.trans (filter_congr fun row hrow => decide_eq_decide.mpr ?_)⟩
      exact ⟨fun e => hsame row hrow first hfirst e.1 e.2, hlabel row hrow first hfirst⟩
    · obtain ⟨hrow, hkey, -⟩ := mem_trendGroups hdated he hmem
      have hpair : entry = (trendKey grouping row, entry.2) := by rw [← hkey]
      obtain ⟨hdate, hgroup⟩ := @trendRow_of_key grouping row (hdated row hrow) entry.2
      rw [hpair]
      exact ⟨hdate, hgroup.mpr (hcolon row hrow)⟩

/-! ## 6. The dashboard -/

/-- Products named without a colon, and by different names on one date. -/
structure NamesApart (metrics : List MetricWithRelations) : Prop where
  colon : ∀ m ∈ metrics, ':' ∉ (productLabel m).toList
  apart : ∀ m ∈ metrics, ∀ n ∈ metrics, m.metricDate = n.metricDate → productLabel m = productLabel n →
    m.productId = n.productId

theorem stageText_inj {a b : AdStage} (h : stageText a = stageText b) : a = b := by
  cases a <;> cases b <;> first | rfl | exact absurd h (by decide)

section Queried

variable {db : MetricsDb} {metrics : List MetricWithRelations}

theorem mem_decorate {row : DecoratedMetric} (h : row ∈ decorate db metrics) :
    row.metric ∈ metrics ∧ row.metricDate = formatDateOnly row.metric.metricDate := by
  obtain ⟨m, hm, rfl⟩ := mem_map.mp h
  obtain ⟨hmetric, hdate⟩ := decorateAmong_metric db metrics m
  rw [hmetric]
  exact ⟨hm, hdate⟩

theorem exists_decorate {m : MetricWithRelations} (h : m ∈ metrics) :
    ∃ row ∈ decorate db metrics, row.metric = m :=
  ⟨decorateAmong db metrics m, mem_map_of_mem h, (decorateAmong_metric db metrics m).1⟩

/-- **When all trends of the rows of a query are grouped as they should be.** -/
theorem all_grouped_iff (hread : ∀ m ∈ metrics, ReadsBack m.metricDate)
    (hrel : ∀ m ∈ metrics, ∃ a, withRelations db a = m) :
    (∀ grouping, Grouped grouping (decorate db metrics)) ↔ NamesApart metrics := by
  have hdated : ∀ row ∈ decorate db metrics, row.Dated := fun row hrow =>
    ⟨(mem_decorate hrow).2, hread _ (mem_decorate hrow).1⟩
  -- the name of a product goes with its id
  have hname : ∀ m ∈ metrics, ∀ n ∈ metrics, m.productId = n.productId → productLabel m = productLabel n := by
    intro m hm n hn h
    obtain ⟨a, rfl⟩ := hrel m hm
    obtain ⟨b, rfl⟩ := hrel n hn
    have hid : a.productId = b.productId := h
    unfold productLabel withRelations
    rw [hid]
  have hlabel : ∀ grouping, ∀ row ∈ decorate db metrics, ∀ row' ∈ decorate db metrics,
      trendGroup grouping row.metric = trendGroup grouping row'.metric →
        row.metric.metricDate = row'.metric.metricDate ∧
          trendLabel grouping row.metric = trendLabel grouping row'.metric := by
    intro grouping row hrow row' hrow' h
    cases grouping with
    | date => exact ⟨(Prod.mk.inj h).1, rfl⟩
    | stage =>
      obtain ⟨hdate, hstage⟩ := Prod.mk.inj h
      exact ⟨hdate, congrArg stageText (Option.some.inj (Prod.mk.inj hstage).1)⟩
    | product =>
      obtain ⟨hdate, hproduct⟩ := Prod.mk.inj h
      exact ⟨hdate, hname _ (mem_decorate hrow).1 _ (mem_decorate hrow').1
        (Option.some.inj (Prod.mk.inj hproduct).2)⟩
  constructor
  · intro h
    obtain ⟨hcolon, hsame⟩ := (grouped_iff hdated (hlabel .product)).mp (h .product)
    refine ⟨fun m hm => ?_, fun m hm n hn hdate hlab => ?_⟩
    · obtain ⟨row, hrow, rfl⟩ := @exists_decorate db metrics _ hm
      exact hcolon row hrow
    · obtain ⟨row, hrow, rfl⟩ := @exists_decorate db metrics _ hm
      obtain ⟨row', hrow', rfl⟩ := @exists_decorate db metrics _ hn
      exact Option.some.inj (Prod.mk.inj (Prod.mk.inj (hsame row hrow row' hrow' hdate hlab)).2).2
  · intro h grouping
    refine (grouped_iff hdated (hlabel grouping)).mpr ?_
    cases grouping with
    | date =>
      refine ⟨fun _ _ => (show ':' ∉ "all".toList by decide), fun row _ row' _ hdate _ => ?_⟩
      exact Prod.ext hdate rfl
    | stage =>
      refine ⟨fun row _ => ?_, fun row _ row' _ hdate hlab => ?_⟩
      · show ':' ∉ (stageText row.metric.stage).toList
        cases row.metric.stage <;> decide
      · exact Prod.ext hdate (Prod.ext (congrArg some (stageText_inj hlab)) rfl)
    | product =>
      refine ⟨fun row hrow => h.colon _ (mem_decorate hrow).1, fun row hrow row' hrow' hdate hlab => ?_⟩
      exact Prod.ext hdate (Prod.ext rfl (congrArg some
        (h.apart _ (mem_decorate hrow).1 _ (mem_decorate hrow').1 hdate hlab)))

end Queried

theorem mem_currentAdsetMetrics_dated {db : MetricsDb} {order : MetricOrder} {fromDate toDate : Int}
    {deliveryStatus : DeliveryStatusFilter} {m : MetricWithRelations}
    (h : m ∈ currentAdsetMetrics db order fromDate toDate deliveryStatus) :
    (fromDate ≤ m.metricDate ∧ m.metricDate ≤ toDate) ∧ ∃ a, withRelations db a = m := by
  obtain ⟨a, ha, rfl⟩ := mem_map.mp h
  have hin := (mem_filter.mp ((order.adsetMetrics_perm _).mem_iff.mp ha)).2
  unfold isCurrentBetween at hin
  simp only [Bool.and_eq_true, decide_eq_true_eq] at hin
  exact ⟨⟨hin.1.1.2, hin.1.2⟩, a, rfl⟩

theorem readsBack_of_parseDateRange {fromText toText : Option String} {range : DateRange}
    (h : parseDateRange fromText toText = .ok range) :
    ReadsBack range.fromDate ∧ ReadsBack range.toDate := by
  unfold parseDateRange at h
  split at h
  · exact (nomatch h)
  · split at h
    · rename_i fromDate toDate hfrom hto
      split at h
      · exact (nomatch h)
      · cases h
        exact ⟨readsBack_of_toDateOnly hfrom, readsBack_of_toDateOnly hto⟩
    · exact (nomatch h)

/-- **The views partition the dashboard if and only if names tell products apart**: the sums are
    those of the summary in any case, the groups are right where no name has a colon and no two
    products of a date share one. -/
theorem views_partition_iff (db : MetricsDb) (order : MetricOrder)
    {fromText toText deliveryStatusInput : Option String} {range : DateRange}
    {deliveryStatus : DeliveryStatusFilter} (hrange : parseDateRange fromText toText = .ok range)
    (hstatus : parseDeliveryStatusFilter deliveryStatusInput = .ok deliveryStatus) :
    let metrics := currentAdsetMetrics db order range.fromDate range.toDate deliveryStatus
    let rows := decoratedMetrics db order range.fromDate range.toDate deliveryStatus
    ((∀ grouping, Grouped grouping rows) ∧
      ∃ summary, dashboardSummary db order fromText toText deliveryStatusInput = .ok summary ∧
        SumsUp db order fromText toText deliveryStatusInput (unmatchedRows rows)
          summary.totals.finances) ↔ NamesApart metrics := by
  intro metrics rows
  have hsums := views_sum_up db order hrange hstatus
  obtain ⟨hfrom, hto⟩ := readsBack_of_parseDateRange hrange
  rw [and_iff_left hsums]
  refine all_grouped_iff (fun m hm => ?_) (fun m hm => ?_)
  · obtain ⟨⟨h1, h2⟩, -⟩ := mem_currentAdsetMetrics_dated hm
    exact hfrom.between hto h1 h2
  · exact (mem_currentAdsetMetrics_dated hm).2

/-! ## 7. A name with a colon and a name twice -/

def namedAdset (id productId : String) : AdsetDailyMetric where
  id := id
  isCurrent := true
  metricDate := daysFromCivil 2026 1 5
  metaAdsetId := id
  adsetName := id
  deliveryStatus := some "active"
  resultCount := 1
  spendUsd := ⟨10000⟩
  impressions := 200
  linkClicks := 10
  clicksAll := 20
  landingPageViews := 5
  productId := some productId
  stage := .UNKNOWN

/-- A set of two and two creams, an adset for each. -/
def namedDb : MetricsDb where
  products := [⟨"set", "세트: 2개"⟩, ⟨"day", "크림"⟩, ⟨"night", "크림"⟩]
  adsets := []
  adMetrics := []
  adsetMetrics := [namedAdset "a" "set", namedAdset "b" "day", namedAdset "c" "night"]
  costRules := []
  cpaRules := []
  exchangeRates := []
  decisionLogs := []

def namedDay : Option String := some "2026-01-05"

def namedRange : DateRange where
  fromDate := daysFromCivil 2026 1 5
  toDate := daysFromCivil 2026 1 5

theorem views_partition_iff_named :
    let metrics := currentAdsetMetrics namedDb asStored namedRange.fromDate namedRange.toDate .active
    let rows := decoratedMetrics namedDb asStored namedRange.fromDate namedRange.toDate .active
    ((∀ grouping, Grouped grouping rows) ∧
      ∃ summary, dashboardSummary namedDb asStored namedDay namedDay none = .ok summary ∧
        SumsUp namedDb asStored namedDay namedDay none (unmatchedRows rows) summary.totals.finances) ↔
      NamesApart metrics := by
  have hday : toDateOnly namedDay = some (daysFromCivil 2026 1 5) := by decide +kernel
  have hrange : parseDateRange namedDay namedDay = .ok namedRange := by
    unfold parseDateRange
    rw [if_neg (by decide)]
    exact if_neg (lt_irrefl _)
  exact views_partition_iff namedDb asStored hrange rfl

/-- The set is labelled without its number, and the two creams are one row. -/
theorem names_cut_and_merged :
    ((dashboardTrends namedDb asStored namedDay namedDay (some "product") none).toOption.map
      (·.map fun row => (row.group, row.purchaseCount))) = some [("세트", 1), ("크림", 2)] ∧
    ¬ Grouped .product (decoratedMetrics namedDb asStored namedRange.fromDate namedRange.toDate .active) := by
  refine ⟨by decide +kernel, fun h => ?_⟩
  let set := decorateAmong namedDb
    (currentAdsetMetrics namedDb asStored namedRange.fromDate namedRange.toDate .active)
    (withRelations namedDb (namedAdset "a" "set"))
  have hlabel := (h.labelled ("2026-01-05:세트: 2개", [set]) (by decide +kernel) set
    (mem_singleton.mpr rfl)).2
  exact absurd hlabel (by decide +kernel)

end AdsManagement.Metrics
