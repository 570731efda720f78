/-
  File:      Metrics/Decoration.lean
  Subject:   THE TWO LEVELS OF META FIGURES: ad rows summed by creative
             (meta-ad-metric-aggregates.ts), adset rows decorated with rule, rate and corrected
             purchases (meta-adset-metric-decoration.service.ts) and summed
             (meta-adset-metric-aggregates.ts).

  * `aggregateCreativeDailyRows` -- a creative: VAT is the column of the rule;
  * `decorate`, `aggregateDecoratedMetrics` -- adsets: VAT is a tenth of the price;
  * `Priced` -- the rule of a product on a day and the rate of the day;
  * `creativePeriodRow_priced`, `decorate_priced` -- what both make of a priced row.
-/
import AdsManagement.Metrics.Rows

namespace AdsManagement.Metrics

open Common Lib List
open Meta (ProductRule CostValues CpaValues findEffectiveRuleForDate rulesOf)

/-! ## 1. Creatives -/

structure CreativeFinancialContext where
  costRulesByProductId : OrderedMap String (List (ProductRule CostValues))
  exchangeRateByDate : OrderedMap String ExchangeRateRow

def creativeFinancialContext (db : MetricsDb) (metrics : List AdDailyMetricRow) :
    CreativeFinancialContext :=
  if metrics.length = 0 then ⟨OrderedMap.empty, OrderedMap.empty⟩
  else
    let productIds := productIds (metrics.map (·.productId))
    let rateDates := rateDates (metrics.map (·.metricDate))
    let costRules := if 0 < productIds.length then rulesFor db.costRules productIds else []
    let exchangeRates := if 0 < rateDates.length then exchangeRatesOn db rateDates else []
    { costRulesByProductId := groupBy (·.productId) costRules
      exchangeRateByDate := rateByDate exchangeRates }

/-- `exchangeRate ? numberFrom(exchangeRate.rate) : legacyExchangeRate > 0 ? legacyExchangeRate : null`. -/
def exchangeRateKrwPerUsd (exchangeRate : Option ExchangeRateRow) (legacyExchangeRate : ℚ) : Option ℚ :=
  match exchangeRate with
  | some exchangeRate => some exchangeRate.rate.value
  | none => if 0 < legacyExchangeRate then some legacyExchangeRate else none

def creativePeriodRow (context : CreativeFinancialContext) (row : AdDailyMetricRow) : PeriodMetricRow :=
  let metricDate := formatDateOnly row.metricDate
  let spendUsd := row.spendUsd.value
  let purchaseCount := adPurchaseCount row
  let costRule :=
    if isTruthy row.productId then
      findEffectiveRuleForDate ((context.costRulesByProductId.get (row.productId.getD "")).getD [])
        row.metricDate
    else none
  let exchangeRate := context.exchangeRateByDate.get metricDate
  let legacyExchangeRate := (costRule.map fun rule => rule.values.fxRateKrwPerUsd.value).getD 0
  let exchangeRateKrwPerUsd := exchangeRateKrwPerUsd exchangeRate legacyExchangeRate
  let spendKrw := if spendUsd = 0 then some 0 else exchangeRateKrwPerUsd.map (spendUsd * ·)
  let salePriceKrw := costRule.map fun rule => rule.values.salePriceKrw.value
  let revenueKrw := if purchaseCount = 0 then some 0 else salePriceKrw.map ((purchaseCount : ℚ) * ·)
  let margin :=
    match costRule, spendKrw with
    | some rule, some _ =>
      some (MarginCalculator.margin
        { spendUsd
          purchaseCount
          exchangeRateKrwPerUsd := exchangeRateKrwPerUsd.getD 0 }
        { salePriceKrw := rule.values.salePriceKrw.value
          vatKrw := rule.values.vatKrw.value
          productCostKrw := rule.values.productCostKrw.value
          shippingKrw := rule.values.shippingKrw.value
          extraCostKrw := rule.values.extraCostKrw.value })
    | _, _ => none
  -- without a product there is no margin of a product
  let marginKrw :=
    if isTruthy row.productId then
      (margin.map (·.marginKrw)).or (if purchaseCount = 0 then spendKrw.map (-·) else none)
    else none
  { metricDate
    spendUsd
    spendKrw
    resultCount := purchaseCount
    impressions := row.impressions
    linkClicks := row.linkClicks
    clicksAll := row.clicksAll
    landingPageViews := row.landingPageViews
    revenueKrw
    marginKrw }

/-- The totals of a creative: those of its period, with the amounts below in their place. -/
structure CreativeTotals where
  period : PeriodMetricResult
  video : MetaVideoMetricTotals
  spendKrw : Option ℚ
  revenueKrw : Option ℚ
  marginKrw : Option ℚ
  cpaKrw : Option ℚ
  roas : Option ℚ
  cpmUsd : Option ℚ

def aggregateCreativeDailyRows (rows : List AdDailyMetricRow) (context : CreativeFinancialContext) :
    CreativeTotals × Nat :=
  let periodRows := rows.map (creativePeriodRow context)
  let totals := PeriodMetricCalculator.calculate periodRows
  let hasUnknownSpendKrw := periodRows.any fun row => 0 < row.spendUsd && row.spendKrw.isNone
  let hasUnknownRevenueKrw := periodRows.any fun row => 0 < row.resultCount && row.revenueKrw.isNone
  let hasUnknownMarginKrw := periodRows.any fun row => row.marginKrw.isNone
  let spendKrw := if hasUnknownSpendKrw then none else some totals.spendKrw
  let revenueKrw := if hasUnknownRevenueKrw then none else some totals.revenueKrw
  let marginKrw := if hasUnknownMarginKrw then none else some totals.marginKrw
  ({ period := totals
     video := aggregateMetaVideoMetrics (rows.map (·.video))
     spendKrw
     revenueKrw
     marginKrw
     cpaKrw := spendKrw.bind fun spend => divideOrNull (some spend) totals.purchaseCount
     roas := spendKrw.bind fun spend => revenueKrw.bind fun revenue => divideOrNull (some revenue) spend
     cpmUsd := divideOrNull (some (totals.spendUsd * 1000)) totals.impressions },
    totals.dataDays)

/-! ## 2. Adsets -/

inductive RuleStatus where
  | OK
  | UNMATCHED
  | MISSING_COST_RULE
  | MISSING_CPA_RULE
  | MISSING_EXCHANGE_RATE
  | MISSING_RULES
deriving DecidableEq

structure DecoratedMetric where
  metric : MetricWithRelations
  metricDate : String
  spendUsd : ℚ
  purchaseCount : Int
  spendKrw : Option ℚ
  revenueKrw : Option ℚ
  marginKrw : Option ℚ
  cpaKrw : Option ℚ
  cpaUsd : Option ℚ
  ruleStatus : RuleStatus
  thresholds : Option ProductCpaThresholds
  costRule : Option (ProductRule CostValues)
  cpaRule : Option (ProductRule CpaValues)
  exchangeRate : Option ExchangeRateRow
deriving DecidableEq

/-- Purchases of adsets and days, summed over the current ad rows of these. -/
def correctedAdsetPurchaseCounts (db : MetricsDb) (metrics : List MetricWithRelations) :
    OrderedMap String Int :=
  if metrics.length = 0 then OrderedMap.empty
  else
    let rateDates := rateDates (metrics.map (·.metricDate))
    let metaAdsetIds := (metrics.map (·.metaAdsetId)).eraseDups
    let adMetrics := db.adMetrics.filter fun row => row.isCurrent &&
      rateDates.contains row.metricDate && metaAdsetIds.contains row.metaAdsetRefId
    aggregateBy (fun row => adsetMetricKey (formatDateOnly row.metricDate) row.metaAdsetRefId)
      (fun _ => 0) (fun count row => count + adPurchaseCount row) adMetrics

/-- A row without its amounts in won. -/
def undecorated (metric : MetricWithRelations) (purchaseCount : Int) (ruleStatus : RuleStatus)
    (thresholds : Option ProductCpaThresholds) (costRule : Option (ProductRule CostValues))
    (cpaRule : Option (ProductRule CpaValues)) (exchangeRate : Option ExchangeRateRow) :
    DecoratedMetric where
  metric := metric
  metricDate := formatDateOnly metric.metricDate
  spendUsd := metric.spendUsd.value
  purchaseCount := purchaseCount
  spendKrw := none
  revenueKrw := none
  marginKrw := none
  cpaKrw := none
  cpaUsd := none
  ruleStatus := ruleStatus
  thresholds := thresholds
  costRule := costRule
  cpaRule := cpaRule
  exchangeRate := exchangeRate

/-- The turn of `decorate` for a metric. -/
def decorateMetric (costRules : List (ProductRule CostValues)) (cpaRules : List (ProductRule CpaValues))
    (exchangeRateByDate : OrderedMap String ExchangeRateRow) (adsetPurchaseCounts : OrderedMap String Int)
    (metric : MetricWithRelations) : DecoratedMetric :=
  let metricDate := formatDateOnly metric.metricDate
  let spendUsd := metric.spendUsd.value
  let exchangeRate := exchangeRateByDate.get metricDate
  let purchaseCount :=
    (adsetPurchaseCounts.get (adsetMetricKey metricDate metric.metaAdsetId)).getD metric.resultCount
  if !isTruthy metric.productId then
    undecorated metric purchaseCount .UNMATCHED none none none exchangeRate
  else
    let costRule := findEffectiveRuleForDate
      (costRules.filter fun rule => some rule.productId = metric.productId) metric.metricDate
    let cpaRule := findEffectiveRuleForDate
      (cpaRules.filter fun rule => some rule.productId = metric.productId) metric.metricDate
    match costRule with
    | none =>
      undecorated metric purchaseCount (if cpaRule.isSome then .MISSING_COST_RULE else .MISSING_RULES)
        none none cpaRule exchangeRate
    | some rule =>
      let salePriceKrw := rule.values.salePriceKrw.value
      let costInput : CostRuleInput :=
        { salePriceKrw
          vatKrw := salePriceKrw * (1 / 10)
          productCostKrw := rule.values.productCostKrw.value
          shippingKrw := rule.values.shippingKrw.value
          extraCostKrw := rule.values.extraCostKrw.value }
      let thresholds := cpaRule.map fun rule => MarginCalculator.thresholds costInput
        { targetRatio := rule.values.targetRatio.value
          watchRatio := rule.values.watchRatio.value
          stopRatio := rule.values.stopRatio.value }
      match exchangeRateKrwPerUsd exchangeRate rule.values.fxRateKrwPerUsd.value with
      | none =>
        undecorated metric purchaseCount .MISSING_EXCHANGE_RATE thresholds (some rule) cpaRule
          exchangeRate
      | some rate =>
        let margin := MarginCalculator.margin
          { spendUsd, purchaseCount, exchangeRateKrwPerUsd := rate } costInput
        { metric
          metricDate
          spendUsd
          purchaseCount
          spendKrw := some margin.spendKrw
          revenueKrw := some margin.revenueKrw
          marginKrw := some margin.marginKrw
          cpaKrw := margin.cpaKrw
          cpaUsd := margin.cpaUsd
          ruleStatus := if cpaRule.isSome then .OK else .MISSING_CPA_RULE
          thresholds
          costRule := some rule
          cpaRule
          exchangeRate }

/-- What `decorate` does to each of some metrics, with the rules, rates and purchases of all. -/
def decorateAmong (db : MetricsDb) (metrics : List MetricWithRelations) :
    MetricWithRelations → DecoratedMetric :=
  let productIds := productIds (metrics.map (·.productId))
  decorateMetric (rulesFor db.costRules productIds) (rulesFor db.cpaRules productIds)
    (rateByDate (exchangeRatesOn db (rateDates (metrics.map (·.metricDate)))))
    (correctedAdsetPurchaseCounts db metrics)

def decorate (db : MetricsDb) (metrics : List MetricWithRelations) : List DecoratedMetric :=
  metrics.map (decorateAmong db metrics)

def decoratedMetrics (db : MetricsDb) (order : MetricOrder) (fromDate toDate : Int)
    (deliveryStatus : DeliveryStatusFilter) : List DecoratedMetric :=
  decorate db (currentAdsetMetrics db order fromDate toDate deliveryStatus)

/-- The row of a period that a decorated metric is. -/
def DecoratedMetric.periodRow (row : DecoratedMetric) : PeriodMetricRow where
  metricDate := row.metricDate
  spendUsd := row.spendUsd
  spendKrw := row.spendKrw
  resultCount := row.purchaseCount
  impressions := row.metric.impressions
  linkClicks := row.metric.linkClicks
  clicksAll := row.metric.clicksAll
  landingPageViews := row.metric.landingPageViews
  revenueKrw := row.revenueKrw
  marginKrw := row.marginKrw

inductive CriteriaStatus where
  | OK
  | CRITERIA_MISSING
deriving DecidableEq

structure DecoratedTotals where
  totals : PeriodMetricResult
  ruleStatus : CriteriaStatus
  dataDays : Nat

def aggregateDecoratedMetrics (rows : List DecoratedMetric) : DecoratedTotals :=
  let calculated := PeriodMetricCalculator.calculate (rows.map (·.periodRow))
  let matchedRows := rows.filter fun row => isTruthy row.metric.productId
  let missingCostRule := matchedRows.any fun row => row.costRule.isNone
  let missingCpaRule := matchedRows.any fun row => row.cpaRule.isNone
  let missingExchangeRate := matchedRows.any fun row => row.ruleStatus = .MISSING_EXCHANGE_RATE
  { totals :=
      { calculated with
        spendKrw := if missingCostRule && calculated.spendKrw = 0 then 0 else calculated.spendKrw
        marginKrw := if missingCostRule then calculated.marginKrw else calculated.marginKrw }
    ruleStatus := if missingCostRule || missingCpaRule || missingExchangeRate then .CRITERIA_MISSING
      else .OK
    dataDays := calculated.dataDays }

def summarizeRuleStatus (rows : List DecoratedMetric) : RuleStatus :=
  let statuses := rows.map (·.ruleStatus)
  if statuses.contains .UNMATCHED then .UNMATCHED
  else if statuses.contains .MISSING_RULES then .MISSING_RULES
  else if statuses.contains .MISSING_COST_RULE then .MISSING_COST_RULE
  else if statuses.contains .MISSING_EXCHANGE_RATE then .MISSING_EXCHANGE_RATE
  else if statuses.contains .MISSING_CPA_RULE then .MISSING_CPA_RULE
  else .OK

/-- The totals of decorated rows are those of their period. -/
theorem finances_aggregate (rows : List DecoratedMetric) :
    (aggregateDecoratedMetrics rows).totals.finances = (rows.map (·.periodRow.finances)).sum := by
  have hspend : (aggregateDecoratedMetrics rows).totals.finances =
      (PeriodMetricCalculator.calculate (rows.map (·.periodRow))).finances := by
    unfold aggregateDecoratedMetrics PeriodMetricResult.finances
    simp only [ite_self]
    split
    · next h => rw [(of_decide_eq_true (Bool.and_eq_true_iff.mp h).2)]
    · rfl
  rw [hspend, finances_calculate, map_map]
  rfl

/-- **Groups of decorated rows sum up to the rows.** -/
theorem finances_groups (key : DecoratedMetric → String) (rows : List DecoratedMetric) :
    ((groupBy key rows).values.map fun group => (aggregateDecoratedMetrics group).totals.finances).sum =
      (rows.map (·.periodRow.finances)).sum := by
  rw [← ((flatten_values_groupBy key rows).map _).sum_eq, map_flatten, sum_flatten, map_map]
  exact congrArg List.sum (map_congr_left fun group _ => finances_aggregate group)

/-- A row is decorated under its own date. -/
theorem decorateAmong_metric (db : MetricsDb) (metrics : List MetricWithRelations)
    (metric : MetricWithRelations) : (decorateAmong db metrics metric).metric = metric ∧
      (decorateAmong db metrics metric).metricDate = formatDateOnly metric.metricDate := by
  unfold decorateAmong decorateMetric
  dsimp only
  split
  · exact ⟨rfl, rfl⟩
  · split
    · exact ⟨rfl, rfl⟩
    · split
      · exact ⟨rfl, rfl⟩
      · exact ⟨rfl, rfl⟩

/-! ## 3. Priced rows -/

/-- A product has a cost rule on a day, and the day a rate: its own, or the one of the rule. -/
structure Priced (db : MetricsDb) (p : String) (d : Int) (v : CostValues) (rate : ℚ) : Prop where
  rule : ∃ r, findEffectiveRuleForDate (rulesOf p db.costRules) d = some r ∧ r.values = v
  rate : exchangeRateKrwPerUsd (rateAt db d) v.fxRateKrwPerUsd.value = some rate

/-- What spend and purchases come to under a rule, its VAT and a rate. -/
def pricedFinances (v : CostValues) (vatKrw rate spendUsd : ℚ) (purchaseCount : Int) : Finances where
  spendUsd := spendUsd
  spendKrw := spendUsd * rate
  purchaseCount := purchaseCount
  revenueKrw := purchaseCount * v.salePriceKrw.value
  marginKrw := purchaseCount * v.salePriceKrw.value - purchaseCount * (vatKrw + v.productCostKrw.value +
    v.shippingKrw.value + v.extraCostKrw.value) - spendUsd * rate

variable {db : MetricsDb} {p : String} {v : CostValues} {rate : ℚ}

theorem creativeContext_rule (hid : (db.costRules.map (·.id)).Nodup) {metrics : List AdDailyMetricRow}
    (hp : p ∈ productIds (metrics.map (·.productId))) (d : Int) :
    findEffectiveRuleForDate
      (((creativeFinancialContext db metrics).costRulesByProductId.get p).getD []) d =
        findEffectiveRuleForDate (rulesOf p db.costRules) d := by
  have hne : ¬ metrics.length = 0 := by
    intro h
    rw [length_eq_zero_iff.mp h] at hp
    cases hp
  unfold creativeFinancialContext
  simp only [if_neg hne, if_pos (length_pos_of_mem hp), getD_get_groupBy]
  exact inForce_rulesFor hid hp d

theorem creativeContext_rate {metrics : List AdDailyMetricRow}
    (hd : ∀ row ∈ metrics, ReadsBack row.metricDate) {d : Int} (hm : d ∈ metrics.map (·.metricDate)) :
    (creativeFinancialContext db metrics).exchangeRateByDate.get (formatDateOnly d) = rateAt db d := by
  have hne : ¬ metrics.length = 0 := by
    intro h
    rw [length_eq_zero_iff.mp h] at hm
    cases hm
  have hread : ∀ e ∈ metrics.map (·.metricDate), ReadsBack e := by
    intro e he
    obtain ⟨row, hrow, rfl⟩ := mem_map.mp he
    exact hd row hrow
  unfold creativeFinancialContext
  simp only [if_neg hne, if_pos (length_pos_of_mem ((mem_rateDates hread).mpr hm))]
  exact rate_get db hread hm

/-- A row whose amounts are known. -/
structure PeriodMetricRow.Known (row : PeriodMetricRow) (finances : Finances) : Prop where
  finances : row.finances = finances
  spendKrw : row.spendKrw.isSome = true
  revenueKrw : row.revenueKrw.isSome = true
  marginKrw : row.marginKrw.isSome = true

/-- **A priced row of an ad.** -/
theorem creativePeriodRow_priced (hid : (db.costRules.map (·.id)).Nodup)
    {metrics : List AdDailyMetricRow} (hd : ∀ row ∈ metrics, ReadsBack row.metricDate)
    {row : AdDailyMetricRow} (hrow : row ∈ metrics) (hp : row.productId = some p) (hne : p ≠ "")
    (h : Priced db p row.metricDate v rate) :
    (creativePeriodRow (creativeFinancialContext db metrics) row).Known
      (pricedFinances v v.vatKrw.value rate row.spendUsd.value (adPurchaseCount row)) := by
  obtain ⟨r, hr, rfl⟩ := h.rule
  have htruthy : isTruthy (some p) = true := by simpa [isTruthy] using hne
  have hids : p ∈ productIds (metrics.map (·.productId)) :=
    mem_productIds.mpr ⟨hp ▸ mem_map_of_mem hrow, hne⟩
  have hrule := creativeContext_rule hid hids row.metricDate
  have hrate := @creativeContext_rate db _ hd _ (mem_map_of_mem hrow)
  rw [hr] at hrule
  have hspend : (if row.spendUsd.value = 0 then some 0 else some (row.spendUsd.value * rate)) =
      some (row.spendUsd.value * rate) := by
    split
    · next hzero => rw [hzero, zero_mul]
    · rfl
  have hrevenue : (if adPurchaseCount row = 0 then some 0 else
      some ((adPurchaseCount row : ℚ) * r.values.salePriceKrw.value)) =
        some ((adPurchaseCount row : ℚ) * r.values.salePriceKrw.value) := by
    split
    · next hzero => rw [hzero, Int.cast_zero, zero_mul]
    · rfl
  unfold creativePeriodRow
  simp only [htruthy, if_true, hp, Option.getD_some, hrule, hrate, Option.map_some, h.rate, hspend,
    hrevenue]
  exact ⟨rfl, rfl, rfl, rfl⟩

/-- The purchases of an adset on a day. -/
def purchasesOf (db : MetricsDb) (metaAdsetId : String) (d : Int) : Int :=
  ((db.adMetrics.filter fun row => row.isCurrent && row.metricDate = d &&
    row.metaAdsetRefId = metaAdsetId).map adPurchaseCount).sum

theorem foldFrom_sum {rows : List AdDailyMetricRow} (hne : rows ≠ []) :
    foldFrom (fun _ => 0) (fun count row => count + adPurchaseCount row) none rows =
      some (rows.map adPurchaseCount).sum := by
  have hrun : ∀ (rows : List AdDailyMetricRow) (n : Int),
      rows.foldl (fun count row => count + adPurchaseCount row) n = n + (rows.map adPurchaseCount).sum := by
    intro rows
    induction rows with
    | nil => intro n; simp
    | cons row rest ih =>
      intro n
      rw [foldl_cons, ih, map_cons, sum_cons, add_assoc]
  cases rows with
  | nil => exact absurd rfl hne
  | cons row rest =>
    show some (rest.foldl _ (0 + adPurchaseCount row)) = _
    rw [hrun, zero_add, map_cons, sum_cons]

/-- The corrected count of an adset that has ad rows on a day. -/
theorem correctedCounts_get {metrics : List MetricWithRelations}
    (hd : ∀ m ∈ metrics, ReadsBack m.metricDate) {metric : MetricWithRelations}
    (hm : metric ∈ metrics) (hads : ∃ row ∈ db.adMetrics, row.isCurrent = true ∧
      row.metricDate = metric.metricDate ∧ row.metaAdsetRefId = metric.metaAdsetId) :
    (correctedAdsetPurchaseCounts db metrics).get
        (adsetMetricKey (formatDateOnly metric.metricDate) metric.metaAdsetId) =
      some (purchasesOf db metric.metaAdsetId metric.metricDate) := by
  have hne : ¬ metrics.length = 0 := by
    intro h
    rw [length_eq_zero_iff.mp h] at hm
    cases hm
  have hread : ∀ e ∈ metrics.map (·.metricDate), ReadsBack e := by
    intro e he
    obtain ⟨m, hmem, rfl⟩ := mem_map.mp he
    exact hd m hmem
  unfold correctedAdsetPurchaseCounts
  simp only [if_neg hne]
  rw [get_aggregateBy, filter_filter]
  -- the rows of the key are the rows of the adset and the day
  have hrows : (db.adMetrics.filter fun row =>
      decide (adsetMetricKey (formatDateOnly row.metricDate) row.metaAdsetRefId =
        adsetMetricKey (formatDateOnly metric.metricDate) metric.metaAdsetId) &&
      (row.isCurrent && (rateDates (metrics.map (·.metricDate))).contains row.metricDate &&
        ((metrics.map (·.metaAdsetId)).eraseDups).contains row.metaAdsetRefId)) =
      db.adMetrics.filter fun row => row.isCurrent && decide (row.metricDate = metric.metricDate) &&
        decide (row.metaAdsetRefId = metric.metaAdsetId) := by
    refine filter_congr fun row _ => ?_
    rw [Bool.eq_iff_iff]
    simp only [Bool.and_eq_true, decide_eq_true_eq, contains_iff_mem, mem_rateDates hread,
      mem_eraseDups]
    constructor
    · rintro ⟨hkey, ⟨hc, hdate⟩, -⟩
      obtain ⟨h1, h2⟩ := (adsetMetricKey_inj (hread _ hdate) (hd metric hm)).mp hkey
      exact ⟨⟨hc, h1⟩, h2⟩
    · rintro ⟨⟨hc, h1⟩, h2⟩
      rw [h1, h2]
      exact ⟨rfl, ⟨hc, mem_map_of_mem hm⟩, mem_map_of_mem hm⟩
  rw [hrows]
  refine foldFrom_sum ?_
  obtain ⟨row, hrow, h1, h2, h3⟩ := hads
  refine ne_nil_of_mem (mem_filter.mpr ⟨hrow, ?_⟩)
  rw [h1, h2, h3]
  simp

/-- **A priced row of an adset.** -/
theorem decorate_priced (hid : (db.costRules.map (·.id)).Nodup) {metrics : List MetricWithRelations}
    (hd : ∀ m ∈ metrics, ReadsBack m.metricDate) {metric : MetricWithRelations} (hm : metric ∈ metrics)
    (hp : metric.productId = some p) (hne : p ≠ "") (h : Priced db p metric.metricDate v rate)
    (hads : ∃ row ∈ db.adMetrics, row.isCurrent = true ∧ row.metricDate = metric.metricDate ∧
      row.metaAdsetRefId = metric.metaAdsetId) :
    (decorateAmong db metrics metric).periodRow.finances =
      pricedFinances v (v.salePriceKrw.value * (1 / 10)) rate metric.spendUsd.value
        (purchasesOf db metric.metaAdsetId metric.metricDate) := by
  obtain ⟨r, hr, rfl⟩ := h.rule
  have htruthy : isTruthy (some p) = true := by simpa [isTruthy] using hne
  have hids : p ∈ productIds (metrics.map (·.productId)) :=
    mem_productIds.mpr ⟨hp ▸ mem_map_of_mem hm, hne⟩
  have hread : ∀ e ∈ metrics.map (·.metricDate), ReadsBack e := by
    intro e he
    obtain ⟨m, hmem, rfl⟩ := mem_map.mp he
    exact hd m hmem
  have hrule := inForce_rulesFor hid hids metric.metricDate
  rw [hr] at hrule
  have hrate := rate_get db hread (mem_map_of_mem (f := (·.metricDate)) hm)
  have hcount := @correctedCounts_get db _ hd _ hm hads
  unfold decorateAmong decorateMetric
  simp only [htruthy, hp, Option.some.injEq, hrule, hrate, h.rate, hcount]
  rfl

end AdsManagement.Metrics
