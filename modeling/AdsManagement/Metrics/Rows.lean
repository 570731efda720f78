/-
  File:      Metrics/Rows.lean
  Subject:   WHAT THE META VIEWS READ: the rows of ads and adsets with their products, the rules,
             the rates, and the filters of a request (metric-filters.ts).

  Rows have the columns that the views use. A database answers in an order of its own where the
  source leaves it open: names are collated, rates are not ordered.

  * `MetricsDb` -- the tables; `currentAdsetMetrics`, `exchangeRatesOn`, `rulesFor` -- the queries;
  * `parseDeliveryStatusFilter` -- a filter of a request;
  * `adsetMetricKey_inj` -- the key of an adset on a day tells adsets and days apart;
  * `mem_rulesFor`, `rate_get` -- what a query for some products and days knows of one of them.
-/
import AdsManagement.Meta.ProductRuleHistory
import AdsManagement.Metrics.Calculators

namespace AdsManagement.Metrics

open Common Lib List
open Meta (AdStage ProductRule CostValues CpaValues isPurchaseResult
  compareEffectiveRulePriority findEffectiveRuleForDate rulesOf
  ruleRank)

/-! ## 1. Tables -/

structure MetricProduct where
  id : String
  displayName : String
deriving DecidableEq

/-- An adset with the external id of its campaign. -/
structure MetricAdset where
  id : String
  campaignRefId : Option String
  externalCampaignId : Option String
  firstSeenOn : Option Int
  lastSeenOn : Option Int
deriving DecidableEq

/-- The columns that the metrics of both levels have. -/
structure DailyMetricRow where
  isCurrent : Bool
  metricDate : Int
  resultCount : Int
  spendUsd : Scaled 4
  impressions : Int
  linkClicks : Int
  clicksAll : Int
  landingPageViews : Int
  productId : Option String
deriving DecidableEq

structure AdDailyMetricRow extends DailyMetricRow where
  metaAdsetRefId : String
  adDeliveryStatus : Option String
  resultIndicator : Option String
  purchaseCount : Int
  video : MetaVideoMetricRow
deriving DecidableEq

structure AdsetDailyMetric extends DailyMetricRow where
  id : String
  metaAdsetId : String
  adsetName : String
  deliveryStatus : Option String
  stage : AdStage
deriving DecidableEq

structure ExchangeRateRow where
  rateDate : Int
  baseCurrency : String
  quoteCurrency : String
  provider : String
  rate : Scaled 6
deriving DecidableEq

structure DecisionLog where
  periodStart : Int
  periodEnd : Int
  decision : String
  metaAdsetId : Option String

structure MetricsDb where
  products : List MetricProduct
  adsets : List MetricAdset
  adMetrics : List AdDailyMetricRow
  adsetMetrics : List AdsetDailyMetric
  costRules : List (ProductRule CostValues)
  cpaRules : List (ProductRule CpaValues)
  exchangeRates : List ExchangeRateRow
  decisionLogs : List DecisionLog

/-- `orderBy: [{ metricDate: "asc" }, { adsetName: "asc" }, { id: "asc" }]`; the collation of names
    is the database's. -/
structure MetricOrder where
  adsetMetrics : List AdsetDailyMetric → List AdsetDailyMetric
  adsetMetrics_perm : ∀ l, (adsetMetrics l).Perm l

def asStored : MetricOrder := ⟨id, fun _ => List.Perm.refl _⟩

/-- `include: { product: true, metaAdset: true }`. -/
structure MetricWithRelations extends AdsetDailyMetric where
  product : Option MetricProduct
  metaAdset : Option MetricAdset
deriving DecidableEq

def withRelations (db : MetricsDb) (metric : AdsetDailyMetric) : MetricWithRelations where
  toAdsetDailyMetric := metric
  product := metric.productId.bind fun id => db.products.find? fun product => product.id = id
  metaAdset := db.adsets.find? fun adset => adset.id = metric.metaAdsetId

/-! ## 2. Filters -/

inductive DeliveryStatusFilter where
  | active
  | inactive
  | all
deriving DecidableEq

def lowered (text : String) : String := String.ofList (text.toList.map lowerChar)

def parseDeliveryStatusFilter (value : Option String) : Except ApiError DeliveryStatusFilter :=
  if !isTruthy value then .ok .active
  else
    let normalized := lowered (trim (value.getD ""))
    if normalized = "active" then .ok .active
    else if normalized = "inactive" then .ok .inactive
    else if normalized = "all" then .ok .all
    else
      .error
        { code := "INVALID_DELIVERY_STATUS"
          message := "deliveryStatus must be active, inactive, or all." }

/-- `{ equals: filter, mode: "insensitive" }`. -/
def deliveryStatusWhere (filter : DeliveryStatusFilter) (deliveryStatus : Option String) : Bool :=
  match filter with
  | .all => true
  | .active => deliveryStatus.map lowered = some "active"
  | .inactive => deliveryStatus.map lowered = some "inactive"

/-! ## 3. Queries -/

def adPurchaseCount (row : AdDailyMetricRow) : Int :=
  if isPurchaseResult row.resultIndicator then row.resultCount else row.purchaseCount

def adsetMetricKey (metricDate metaAdsetId : String) : String := metricDate ++ ":" ++ metaAdsetId

/-- The current rows of a range of days. -/
def isCurrentBetween (fromDate toDate : Int) (isCurrent : Bool) (metricDate : Int) : Bool :=
  isCurrent && fromDate ≤ metricDate && metricDate ≤ toDate

def currentAdsetMetrics (db : MetricsDb) (order : MetricOrder) (fromDate toDate : Int)
    (deliveryStatus : DeliveryStatusFilter) : List MetricWithRelations :=
  (order.adsetMetrics (db.adsetMetrics.filter fun m =>
    isCurrentBetween fromDate toDate m.isCurrent m.metricDate &&
      deliveryStatusWhere deliveryStatus m.deliveryStatus)).map (withRelations db)

/-- `where: { productId: { in: productIds } }`, the latest start first. -/
def rulesFor {ν : Type} (rules : List (ProductRule ν)) (productIds : List String) :
    List (ProductRule ν) :=
  (rules.filter fun rule => productIds.contains rule.productId).insertionSort
    compareEffectiveRulePriority

def exchangeRatesOn (db : MetricsDb) (rateDates : List Int) : List ExchangeRateRow :=
  db.exchangeRates.filter fun rate => rate.baseCurrency = "USD" && rate.quoteCurrency = "KRW" &&
    rate.provider = "KOREA_EXIM" && rateDates.contains rate.rateDate

/-- `new Map(exchangeRates.map((rate) => [formatDateOnly(rate.rateDate), rate]))`. -/
def rateByDate (exchangeRates : List ExchangeRateRow) : OrderedMap String ExchangeRateRow :=
  OrderedMap.ofList (exchangeRates.map fun rate => (formatDateOnly rate.rateDate, rate))

/-- `Array.from(new Set(metrics.map((metric) => formatDateOnly(metric.metricDate))))`. -/
def metricDates (dates : List Int) : List String := (dates.map formatDateOnly).eraseDups

/-- `metricDates.map((date) => toDateOnly(date)).filter(Boolean)`. -/
def rateDates (dates : List Int) : List Int :=
  (metricDates dates).filterMap fun date => toDateOnly (some date)

/-- `Array.from(new Set(metrics.map((metric) => metric.productId).filter(Boolean)))`. -/
def productIds (ids : List (Option String)) : List String :=
  (ids.filter isTruthy).eraseDups.filterMap id

/-! ## 4. What a query knows of one product and one day -/

theorem adsetMetricKey_inj {d e : Int} (hd : ReadsBack d) (he : ReadsBack e) {a b : String} :
    adsetMetricKey (formatDateOnly d) a = adsetMetricKey (formatDateOnly e) b ↔ d = e ∧ a = b := by
  constructor
  · intro h
    unfold adsetMetricKey at h
    have hl := congrArg String.toList h
    simp only [String.toList_append, append_assoc] at hl
    obtain ⟨h1, h2⟩ := formatDateOnly_append_inj hd he hl
    exact ⟨h1, String.toList_inj.mp (append_cancel_left h2)⟩
  · rintro ⟨rfl, rfl⟩
    rfl

theorem mem_rateDates {dates : List Int} (h : ∀ e ∈ dates, ReadsBack e) {d : Int} :
    d ∈ rateDates dates ↔ d ∈ dates := by
  unfold rateDates
  rw [mem_filterMap]
  constructor
  · rintro ⟨text, htext, ht⟩
    obtain ⟨e, he, rfl⟩ := mem_map.mp (mem_eraseDups.mp htext)
    rw [toDateOnly_formatDateOnly (h e he)] at ht
    rw [← Option.some.inj ht]
    exact he
  · intro hd
    exact ⟨formatDateOnly d, mem_eraseDups.mpr (mem_map_of_mem hd),
      toDateOnly_formatDateOnly (h d hd)⟩

theorem mem_productIds {ids : List (Option String)} {p : String} :
    p ∈ productIds ids ↔ some p ∈ ids ∧ p ≠ "" := by
  unfold productIds
  rw [mem_filterMap]
  constructor
  · rintro ⟨id, hid, rfl⟩
    obtain ⟨hm, ht⟩ := mem_filter.mp (mem_eraseDups.mp hid)
    exact ⟨hm, by simpa [isTruthy] using ht⟩
  · rintro ⟨hm, hne⟩
    refine ⟨some p, mem_eraseDups.mpr (mem_filter.mpr ⟨hm, ?_⟩), rfl⟩
    simpa [isTruthy] using hne

/-- The rate of a day. -/
def rateAt (db : MetricsDb) (d : Int) : Option ExchangeRateRow :=
  (exchangeRatesOn db [d]).getLast?

/-- A query for some days finds the rate of each of them. -/
theorem rate_get (db : MetricsDb) {dates : List Int} (h : ∀ e ∈ dates, ReadsBack e) {d : Int}
    (hd : d ∈ dates) :
    (rateByDate (exchangeRatesOn db (rateDates dates))).get (formatDateOnly d) = rateAt db d := by
  unfold rateByDate
  rw [OrderedMap.get_ofList, filter_map, getLast?_map, Option.map_map]
  have hrates : (exchangeRatesOn db (rateDates dates)).filter
      ((fun p => decide (p.1 = formatDateOnly d)) ∘ fun rate => (formatDateOnly rate.rateDate, rate)) =
        exchangeRatesOn db [d] := by
    unfold exchangeRatesOn
    rw [filter_filter]
    refine filter_congr fun rate _ => ?_
    rw [Bool.eq_iff_iff]
    simp only [Function.comp, Bool.and_eq_true, decide_eq_true_eq, contains_iff_mem,
      mem_rateDates h, mem_singleton]
    constructor
    · rintro ⟨hf, hr, hm⟩
      exact ⟨hr, formatDateOnly_inj (h _ hm) (h d hd) hf⟩
    · rintro ⟨hr, rfl⟩
      exact ⟨rfl, hr, hd⟩
  rw [hrates]
  exact Option.map_id'

/-- The rule in force depends on the rules alone, not on their order. -/
theorem inForce_congr {ν : Type} {l m : List (ProductRule ν)} (hm : ∀ r, r ∈ l ↔ r ∈ m)
    (hid : ∀ r ∈ l, ∀ q ∈ l, r.id = q.id → r = q) (d : Int) :
    findEffectiveRuleForDate l d = findEffectiveRuleForDate m d := by
  have hanti : ∀ r ∈ l, ∀ q ∈ l, compareEffectiveRulePriority r q →
      compareEffectiveRulePriority q r → r = q := by
    intro r hr q hq h1 h2
    have hrank : ruleRank r = ruleRank q := le_antisymm h2 h1
    exact hid r hr q hq (congrArg (fun rank => (ofLex (ofLex rank).2).2) hrank)
  have hf : ∀ r, r ∈ l.filter (fun r => r.effectiveFrom ≤ d && r.effectiveTo.all (d ≤ ·)) ↔
      r ∈ m.filter (fun r => r.effectiveFrom ≤ d && r.effectiveTo.all (d ≤ ·)) := by
    intro r
    rw [mem_filter, mem_filter, hm]
  refine Option.ext fun r => ?_
  unfold findEffectiveRuleForDate
  rw [head?_insertionSort_eq_some_iff _ fun a ha b hb =>
      hanti a (mem_filter.mp ha).1 b (mem_filter.mp hb).1,
    head?_insertionSort_eq_some_iff _ fun a ha b hb =>
      hanti a (mem_filter.mp ((hf a).mpr ha)).1 b (mem_filter.mp ((hf b).mpr hb)).1]
  simp only [hf]

/-- A query for some products finds the rule of each of them. -/
theorem inForce_rulesFor {ν : Type} {rules : List (ProductRule ν)} (hid : (rules.map (·.id)).Nodup)
    {ids : List String} {p : String} (hp : p ∈ ids) (d : Int) :
    findEffectiveRuleForDate ((rulesFor rules ids).filter fun rule => rule.productId = p) d =
      findEffectiveRuleForDate (rulesOf p rules) d := by
  have hmem : ∀ r, r ∈ (rulesFor rules ids).filter (fun rule => rule.productId = p) ↔
      r ∈ rulesOf p rules := by
    intro r
    unfold rulesFor rulesOf
    rw [mem_filter, (perm_insertionSort _ _).mem_iff, mem_filter, mem_filter]
    constructor
    · rintro ⟨⟨hr, -⟩, hrp⟩
      exact ⟨hr, hrp⟩
    · rintro ⟨hr, hrp⟩
      refine ⟨⟨hr, ?_⟩, hrp⟩
      rw [of_decide_eq_true hrp, contains_iff_mem]
      exact hp
  refine inForce_congr hmem (fun r hr q hq hrq => ?_) d
  exact inj_on_of_nodup_map hid (mem_filter.mp ((hmem r).mp hr)).1
    (mem_filter.mp ((hmem q).mp hq)).1 hrq

end AdsManagement.Metrics
