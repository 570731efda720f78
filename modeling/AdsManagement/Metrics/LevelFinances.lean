/-
  File:      Metrics/LevelFinances.lean
  Subject:   CREATIVES AND ADSETS HAVE THE SAME FINANCES, up to the rounding of VAT.

  The adset rows are the sums of the ad rows. Both levels choose the same rule and rate for a
  row and every figure is linear in spend and purchases, so any grouping sums to the same. One
  figure is not the same: a creative takes the VAT column of the rule, which was rounded when the
  rule was written, and an adset takes a tenth of the price.

  * `sum_creatives`, `sum_adsets` -- both levels as sums over the ad rows;
  * `levels_agree_iff` -- spend, revenue and purchases agree always; margins agree over every
    range of days iff the VAT of each day's purchases comes to the same;
  * `levels_differ` -- a price of 100.05 won.
-/
import Mathlib.Data.List.Dedup
import AdsManagement.Meta.ProductRuleWrites
import AdsManagement.Metrics.Decoration

namespace AdsManagement.Metrics

open Common Lib List
open Meta (ProductRule CostValues CpaValues RuleEnv RuleCall runCalls costFamily
  findEffectiveRuleForDate rulesOf)

/-! ## 1. The sums of the two levels -/

/-- The amounts a level is summed up to. -/
structure LevelSums where
  spendKrw : Option ℚ
  revenueKrw : Option ℚ
  marginKrw : Option ℚ
  purchaseCount : Int

/-- `currentAdMetrics` without filters. -/
def currentAdMetrics (db : MetricsDb) (fromDate toDate : Int) : List AdDailyMetricRow :=
  db.adMetrics.filter fun row => isCurrentBetween fromDate toDate row.isCurrent row.metricDate

/-- The sums over creatives, each given by its rows. -/
def creativeSums (db : MetricsDb) (fromDate toDate : Int) (creatives : List (List AdDailyMetricRow)) :
    LevelSums :=
  let context := creativeFinancialContext db (currentAdMetrics db fromDate toDate)
  let totals := creatives.map fun rows => (aggregateCreativeDailyRows rows context).1
  { spendKrw := strictSum (totals.map (·.spendKrw))
    revenueKrw := strictSum (totals.map (·.revenueKrw))
    marginKrw := strictSum (totals.map (·.marginKrw))
    purchaseCount := plainSum (totals.map (·.period.purchaseCount)) }

/-- The sums over adsets. -/
def adsetSums (db : MetricsDb) (order : MetricOrder) (fromDate toDate : Int) : LevelSums :=
  let adsets := (groupBy (·.metric.metaAdsetId) (decoratedMetrics db order fromDate toDate .all)).values
  let totals := adsets.map fun rows => (aggregateDecoratedMetrics rows).totals
  { spendKrw := some (plainSum (totals.map (·.spendKrw)))
    revenueKrw := some (plainSum (totals.map (·.revenueKrw)))
    marginKrw := some (plainSum (totals.map (·.marginKrw)))
    purchaseCount := plainSum (totals.map (·.purchaseCount)) }

/-! ## 2. The tables -/

/-- The current ad rows of an adset on a day. -/
def adsOf (db : MetricsDb) (metricDate : Int) (metaAdsetId : String) : List AdDailyMetricRow :=
  db.adMetrics.filter fun row => row.isCurrent && row.metricDate = metricDate &&
    row.metaAdsetRefId = metaAdsetId

/-- The current adset rows are the sums of the current ad rows, with their common product. -/
structure AdsetsOfAds (db : MetricsDb) : Prop where
  distinct : ((db.adsetMetrics.filter (·.isCurrent)).map fun m => (m.metricDate, m.metaAdsetId)).Nodup
  covers : ∀ row ∈ db.adMetrics, row.isCurrent = true → ∃ m ∈ db.adsetMetrics, m.isCurrent = true ∧
    m.metricDate = row.metricDate ∧ m.metaAdsetId = row.metaAdsetRefId
  summed : ∀ m ∈ db.adsetMetrics, m.isCurrent = true → adsOf db m.metricDate m.metaAdsetId ≠ []
  spendUsd : ∀ m ∈ db.adsetMetrics, m.isCurrent = true →
    m.spendUsd.value = ((adsOf db m.metricDate m.metaAdsetId).map (·.spendUsd.value)).sum
  productId : ∀ m ∈ db.adsetMetrics, m.isCurrent = true →
    ∀ row ∈ adsOf db m.metricDate m.metaAdsetId, row.productId = m.productId

/-- The columns of the rule of a product on a day, with the rate. -/
def figures (db : MetricsDb) (productId : Option String) (d : Int) : Option (CostValues × ℚ) :=
  productId.bind fun p => (findEffectiveRuleForDate (rulesOf p db.costRules) d).bind fun rule =>
    (exchangeRateKrwPerUsd (rateAt db d) rule.values.fxRateKrwPerUsd.value).map fun rate =>
      (rule.values, rate)

/-- Every current ad row has a product, a cost rule and a rate. -/
structure PricedAds (db : MetricsDb) : Prop where
  ids : (db.costRules.map (·.id)).Nodup
  dates : ∀ row ∈ db.adMetrics, row.isCurrent = true → ReadsBack row.metricDate
  product : ∀ row ∈ db.adMetrics, row.isCurrent = true → isTruthy row.productId = true
  priced : ∀ row ∈ db.adMetrics, row.isCurrent = true →
    (figures db row.productId row.metricDate).isSome = true

theorem figures_eq_some {db : MetricsDb} {productId : Option String} {d : Int} {v : CostValues}
    {rate : ℚ} (h : figures db productId d = some (v, rate)) :
    ∃ p, productId = some p ∧ Priced db p d v rate := by
  obtain ⟨p, hp, h⟩ := Option.bind_eq_some_iff.mp h
  obtain ⟨r, hr, h⟩ := Option.bind_eq_some_iff.mp h
  obtain ⟨q, hq, h⟩ := Option.map_eq_some_iff.mp h
  cases h
  exact ⟨p, hp, ⟨r, hr, rfl⟩, hq⟩

/-- What an ad row comes to, under the VAT of a level. -/
def adFinances (db : MetricsDb) (vatKrw : CostValues → ℚ) (row : AdDailyMetricRow) : Finances :=
  match figures db row.productId row.metricDate with
  | some (v, rate) => pricedFinances v (vatKrw v) rate row.spendUsd.value (adPurchaseCount row)
  | none => 0

def storedVat (v : CostValues) : ℚ := v.vatKrw.value

def tenthVat (v : CostValues) : ℚ := v.salePriceKrw.value * (1 / 10)

/-- **What is left of a purchase between the two VATs**, times the purchases. -/
def vatGap (db : MetricsDb) (row : AdDailyMetricRow) : ℚ :=
  match figures db row.productId row.metricDate with
  | some (v, _) => adPurchaseCount row * (storedVat v - tenthVat v)
  | none => 0

variable {db : MetricsDb} {fromDate toDate : Int}
variable {row : AdDailyMetricRow}

theorem mem_currentAdMetrics :
    row ∈ currentAdMetrics db fromDate toDate ↔ row ∈ db.adMetrics ∧ row.isCurrent = true ∧
      fromDate ≤ row.metricDate ∧ row.metricDate ≤ toDate := by
  unfold currentAdMetrics isCurrentBetween
  rw [mem_filter]
  simp only [Bool.and_eq_true, decide_eq_true_eq, and_assoc]

/-! ## 3. Creatives -/

theorem creative_known (hp : PricedAds db) (hrow : row ∈ currentAdMetrics db fromDate toDate) :
    (creativePeriodRow (creativeFinancialContext db (currentAdMetrics db fromDate toDate)) row).Known
      (adFinances db storedVat row) := by
  obtain ⟨hmem, hc, -⟩ := mem_currentAdMetrics.mp hrow
  obtain ⟨⟨v, rate⟩, hfig⟩ := Option.isSome_iff_exists.mp (hp.priced row hmem hc)
  obtain ⟨p, hpid, hpriced⟩ := figures_eq_some hfig
  have hne : p ≠ "" := by
    have htruthy := hp.product row hmem hc
    rw [hpid] at htruthy
    simpa [isTruthy] using htruthy
  unfold adFinances
  rw [hfig]
  refine creativePeriodRow_priced hp.ids (fun r hr => ?_) hrow hpid hne hpriced
  obtain ⟨hm, hcur, -⟩ := mem_currentAdMetrics.mp hr
  exact hp.dates r hm hcur

/-- The totals of one creative. -/
theorem creative_totals (hp : PricedAds db) {rows : List AdDailyMetricRow}
    (hrows : ∀ row ∈ rows, row ∈ currentAdMetrics db fromDate toDate) :
    let totals := (aggregateCreativeDailyRows rows
      (creativeFinancialContext db (currentAdMetrics db fromDate toDate))).1
    let sums := (rows.map (adFinances db storedVat)).sum
    totals.spendKrw = some sums.spendKrw ∧ totals.revenueKrw = some sums.revenueKrw ∧
      totals.marginKrw = some sums.marginKrw ∧ totals.period.purchaseCount = sums.purchaseCount := by
  intro totals sums
  let context := creativeFinancialContext db (currentAdMetrics db fromDate toDate)
  have hknown : ∀ row ∈ rows.map (creativePeriodRow context), row.spendKrw.isNone = false ∧
      row.revenueKrw.isNone = false ∧ row.marginKrw.isNone = false := by
    intro row hrow
    obtain ⟨ad, had, rfl⟩ := mem_map.mp hrow
    have hk := creative_known hp (hrows ad had)
    exact ⟨Option.isNone_eq_false_iff.mpr hk.spendKrw, Option.isNone_eq_false_iff.mpr hk.revenueKrw,
      Option.isNone_eq_false_iff.mpr hk.marginKrw⟩
  have hperiod : (PeriodMetricCalculator.calculate (rows.map (creativePeriodRow context))).finances =
      sums := by
    rw [finances_calculate, map_map]
    exact congrArg sum (map_congr_left fun ad had => (creative_known hp (hrows ad had)).finances)
  have h1 : ((rows.map (creativePeriodRow context)).any
      fun row => decide (0 < row.spendUsd) && row.spendKrw.isNone) = false := by
    rw [any_eq_false]
    intro row hrow
    rw [(hknown row hrow).1, Bool.and_false]
    decide
  have h2 : ((rows.map (creativePeriodRow context)).any
      fun row => decide (0 < row.resultCount) && row.revenueKrw.isNone) = false := by
    rw [any_eq_false]
    intro row hrow
    rw [(hknown row hrow).2.1, Bool.and_false]
    decide
  have h3 : ((rows.map (creativePeriodRow context)).any fun row => row.marginKrw.isNone) = false := by
    rw [any_eq_false]
    intro row hrow
    rw [(hknown row hrow).2.2]
    decide
  refine ⟨?_, ?_, ?_, ?_⟩
  · show (if ((rows.map (creativePeriodRow context)).any
      fun row => decide (0 < row.spendUsd) && row.spendKrw.isNone) = true then _ else _) = _
    rw [h1]
    exact congrArg some (congrArg Finances.spendKrw hperiod)
  · show (if ((rows.map (creativePeriodRow context)).any
      fun row => decide (0 < row.resultCount) && row.revenueKrw.isNone) = true then _ else _) = _
    rw [h2]
    exact congrArg some (congrArg Finances.revenueKrw hperiod)
  · show (if ((rows.map (creativePeriodRow context)).any fun row => row.marginKrw.isNone) = true
      then _ else _) = _
    rw [h3]
    exact congrArg some (congrArg Finances.marginKrw hperiod)
  · exact congrArg Finances.purchaseCount hperiod

/-- The amounts of known finances. -/
def LevelSums.of (finances : Finances) : LevelSums where
  spendKrw := some finances.spendKrw
  revenueKrw := some finances.revenueKrw
  marginKrw := some finances.marginKrw
  purchaseCount := finances.purchaseCount

theorem strictSum_of_eq {ι α : Type} [AddCommMonoid α] {l : List ι} {f : ι → Option α} {g : ι → α}
    (h : ∀ i ∈ l, f i = some (g i)) : strictSum (l.map f) = some (l.map g).sum := by
  rw [map_congr_left h, ← strictSum_map_some, map_map]
  rfl

variable {creatives : List (List AdDailyMetricRow)}

/-- **The creatives sum up the ad rows**, however these are split into creatives. -/
theorem sum_creatives (hp : PricedAds db)
    (hsplit : creatives.flatten.Perm (currentAdMetrics db fromDate toDate)) :
    creativeSums db fromDate toDate creatives =
      .of ((currentAdMetrics db fromDate toDate).map (adFinances db storedVat)).sum := by
  have hrows : ∀ rows ∈ creatives, ∀ row ∈ rows, row ∈ currentAdMetrics db fromDate toDate :=
    fun rows hr row hrow => hsplit.mem_iff.mp (mem_flatten.mpr ⟨rows, hr, hrow⟩)
  have hsum : (creatives.map fun rows => (rows.map (adFinances db storedVat)).sum).sum =
      ((currentAdMetrics db fromDate toDate).map (adFinances db storedVat)).sum := by
    rw [← (hsplit.map _).sum_eq, map_flatten, sum_flatten, map_map]
    rfl
  unfold creativeSums LevelSums.of
  simp only [map_map, plainSum_eq_sum]
  rw [← hsum, Finances.sum_spendKrw, Finances.sum_revenueKrw, Finances.sum_marginKrw,
    Finances.sum_purchaseCount, map_map, map_map, map_map, map_map]
  rw [LevelSums.mk.injEq]
  refine ⟨?_, ?_, ?_, ?_⟩
  · exact strictSum_of_eq fun rows hr => (creative_totals hp (hrows rows hr)).1
  · exact strictSum_of_eq fun rows hr => (creative_totals hp (hrows rows hr)).2.1
  · exact strictSum_of_eq fun rows hr => (creative_totals hp (hrows rows hr)).2.2.1
  · exact congrArg sum
      (map_congr_left fun rows hr => (creative_totals hp (hrows rows hr)).2.2.2)

/-! ## 4. Adsets -/

theorem pricedFinances_add (v : CostValues) (vatKrw rate spend spend' : ℚ) (count count' : Int) :
    pricedFinances v vatKrw rate (spend + spend') (count + count') =
      pricedFinances v vatKrw rate spend count + pricedFinances v vatKrw rate spend' count' := by
  refine Finances.ext rfl ?_ rfl ?_ ?_
  · show (spend + spend') * rate = spend * rate + spend' * rate
    ring
  · show ((count + count' : Int) : ℚ) * v.salePriceKrw.value =
      count * v.salePriceKrw.value + count' * v.salePriceKrw.value
    push_cast
    ring
  · show ((count + count' : Int) : ℚ) * v.salePriceKrw.value - ((count + count' : Int) : ℚ) * _ -
      (spend + spend') * rate = (count * v.salePriceKrw.value - count * _ - spend * rate) +
        (count' * v.salePriceKrw.value - count' * _ - spend' * rate)
    push_cast
    ring

/-- Under one rule and rate the figures of summed rows are the sum of their figures. -/
theorem pricedFinances_sum (v : CostValues) (vatKrw rate : ℚ) (rows : List AdDailyMetricRow) :
    pricedFinances v vatKrw rate (rows.map (·.spendUsd.value)).sum (rows.map adPurchaseCount).sum =
      (rows.map fun row => pricedFinances v vatKrw rate row.spendUsd.value (adPurchaseCount row)).sum := by
  induction rows with
  | nil =>
    refine Finances.ext rfl ?_ rfl ?_ ?_
    · show (0 : ℚ) * rate = 0
      ring
    · show ((0 : Int) : ℚ) * v.salePriceKrw.value = 0
      ring
    · show ((0 : Int) : ℚ) * v.salePriceKrw.value - ((0 : Int) : ℚ) * _ - 0 * rate = 0
      ring
  | cons row rest ih =>
    simp only [map_cons, sum_cons]
    rw [pricedFinances_add, ih]

theorem mem_adsOf {d : Int} {metaAdsetId : String} :
    row ∈ adsOf db d metaAdsetId ↔ row ∈ db.adMetrics ∧ row.isCurrent = true ∧ row.metricDate = d ∧
      row.metaAdsetRefId = metaAdsetId := by
  unfold adsOf
  rw [mem_filter]
  simp only [Bool.and_eq_true, decide_eq_true_eq, and_assoc]

variable {m : AdsetDailyMetric}

/-- The ad rows of an adset have one rule and one rate. -/
theorem adset_figures (ha : AdsetsOfAds db) (hp : PricedAds db) (hm : m ∈ db.adsetMetrics)
    (hc : m.isCurrent = true) :
    ∃ p v rate, m.productId = some p ∧ p ≠ "" ∧ Priced db p m.metricDate v rate ∧
      ReadsBack m.metricDate ∧ (∃ row ∈ db.adMetrics, row.isCurrent = true ∧
        row.metricDate = m.metricDate ∧ row.metaAdsetRefId = m.metaAdsetId) ∧
      ∀ vatKrw, ∀ row ∈ adsOf db m.metricDate m.metaAdsetId, adFinances db vatKrw row =
        pricedFinances v (vatKrw v) rate row.spendUsd.value (adPurchaseCount row) := by
  obtain ⟨ad, had⟩ := exists_mem_of_ne_nil _ (ha.summed m hm hc)
  obtain ⟨hmem, hcur, hd, hid⟩ := mem_adsOf.mp had
  obtain ⟨⟨v, rate⟩, hfig⟩ := Option.isSome_iff_exists.mp (hp.priced ad hmem hcur)
  rw [ha.productId m hm hc ad had, hd] at hfig
  obtain ⟨p, hpid, hpriced⟩ := figures_eq_some hfig
  have hne : p ≠ "" := by
    have htruthy := hp.product ad hmem hcur
    rw [ha.productId m hm hc ad had, hpid] at htruthy
    simpa [isTruthy] using htruthy
  refine ⟨p, v, rate, hpid, hne, hpriced, hd ▸ hp.dates ad hmem hcur, ⟨ad, hmem, hcur, hd, hid⟩, ?_⟩
  intro vatKrw row hrow
  unfold adFinances
  rw [ha.productId m hm hc row hrow, (mem_adsOf.mp hrow).2.2.1, hfig]

/-- The adset rows in the range, as the query finds them. -/
def adsetsBetween (db : MetricsDb) (fromDate toDate : Int) : List AdsetDailyMetric :=
  db.adsetMetrics.filter fun m => isCurrentBetween fromDate toDate m.isCurrent m.metricDate

theorem mem_adsetsBetween : m ∈ adsetsBetween db fromDate toDate ↔
    m ∈ db.adsetMetrics ∧ m.isCurrent = true ∧ fromDate ≤ m.metricDate ∧ m.metricDate ≤ toDate := by
  unfold adsetsBetween isCurrentBetween
  rw [mem_filter]
  simp only [Bool.and_eq_true, decide_eq_true_eq, and_assoc]

theorem currentAdsetMetrics_perm (order : MetricOrder) :
    (currentAdsetMetrics db order fromDate toDate .all).Perm
      ((adsetsBetween db fromDate toDate).map (withRelations db)) := by
  unfold currentAdsetMetrics deliveryStatusWhere
  simp only [Bool.and_true]
  exact (order.adsetMetrics_perm _).map _

/-- The decorated rows come to what the ad rows of their adsets come to. -/
theorem decorated_finances (ha : AdsetsOfAds db) (hp : PricedAds db) (order : MetricOrder) :
    ((decoratedMetrics db order fromDate toDate .all).map (·.periodRow.finances)).sum =
      ((adsetsBetween db fromDate toDate).map fun m =>
        ((adsOf db m.metricDate m.metaAdsetId).map (adFinances db tenthVat)).sum).sum := by
  have hmem : ∀ m ∈ currentAdsetMetrics db order fromDate toDate .all, ∃ a ∈ db.adsetMetrics,
      a.isCurrent = true ∧ withRelations db a = m := by
    intro m hm
    obtain ⟨a, hmem, rfl⟩ := mem_map.mp ((currentAdsetMetrics_perm order).mem_iff.mp hm)
    obtain ⟨hin, hc, -⟩ := mem_adsetsBetween.mp hmem
    exact ⟨a, hin, hc, rfl⟩
  have hdates : ∀ m ∈ currentAdsetMetrics db order fromDate toDate .all, ReadsBack m.metricDate := by
    intro m hm
    obtain ⟨a, hin, hc, rfl⟩ := hmem m hm
    obtain ⟨_, _, _, -, -, -, hd, -⟩ := adset_figures ha hp hin hc
    exact hd
  have hrow : ∀ m ∈ currentAdsetMetrics db order fromDate toDate .all,
      (decorateAmong db (currentAdsetMetrics db order fromDate toDate .all) m).periodRow.finances =
        ((adsOf db m.metricDate m.metaAdsetId).map (adFinances db tenthVat)).sum := by
    intro m hm
    obtain ⟨a, hin, hc, rfl⟩ := hmem m hm
    obtain ⟨p, v, rate, hpid, hne, hpriced, -, hads, hsame⟩ := adset_figures ha hp hin hc
    rw [decorate_priced hp.ids hdates hm hpid hne hpriced hads]
    show pricedFinances v _ rate a.spendUsd.value _ =
      ((adsOf db a.metricDate a.metaAdsetId).map (adFinances db tenthVat)).sum
    rw [map_congr_left (hsame tenthVat), ha.spendUsd a hin hc]
    exact pricedFinances_sum v _ rate (adsOf db a.metricDate a.metaAdsetId)
  unfold decoratedMetrics decorate
  rw [map_map]
  refine (congrArg sum (map_congr_left hrow)).trans ?_
  rw [((currentAdsetMetrics_perm order).map _).sum_eq, map_map]
  rfl

/-- The ad rows of a range are those of its adsets. -/
theorem sum_over_adsets (ha : AdsetsOfAds db) {μ : Type} [AddCommMonoid μ] (f : AdDailyMetricRow → μ) :
    ((adsetsBetween db fromDate toDate).map fun m => ((adsOf db m.metricDate m.metaAdsetId).map f).sum).sum =
      ((currentAdMetrics db fromDate toDate).map f).sum := by
  have hnd : ((adsetsBetween db fromDate toDate).map fun m => (m.metricDate, m.metaAdsetId)).Nodup := by
    refine ha.distinct.sublist (Sublist.map _ ?_)
    refine monotone_filter_right _ fun m hm => ?_
    unfold isCurrentBetween at hm
    simp only [Bool.and_eq_true] at hm
    exact hm.1.1
  have hkeys : ∀ row ∈ currentAdMetrics db fromDate toDate, (row.metricDate, row.metaAdsetRefId) ∈
      (adsetsBetween db fromDate toDate).map fun m => (m.metricDate, m.metaAdsetId) := by
    intro row hrow
    obtain ⟨hin, hc, h1, h2⟩ := mem_currentAdMetrics.mp hrow
    obtain ⟨m, hm, hmc, hd, hid⟩ := ha.covers row hin hc
    refine mem_map.mpr ⟨m, mem_adsetsBetween.mpr ⟨hm, hmc, ?_, ?_⟩, ?_⟩
    · rw [hd]
      exact h1
    · rw [hd]
      exact h2
    · rw [hd, hid]
  rw [← sum_rows_of_keys hnd (fun row : AdDailyMetricRow => (row.metricDate, row.metaAdsetRefId)) f hkeys,
    map_map]
  refine congrArg sum (map_congr_left fun m hm => ?_)
  obtain ⟨-, -, h1, h2⟩ := mem_adsetsBetween.mp hm
  refine congrArg sum (congrArg (map f) ?_)
  unfold currentAdMetrics isCurrentBetween
  rw [filter_filter]
  refine filter_congr fun row _ => ?_
  rw [Bool.eq_iff_iff]
  simp only [Bool.and_eq_true, decide_eq_true_eq, Prod.mk.injEq]
  constructor
  · rintro ⟨⟨hc, hd⟩, hid⟩
    rw [hd]
    exact ⟨⟨rfl, hid⟩, ⟨hc, h1⟩, h2⟩
  · rintro ⟨⟨hd, hid⟩, ⟨hc, -⟩, -⟩
    exact ⟨⟨hc, hd⟩, hid⟩

/-- **The adsets sum up the ad rows.** -/
theorem sum_adsets (ha : AdsetsOfAds db) (hp : PricedAds db) (order : MetricOrder) :
    adsetSums db order fromDate toDate =
      .of ((currentAdMetrics db fromDate toDate).map (adFinances db tenthVat)).sum := by
  have hsum : (((groupBy (·.metric.metaAdsetId) (decoratedMetrics db order fromDate toDate .all)).values.map
      fun rows => (aggregateDecoratedMetrics rows).totals.finances)).sum =
        ((currentAdMetrics db fromDate toDate).map (adFinances db tenthVat)).sum := by
    rw [← sum_over_adsets ha, ← decorated_finances ha hp order]
    exact finances_groups (·.metric.metaAdsetId) _
  unfold adsetSums LevelSums.of
  simp only [map_map, plainSum_eq_sum]
  rw [← hsum, Finances.sum_spendKrw, Finances.sum_revenueKrw, Finances.sum_marginKrw,
    Finances.sum_purchaseCount, map_map, map_map, map_map, map_map]
  rfl

/-! ## 5. The gap -/

/-- The two VATs leave all figures but the margin as they are. -/
theorem sum_finances_gap (rows : List AdDailyMetricRow) :
    let stored := (rows.map (adFinances db storedVat)).sum
    let tenth := (rows.map (adFinances db tenthVat)).sum
    stored.spendKrw = tenth.spendKrw ∧ stored.revenueKrw = tenth.revenueKrw ∧
      stored.purchaseCount = tenth.purchaseCount ∧
      stored.marginKrw = tenth.marginKrw - (rows.map (vatGap db)).sum := by
  induction rows with
  | nil => exact ⟨rfl, rfl, rfl, (sub_zero (0 : ℚ)).symm⟩
  | cons row rest ih =>
    obtain ⟨h1, h2, h3, h4⟩ := ih
    have hrow : (adFinances db storedVat row).spendKrw = (adFinances db tenthVat row).spendKrw ∧
        (adFinances db storedVat row).revenueKrw = (adFinances db tenthVat row).revenueKrw ∧
        (adFinances db storedVat row).purchaseCount = (adFinances db tenthVat row).purchaseCount ∧
        (adFinances db storedVat row).marginKrw =
          (adFinances db tenthVat row).marginKrw - vatGap db row := by
      unfold adFinances vatGap
      split
      · refine ⟨rfl, rfl, rfl, ?_⟩
        unfold pricedFinances
        ring
      · exact ⟨rfl, rfl, rfl, (sub_zero (0 : ℚ)).symm⟩
    obtain ⟨r1, r2, r3, r4⟩ := hrow
    refine ⟨congrArg₂ (· + ·) r1 h1, congrArg₂ (· + ·) r2 h2, congrArg₂ (· + ·) r3 h3, ?_⟩
    show (adFinances db storedVat row).marginKrw + ((rest.map (adFinances db storedVat)).sum).marginKrw =
      (adFinances db tenthVat row).marginKrw + ((rest.map (adFinances db tenthVat)).sum).marginKrw -
        ((row :: rest).map (vatGap db)).sum
    rw [r4, h4, map_cons, sum_cons]
    ring

/-- What the VATs of the purchases of a day differ by. -/
def dayGap (db : MetricsDb) (d : Int) : ℚ := ((currentAdMetrics db d d).map (vatGap db)).sum

/-- Without a gap on any day there is none over a range. -/
theorem rangeGap_eq_zero (h : ∀ d, dayGap db d = 0) (fromDate toDate : Int) :
    ((currentAdMetrics db fromDate toDate).map (vatGap db)).sum = 0 := by
  have hdays : (((currentAdMetrics db fromDate toDate).map (·.metricDate)).dedup).Nodup :=
    nodup_dedup _
  rw [← sum_rows_of_keys hdays (fun row : AdDailyMetricRow => row.metricDate) (vatGap db)
    fun row hrow => mem_dedup.mpr (mem_map_of_mem hrow)]
  refine sum_eq_zero fun x hx => ?_
  obtain ⟨d, hd, rfl⟩ := mem_map.mp hx
  obtain ⟨row, hrow, rfl⟩ := mem_map.mp (mem_dedup.mp hd)
  obtain ⟨-, -, h1, h2⟩ := mem_currentAdMetrics.mp hrow
  rw [← h row.metricDate]
  unfold dayGap currentAdMetrics isCurrentBetween
  rw [filter_filter]
  refine congrArg sum (congrArg (map _) (filter_congr fun r _ => ?_))
  rw [Bool.eq_iff_iff]
  simp only [Bool.and_eq_true, decide_eq_true_eq]
  constructor
  · rintro ⟨hd, ⟨hc, -⟩, -⟩
    rw [hd]
    exact ⟨⟨hc, le_refl _⟩, le_refl _⟩
  · rintro ⟨⟨hc, h3⟩, h4⟩
    have hd := le_antisymm h4 h3
    rw [hd]
    exact ⟨rfl, ⟨hc, h1⟩, h2⟩

/-- Over every range of days and every split into creatives the two levels have the same sums. -/
def LevelsAgree (db : MetricsDb) (order : MetricOrder) : Prop :=
  ∀ (fromDate toDate : Int) (creatives : List (List AdDailyMetricRow)),
    creatives.flatten.Perm (currentAdMetrics db fromDate toDate) →
    creativeSums db fromDate toDate creatives = adsetSums db order fromDate toDate

/-- The levels have the same spend, revenue and purchases. -/
theorem levels_agree_but_margin (ha : AdsetsOfAds db) (hp : PricedAds db) (order : MetricOrder)
    (hsplit : creatives.flatten.Perm (currentAdMetrics db fromDate toDate)) :
    (creativeSums db fromDate toDate creatives).spendKrw = (adsetSums db order fromDate toDate).spendKrw ∧
      (creativeSums db fromDate toDate creatives).revenueKrw =
        (adsetSums db order fromDate toDate).revenueKrw ∧
      (creativeSums db fromDate toDate creatives).purchaseCount =
        (adsetSums db order fromDate toDate).purchaseCount := by
  rw [sum_creatives hp hsplit, sum_adsets ha hp order]
  obtain ⟨h1, h2, h3, -⟩ := @sum_finances_gap db (currentAdMetrics db fromDate toDate)
  exact ⟨congrArg some h1, congrArg some h2, h3⟩

/-- **The two levels agree exactly when the VATs of each day's purchases do.** -/
theorem levels_agree_iff (ha : AdsetsOfAds db) (hp : PricedAds db) (order : MetricOrder) :
    LevelsAgree db order ↔ ∀ d, dayGap db d = 0 := by
  have hgap : ∀ (fromDate toDate : Int) (creatives : List (List AdDailyMetricRow)),
      creatives.flatten.Perm (currentAdMetrics db fromDate toDate) →
      (creativeSums db fromDate toDate creatives = adsetSums db order fromDate toDate ↔
        ((currentAdMetrics db fromDate toDate).map (vatGap db)).sum = 0) := by
    intro fromDate toDate creatives hsplit
    rw [sum_creatives hp hsplit, sum_adsets ha hp order]
    obtain ⟨h1, h2, h3, h4⟩ := @sum_finances_gap db (currentAdMetrics db fromDate toDate)
    unfold LevelSums.of
    rw [LevelSums.mk.injEq, h1, h2, h3, h4]
    simp only [Option.some.injEq, true_and, and_true, sub_eq_self]
  constructor
  · intro h d
    exact (hgap d d [currentAdMetrics db d d] (by simp)).mp (h d d _ (by simp))
  · intro h fromDate toDate creatives hsplit
    exact (hgap fromDate toDate creatives hsplit).mpr (rangeGap_eq_zero h fromDate toDate)

/-! ## 6. A price of 100.05 won -/

/-- The service writes a price of 100.05 won, with a VAT of 10.01 won. -/
def centsCall : RuleEnv × RuleCall :=
  ({ products := [{ id := "p", isActive := true }], latestRate := none, id := "rule", createdAt := 0 },
    .save "p" [("effectiveFrom", .str "2026-01-01"), ("salePriceKrw", .str "100.05"),
      ("productCostKrw", .str "0"), ("shippingKrw", .str "0"), ("extraCostKrw", .str "0")])

def centsDay : Int := daysFromCivil 2026 1 2

/-- One purchase for one dollar. -/
def centsAd : AdDailyMetricRow where
  isCurrent := true
  metricDate := centsDay
  metaAdsetRefId := "adset"
  adDeliveryStatus := some "active"
  resultIndicator := some "actions:purchase"
  resultCount := 1
  purchaseCount := 1
  video := ⟨100, none, none, none, none, none⟩
  spendUsd := ⟨10000⟩
  impressions := 200
  linkClicks := 10
  clicksAll := 20
  landingPageViews := 5
  productId := some "p"

def centsAdset : AdsetDailyMetric where
  id := "metric"
  isCurrent := true
  metricDate := centsDay
  metaAdsetId := "adset"
  adsetName := "adset"
  deliveryStatus := some "active"
  resultCount := 1
  spendUsd := ⟨10000⟩
  impressions := 200
  linkClicks := 10
  clicksAll := 20
  landingPageViews := 5
  productId := some "p"
  stage := .UNKNOWN

def centsDb : MetricsDb where
  products := [{ id := "p", displayName := "P" }]
  adsets := []
  adMetrics := [centsAd]
  adsetMetrics := [centsAdset]
  costRules := runCalls costFamily [centsCall]
  cpaRules := []
  exchangeRates := [{ rateDate := centsDay, baseCurrency := "USD", quoteCurrency := "KRW"
                      provider := "KOREA_EXIM", rate := ⟨1000000⟩ }]
  decisionLogs := []

theorem centsDb_adsets : AdsetsOfAds centsDb where
  distinct := by decide
  covers := by decide
  summed := by decide
  spendUsd := by decide +kernel
  productId := by decide

theorem centsDb_priced : PricedAds centsDb where
  ids := by decide +kernel
  dates row hrow _ := by
    rw [mem_singleton.mp hrow]
    unfold ReadsBack
    decide
  product := by decide
  priced := by decide +kernel

theorem levels_agree_iff_cents : LevelsAgree centsDb asStored ↔ ∀ d, dayGap centsDb d = 0 :=
  levels_agree_iff centsDb_adsets centsDb_priced asStored

/-- The creative has a margin of 89.04 won and its adset one of 89.045. -/
theorem levels_differ : ¬ LevelsAgree centsDb asStored ∧
    (creativeSums centsDb centsDay centsDay [[centsAd]]).marginKrw = some (8904 / 100) ∧
    (adsetSums centsDb asStored centsDay centsDay).marginKrw = some (89045 / 1000) := by
  have hcreative : (creativeSums centsDb centsDay centsDay [[centsAd]]).marginKrw = some (8904 / 100) := by
    decide +kernel
  have hadset : (adsetSums centsDb asStored centsDay centsDay).marginKrw = some (89045 / 1000) := by
    decide +kernel
  refine ⟨fun h => ?_, hcreative, hadset⟩
  have hsame := congrArg LevelSums.marginKrw (h centsDay centsDay [[centsAd]] (by decide))
  rw [hcreative, hadset] at hsame
  have hne : (8904 / 100 : ℚ) ≠ 89045 / 1000 := by norm_num
  exact hne (Option.some.inj hsame)

/-- A second ad beside it, of another creative, with two purchases. -/
def secondAd : AdDailyMetricRow :=
  { centsAd with resultCount := 2, purchaseCount := 2, spendUsd := ⟨25000⟩, impressions := 300 }

def twoAdsDb : MetricsDb :=
  { centsDb with
    adMetrics := [centsAd, secondAd]
    adsetMetrics := [{ centsAdset with resultCount := 3, spendUsd := ⟨35000⟩, impressions := 500 }] }

theorem twoAdsDb_adsets : AdsetsOfAds twoAdsDb where
  distinct := by decide
  covers := by decide
  summed := by decide
  spendUsd := by decide +kernel
  productId := by decide

theorem twoAdsDb_priced : PricedAds twoAdsDb where
  ids := centsDb_priced.ids
  dates row hrow _ := by
    have hday : ∀ row ∈ twoAdsDb.adMetrics, row.metricDate = centsDay := by decide
    rw [hday row hrow]
    unfold ReadsBack
    decide
  product := by decide
  priced := by decide +kernel

theorem levels_agree_but_margin_cents :
    (creativeSums twoAdsDb centsDay centsDay [[secondAd], [centsAd]]).revenueKrw =
      (adsetSums twoAdsDb asStored centsDay centsDay).revenueKrw := by
  have hsplit : [[secondAd], [centsAd]].flatten.Perm (currentAdMetrics twoAdsDb centsDay centsDay) :=
    .swap centsAd secondAd []
  exact (levels_agree_but_margin twoAdsDb_adsets twoAdsDb_priced asStored hsplit).2.1

end AdsManagement.Metrics
