/-
  File:      Metrics/Calculators.lean
  Subject:   THE FIGURES OF META METRICS: margins (margin-calculator.ts), totals of a period
             (period-metric-calculator.ts) and video plays (meta-video-metrics.ts).

  Numbers are exact rationals: a double of the source is taken for the number it stands for.

  * `MarginCalculator.margin` -- revenue less costs less spend;
  * `PeriodMetricCalculator.calculate` -- sums over rows, where a missing amount counts nothing;
  * `finances_calculate` -- the totals are the sums over the rows;
  * `aggregateMetaVideoMetrics` -- plays and their shares of the reach.
-/
import AdsManagement.Common.Decimal
import AdsManagement.Lib.NullableSum

namespace AdsManagement.Metrics

open Common Lib List

def divideOrNull (value : Option ℚ) (denominator : ℚ) : Option ℚ :=
  value.bind fun value => safeDivide value denominator

/-! ## 1. Margins -/

structure CostRuleInput where
  salePriceKrw : ℚ
  vatKrw : ℚ
  productCostKrw : ℚ
  shippingKrw : ℚ
  extraCostKrw : ℚ

structure CpaRuleInput where
  targetRatio : ℚ
  watchRatio : ℚ
  stopRatio : ℚ

structure ProductCpaThresholds where
  contributionBeforeAdsKrw : ℚ
  breakEvenCpaKrw : Option ℚ
  targetCpaKrw : Option ℚ
  watchCpaKrw : Option ℚ
  stopCpaKrw : Option ℚ
deriving DecidableEq

structure MarginMetricInput where
  spendUsd : ℚ
  purchaseCount : Int
  exchangeRateKrwPerUsd : ℚ

structure MarginMetricResult where
  spendKrw : ℚ
  revenueKrw : ℚ
  grossCostKrw : ℚ
  marginKrw : ℚ
  cpaKrw : Option ℚ
  cpaUsd : Option ℚ
  roas : Option ℚ

namespace MarginCalculator

def thresholds (costRule : CostRuleInput) (cpaRule : CpaRuleInput) : ProductCpaThresholds :=
  let contributionBeforeAdsKrw := costRule.salePriceKrw - costRule.vatKrw - costRule.productCostKrw -
    costRule.shippingKrw - costRule.extraCostKrw
  let breakEvenCpaKrw := some contributionBeforeAdsKrw
  { contributionBeforeAdsKrw
    breakEvenCpaKrw
    targetCpaKrw := breakEvenCpaKrw.map (· * cpaRule.targetRatio)
    watchCpaKrw := breakEvenCpaKrw.map (· * cpaRule.watchRatio)
    stopCpaKrw := breakEvenCpaKrw.map (· * cpaRule.stopRatio) }

def margin (input : MarginMetricInput) (costRule : CostRuleInput) : MarginMetricResult :=
  let spendKrw := input.spendUsd * input.exchangeRateKrwPerUsd
  let revenueKrw := input.purchaseCount * costRule.salePriceKrw
  let grossCostKrw := input.purchaseCount *
    (costRule.vatKrw + costRule.productCostKrw + costRule.shippingKrw + costRule.extraCostKrw)
  { spendKrw
    revenueKrw
    grossCostKrw
    marginKrw := revenueKrw - grossCostKrw - spendKrw
    cpaKrw := safeDivide spendKrw input.purchaseCount
    cpaUsd := safeDivide input.spendUsd input.purchaseCount
    roas := safeDivide revenueKrw spendKrw }

end MarginCalculator

/-! ## 2. Periods -/

structure PeriodMetricRow where
  metricDate : String
  spendUsd : ℚ
  spendKrw : Option ℚ
  resultCount : Int
  impressions : Int
  linkClicks : Int
  clicksAll : Int
  landingPageViews : Int
  revenueKrw : Option ℚ
  marginKrw : Option ℚ

structure PeriodMetricResult where
  spendUsd : ℚ
  spendKrw : ℚ
  purchaseCount : Int
  impressions : Int
  linkClicks : Int
  clicksAll : Int
  landingPageViews : Int
  revenueKrw : ℚ
  marginKrw : ℚ
  cpaUsd : Option ℚ
  cpaKrw : Option ℚ
  ctrLinkPct : Option ℚ
  ctrAllPct : Option ℚ
  cpcLinkUsd : Option ℚ
  cpcAllUsd : Option ℚ
  roas : Option ℚ
  dataDays : Nat

/-- `acc += row.amount ?? 0` over the rows. -/
def sumOrZero (rows : List PeriodMetricRow) (amount : PeriodMetricRow → Option ℚ) : ℚ :=
  plainSum (rows.map fun row => (amount row).getD 0)

namespace PeriodMetricCalculator

def calculate (rows : List PeriodMetricRow) : PeriodMetricResult :=
  let spendUsd := plainSum (rows.map (·.spendUsd))
  let spendKrw := sumOrZero rows (·.spendKrw)
  let purchaseCount := plainSum (rows.map (·.resultCount))
  let impressions := plainSum (rows.map (·.impressions))
  let linkClicks := plainSum (rows.map (·.linkClicks))
  let clicksAll := plainSum (rows.map (·.clicksAll))
  let landingPageViews := plainSum (rows.map (·.landingPageViews))
  let revenueKrw := sumOrZero rows (·.revenueKrw)
  let marginKrw := sumOrZero rows (·.marginKrw)
  { spendUsd
    spendKrw
    purchaseCount
    impressions
    linkClicks
    clicksAll
    landingPageViews
    revenueKrw
    marginKrw
    cpaUsd := safeDivide spendUsd purchaseCount
    cpaKrw := safeDivide spendKrw purchaseCount
    ctrLinkPct := safeDivide (linkClicks * 100) impressions
    ctrAllPct := safeDivide (clicksAll * 100) impressions
    cpcLinkUsd := safeDivide spendUsd linkClicks
    cpcAllUsd := safeDivide spendUsd clicksAll
    roas := safeDivide revenueKrw spendKrw
    dataDays := (rows.map (·.metricDate)).eraseDups.length }

end PeriodMetricCalculator

/-- What is summed up over a period: spend, purchases, revenue and margin. -/
@[ext]
structure Finances where
  spendUsd : ℚ
  spendKrw : ℚ
  purchaseCount : Int
  revenueKrw : ℚ
  marginKrw : ℚ

namespace Finances

instance : Add Finances where
  add a b :=
    { spendUsd := a.spendUsd + b.spendUsd
      spendKrw := a.spendKrw + b.spendKrw
      purchaseCount := a.purchaseCount + b.purchaseCount
      revenueKrw := a.revenueKrw + b.revenueKrw
      marginKrw := a.marginKrw + b.marginKrw }

instance : Zero Finances := ⟨⟨0, 0, 0, 0, 0⟩⟩

theorem add_assoc' (a b c : Finances) : a + b + c = a + (b + c) :=
  Finances.ext (add_assoc ..) (add_assoc ..) (add_assoc ..) (add_assoc ..) (add_assoc ..)

theorem add_comm' (a b : Finances) : a + b = b + a :=
  Finances.ext (add_comm ..) (add_comm ..) (add_comm ..) (add_comm ..) (add_comm ..)

theorem zero_add' (a : Finances) : 0 + a = a :=
  Finances.ext (zero_add _) (zero_add _) (zero_add _) (zero_add _) (zero_add _)

instance : AddCommMonoid Finances where
  add_assoc := add_assoc'
  zero_add := zero_add'
  add_zero a := (add_comm' a 0).trans (zero_add' a)
  add_comm := add_comm'
  nsmul := nsmulRec

/-- A field of a sum is the sum of the fields. -/
theorem sum_field {α : Type} [AddCommMonoid α] (field : Finances → α) (hzero : field 0 = 0)
    (hadd : ∀ a b, field (a + b) = field a + field b) (l : List Finances) :
    field l.sum = (l.map field).sum := by
  induction l with
  | nil => exact hzero
  | cons a rest ih => rw [sum_cons, hadd, ih, map_cons, sum_cons]

theorem sum_spendKrw (l : List Finances) : l.sum.spendKrw = (l.map (·.spendKrw)).sum :=
  sum_field _ rfl (fun _ _ => rfl) l

theorem sum_revenueKrw (l : List Finances) : l.sum.revenueKrw = (l.map (·.revenueKrw)).sum :=
  sum_field _ rfl (fun _ _ => rfl) l

theorem sum_marginKrw (l : List Finances) : l.sum.marginKrw = (l.map (·.marginKrw)).sum :=
  sum_field _ rfl (fun _ _ => rfl) l

theorem sum_purchaseCount (l : List Finances) : l.sum.purchaseCount = (l.map (·.purchaseCount)).sum :=
  sum_field _ rfl (fun _ _ => rfl) l

end Finances

def PeriodMetricRow.finances (row : PeriodMetricRow) : Finances where
  spendUsd := row.spendUsd
  spendKrw := row.spendKrw.getD 0
  purchaseCount := row.resultCount
  revenueKrw := row.revenueKrw.getD 0
  marginKrw := row.marginKrw.getD 0

def PeriodMetricResult.finances (totals : PeriodMetricResult) : Finances where
  spendUsd := totals.spendUsd
  spendKrw := totals.spendKrw
  purchaseCount := totals.purchaseCount
  revenueKrw := totals.revenueKrw
  marginKrw := totals.marginKrw

/-- The totals of a period are the sums over its rows. -/
theorem finances_calculate (rows : List PeriodMetricRow) :
    (PeriodMetricCalculator.calculate rows).finances = (rows.map (·.finances)).sum := by
  unfold PeriodMetricCalculator.calculate sumOrZero
  simp only [plainSum_eq_sum]
  induction rows with
  | nil => rfl
  | cons row rest ih =>
    simp only [map_cons, sum_cons]
    rw [← ih]
    rfl

/-! ## 3. Video plays -/

/-- The plays up to a point of the video, and their share of the reach in percent. -/
structure VideoPlays where
  count : Option Int
  ratePct : Option ℚ

structure MetaVideoMetricRow where
  reach : Int
  videoPlay3sCount : Option Int
  videoPlay25Count : Option Int
  videoPlay50Count : Option Int
  videoPlay75Count : Option Int
  videoPlay100Count : Option Int
deriving DecidableEq

structure MetaVideoMetricTotals where
  reach : Int
  videoPlay3s : VideoPlays
  videoPlay25 : VideoPlays
  videoPlay50 : VideoPlays
  videoPlay75 : VideoPlays
  videoPlay100 : VideoPlays

/-- A turn of the loop over `META_VIDEO_PLAY_COLUMNS`: a column is summed when every row that was
    shown to someone has it. -/
def videoPlays (rows : List MetaVideoMetricRow) (column : MetaVideoMetricRow → Option Int) : VideoPlays :=
  let reach := plainSum (rows.map (·.reach))
  let complete := rows ≠ [] ∧ ∀ row ∈ rows, (column row).isSome ∨ row.reach = 0
  let count := if complete then some (plainSum (rows.map fun row => (column row).getD 0)) else none
  { count
    ratePct := count.bind fun count => if reach = 0 then none else some ((count : ℚ) / reach * 100) }

def aggregateMetaVideoMetrics (rows : List MetaVideoMetricRow) : MetaVideoMetricTotals where
  reach := plainSum (rows.map (·.reach))
  videoPlay3s := videoPlays rows (·.videoPlay3sCount)
  videoPlay25 := videoPlays rows (·.videoPlay25Count)
  videoPlay50 := videoPlays rows (·.videoPlay50Count)
  videoPlay75 := videoPlays rows (·.videoPlay75Count)
  videoPlay100 := videoPlays rows (·.videoPlay100Count)

end AdsManagement.Metrics
