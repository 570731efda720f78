/-
  File:      Metrics/UnknownSpend.lean
  Subject:   RATIOS OVER ROWS WITHOUT AMOUNTS (aggregateDecoratedMetrics).

  A row without a product, a rule or a rate has no amount in won. Its spend and revenue count as
  zero in the totals, its purchases count in full: the ratio of revenue to spend stays one of the
  known rows, the cost per purchase does not.

  * `LikeWithLike` -- both ratios are those of the rows with a known spend;
  * `likeWithLike_iff` -- exactly when the purchases of the other rows do not count.
-/
import AdsManagement.Metrics.Decisions

namespace AdsManagement.Metrics

open Common Lib List

/-- The sums of some rows. -/
def sumKrw (rows : List DecoratedMetric) (amount : DecoratedMetric → Option ℚ) : ℚ :=
  (rows.map fun row => (amount row).getD 0).sum

def purchases (rows : List DecoratedMetric) : Int := (rows.map (·.purchaseCount)).sum

def knownRows (rows : List DecoratedMetric) : List DecoratedMetric := rows.filter (·.spendKrw.isSome)

/-- A ratio that is reported is the quotient of two sums over the rows with a known spend. -/
structure LikeWithLike (rows : List DecoratedMetric) : Prop where
  cpaKrw : ∀ cpa, (aggregateDecoratedMetrics rows).totals.cpaKrw = some cpa →
    safeDivide (sumKrw (knownRows rows) (·.spendKrw)) (purchases (knownRows rows)) = some cpa
  roas : ∀ roas, (aggregateDecoratedMetrics rows).totals.roas = some roas →
    safeDivide (sumKrw (knownRows rows) (·.revenueKrw)) (sumKrw (knownRows rows) (·.spendKrw)) = some roas

variable {db : MetricsDb} {among : List MetricWithRelations} {rows : List DecoratedMetric}

theorem cpaKrw_aggregate (rows : List DecoratedMetric) : (aggregateDecoratedMetrics rows).totals.cpaKrw =
    safeDivide (sumKrw rows (·.spendKrw)) (purchases rows) := by
  unfold aggregateDecoratedMetrics PeriodMetricCalculator.calculate sumOrZero
  simp only [plainSum_eq_sum, map_map]
  rfl

theorem roas_aggregate (rows : List DecoratedMetric) : (aggregateDecoratedMetrics rows).totals.roas =
    safeDivide (sumKrw rows (·.revenueKrw)) (sumKrw rows (·.spendKrw)) := by
  unfold aggregateDecoratedMetrics PeriodMetricCalculator.calculate sumOrZero
  simp only [plainSum_eq_sum, map_map]
  rfl

/-- Spend and revenue of a decorated row are known together. -/
theorem revenue_of_spend (metric : MetricWithRelations)
    (h : (decorateAmong db among metric).spendKrw = none) :
    (decorateAmong db among metric).revenueKrw = none := by
  unfold decorateAmong decorateMetric at h ⊢
  dsimp only at h ⊢
  split
  · rfl
  · rename_i hid
    rw [if_neg hid] at h
    split
    · rfl
    · rename_i rule hrule
      simp only [hrule] at h
      split
      · rfl
      · rename_i rate hrate
        simp only [hrate] at h
        cases h

/-- Amounts that unknown rows lack are summed over the known ones. -/
theorem sumKrw_known {amount : DecoratedMetric → Option ℚ}
    (h : ∀ row ∈ rows, row.spendKrw = none → amount row = none) :
    sumKrw (knownRows rows) amount = sumKrw rows amount := by
  unfold sumKrw knownRows
  induction rows with
  | nil => rfl
  | cons row rows ih =>
    have ih := ih fun r hr => h r (mem_cons_of_mem _ hr)
    cases hs : row.spendKrw with
    | none =>
      rw [filter_cons_of_neg (by simp [hs]), ih, map_cons, sum_cons, h row mem_cons_self hs]
      simp
    | some x => rw [filter_cons_of_pos (by simp [hs]), map_cons, sum_cons, ih,
        map_cons, sum_cons]

theorem safeDivide_eq_iff {a : ℚ} {m n : Int} : safeDivide a m = safeDivide a n ↔
    m = n ∨ a = 0 ∧ m ≠ 0 ∧ n ≠ 0 := by
  unfold safeDivide
  by_cases hm : m = 0
  · by_cases hn : n = 0
    · simp [hm, hn]
    · simp [hm, hn, Ne.symm hn]
  · by_cases hn : n = 0
    · simp [hm, hn]
    · have hm' : (m : ℚ) ≠ 0 := Int.cast_ne_zero.mpr hm
      have hn' : (n : ℚ) ≠ 0 := Int.cast_ne_zero.mpr hn
      simp only [Int.cast_eq_zero, hm, hn, if_false, Option.some.injEq, ne_eq, not_false_eq_true, and_true]
      rw [div_eq_div_iff hm' hn', mul_eq_mul_left_iff, Int.cast_inj, eq_comm]

/-- **The ratios compare like with like if and only if** there is no purchase in all, the purchases
    of the rows without a known spend cancel out, or the other rows have purchases and no spend.
    A row without a known spend leaves the cost per purchase as it is if and only if it has no
    purchases, or there is no spend and there are purchases before and after. -/
theorem likeWithLike_iff (db : MetricsDb) (among metrics : List MetricWithRelations) :
    let rows := metrics.map (decorateAmong db among)
    (LikeWithLike rows ↔ purchases rows = 0 ∨ purchases (knownRows rows) = purchases rows ∨
      sumKrw rows (·.spendKrw) = 0 ∧ purchases (knownRows rows) ≠ 0) ∧
    ∀ metric, (decorateAmong db among metric).spendKrw = none →
      ((aggregateDecoratedMetrics (rows ++ [decorateAmong db among metric])).totals.cpaKrw =
          (aggregateDecoratedMetrics rows).totals.cpaKrw ↔
        (decorateAmong db among metric).purchaseCount = 0 ∨ sumKrw rows (·.spendKrw) = 0 ∧
          purchases rows + (decorateAmong db among metric).purchaseCount ≠ 0 ∧ purchases rows ≠ 0) := by
  intro rows
  have hspend : sumKrw (knownRows rows) (·.spendKrw) = sumKrw rows (·.spendKrw) :=
    sumKrw_known fun _ _ h => h
  have hrevenue : sumKrw (knownRows rows) (·.revenueKrw) = sumKrw rows (·.revenueKrw) := by
    refine sumKrw_known fun row hrow h => ?_
    obtain ⟨metric, -, rfl⟩ := mem_map.mp hrow
    exact revenue_of_spend metric h
  constructor
  · by_cases hn : purchases rows = 0
    · refine iff_of_true ⟨fun cpa h => ?_, fun roas h => ?_⟩ (.inl hn)
      · rw [cpaKrw_aggregate, hn] at h
        exact (nomatch h)
      · rw [hspend, hrevenue, ← roas_aggregate]
        exact h
    · have hcpa : safeDivide (sumKrw rows (·.spendKrw)) (purchases rows) =
          some (sumKrw rows (·.spendKrw) / purchases rows) := if_neg (Int.cast_ne_zero.mpr hn)
      have hsame : LikeWithLike rows ↔ safeDivide (sumKrw rows (·.spendKrw)) (purchases (knownRows rows)) =
          safeDivide (sumKrw rows (·.spendKrw)) (purchases rows) := by
        constructor
        · intro h
          have hknown := h.cpaKrw _ ((cpaKrw_aggregate rows).trans hcpa)
          rw [hspend] at hknown
          rw [hknown, hcpa]
        · intro h
          refine ⟨fun cpa hc => ?_, fun roas hr => ?_⟩
          · rw [hspend, h, ← cpaKrw_aggregate]
            exact hc
          · rw [hspend, hrevenue, ← roas_aggregate]
            exact hr
      rw [hsame, safeDivide_eq_iff]
      simp [hn]
  · intro metric h
    rw [cpaKrw_aggregate, cpaKrw_aggregate]
    have hs : sumKrw (rows ++ [decorateAmong db among metric]) (·.spendKrw) = sumKrw rows (·.spendKrw) := by
      simp [sumKrw, h]
    have hp : purchases (rows ++ [decorateAmong db among metric]) =
        purchases rows + (decorateAmong db among metric).purchaseCount := by
      simp [purchases]
    rw [hs, hp, safeDivide_eq_iff, add_eq_left]

/-- The adset of `bandMetric` beside one without a product, with a purchase each: the cost per
    purchase of 5500 won is reported as 2750. -/
theorem unknown_spend_halves :
    let rows := decorate bandDb [bandMetric, { bandMetric with productId := none }]
    (aggregateDecoratedMetrics (rows.take 1)).totals.cpaKrw = some 5500 ∧
      (aggregateDecoratedMetrics rows).totals.cpaKrw = some 2750 ∧
      safeDivide (sumKrw (knownRows rows) (·.spendKrw)) (purchases (knownRows rows)) = some 5500 := by
  decide +kernel

end AdsManagement.Metrics
