/-
  File:      Metrics/Decisions.lean
  Subject:   WHAT A PERIOD IS ADVISED: the classifier (decision-classifier.ts) and the calls that a
             run of decisions makes for products and adsets (decisions.service.ts).

  The bands of the CPA and the sign of the margin come from the same purchases and spend: with
  `n` purchases and a contribution of `c` each, the margin is `n * c` less the spend, so it is
  negative as soon as the CPA exceeds `c`, the break-even CPA. The band between break-even and
  watch asks for a margin that is not negative, and stays without a decision.

  * `DecisionClassifier.classify`, `productDecisions`, `adsetDecisions` -- the advice;
  * `BandsCovered` -- each band has its decision;
  * `bands_covered_iff` -- it has, if and only if the CPA is not in the band of `WATCH`.
-/
import AdsManagement.Metrics.Views

namespace AdsManagement.Metrics

open Common Lib List
open Meta (AdStage ProductRule CostValues CpaValues)

/-! ## 1. The classifier -/

inductive DecisionType where
  | SCALE
  | KEEP
  | WATCH
  | STOP_CANDIDATE
  | SC_TO_CBO
  | CBO_TO_ASC
  | SC_TO_ASC
  | ASC_TO_SC
  | PROFIT
  | LOSS
deriving DecidableEq

inductive ScopeType where
  | OVERALL
  | PRODUCT
  | ADSET
  | STAGE
deriving DecidableEq

structure DecisionSettings where
  goodCtrLinkPct : ℚ
  goodLandingPageViewCount : ℚ

structure DecisionInput extends DecisionSettings where
  scopeType : ScopeType
  stage : AdStage
  purchaseCount : Int
  spendKrw : ℚ
  cpaKrw : Option ℚ
  marginKrw : Option ℚ
  dataDays : Nat
  ctrLinkPct : Option ℚ
  landingPageViews : Int
  breakEvenCpaKrw : Option ℚ
  targetCpaKrw : Option ℚ
  watchCpaKrw : Option ℚ
  stopCpaKrw : Option ℚ

structure ClassifiedDecision where
  decision : DecisionType
  severity : Nat
  reason : String
  recommendedAction : String

/-- `a !== null && b !== null && a <= b`. -/
def atMost (a b : Option ℚ) : Bool := a.any fun a => b.any (a ≤ ·)

/-- `a !== null && b !== null && a > b`. -/
def above (a b : Option ℚ) : Bool := a.any fun a => b.any (· < a)

/-- `if (condition) decisions.push(decision)`. -/
def pushIf (condition : Bool) (decision : ClassifiedDecision) : List ClassifiedDecision :=
  if condition then [decision] else []

namespace DecisionClassifier

section

variable (input : DecisionInput)

/-- The bands of the CPA: at most one of them is pushed. -/
def bandDecisions : List ClassifiedDecision :=
  if input.targetCpaKrw.isSome && input.cpaKrw.isSome && 0 < input.purchaseCount &&
      input.marginKrw.isSome then
    if atMost input.cpaKrw input.targetCpaKrw && input.marginKrw.any (0 < ·) then
      [{ decision := .SCALE
         severity := 1
         reason := "구매가 있고 CPA가 목표 CPA 이내이며 마진이 양수입니다."
         recommendedAction := "예산 증액 후보로 검토하세요." }]
    else if above input.cpaKrw input.targetCpaKrw && atMost input.cpaKrw input.breakEvenCpaKrw &&
        input.marginKrw.any (0 ≤ ·) then
      [{ decision := .KEEP
         severity := 1
         reason := "구매가 있고 CPA가 손익분기 CPA 이내이며 마진이 음수가 아닙니다."
         recommendedAction := "현재 운영을 유지하며 추이를 관찰하세요." }]
    else pushIf (above input.cpaKrw input.breakEvenCpaKrw && atMost input.cpaKrw input.watchCpaKrw &&
        input.marginKrw.any (0 ≤ ·))
      { decision := .WATCH
        severity := 2
        reason := "구매가 있지만 CPA가 손익분기 CPA를 넘어 관찰 CPA 범위에 있습니다."
        recommendedAction := "소재와 타겟을 점검하고 다음 데이터 일자에서 재평가하세요." }
  else []

def profitDecisions : List ClassifiedDecision :=
  if input.scopeType = .OVERALL || input.scopeType = .PRODUCT then
    match input.marginKrw with
    | none => []
    | some margin =>
      if 0 < margin then
        [{ decision := .PROFIT
           severity := 1
           reason := "선택 기간 마진이 0보다 큽니다."
           recommendedAction := "현재 수익 구조를 유지하며 확장 후보를 검토하세요." }]
      else
        [{ decision := .LOSS
           severity := 3
           reason := "선택 기간 마진이 0보다 작습니다."
           recommendedAction := "원가 기준과 광고 지출을 함께 점검하세요." }]
  else []

def stopDecisions : List ClassifiedDecision :=
  let stopByNoPurchase := input.purchaseCount = 0 && input.stopCpaKrw.any (· ≤ input.spendKrw)
  let stopByCpa := 0 < input.purchaseCount && above input.cpaKrw input.stopCpaKrw
  let stopByMargin := input.marginKrw.any (· < 0) && 2 ≤ input.dataDays
  pushIf (stopByNoPurchase || stopByCpa || stopByMargin)
    { decision := .STOP_CANDIDATE
      severity := 3
      reason := "중단 후보 조건에 도달했습니다."
      recommendedAction := "중단 또는 예산 축소 후보로 변경 로그에 기록하세요." }

/-- What the stage of the ads adds. -/
def stageDecisions : List ClassifiedDecision :=
  pushIf (input.stage = .SC && 1 ≤ input.purchaseCount && atMost input.cpaKrw input.breakEvenCpaKrw)
    { decision := .SC_TO_CBO
      severity := 1
      reason := "SC 단계에서 구매가 있고 CPA가 손익분기 CPA 이내입니다."
      recommendedAction := "CBO 전환 후보로 검토하세요." } ++
  pushIf (input.stage = .SC && 2 ≤ input.purchaseCount && atMost input.cpaKrw input.targetCpaKrw &&
      0 < input.marginKrw.getD 0)
    { decision := .SC_TO_ASC
      severity := 1
      reason := "SC 단계에서 구매 2건 이상, 목표 CPA 이내, 양수 마진입니다."
      recommendedAction := "ASC 전환 후보로 검토하세요." } ++
  pushIf (input.stage = .CBO && 2 ≤ input.dataDays && 2 ≤ input.purchaseCount &&
      atMost input.cpaKrw input.breakEvenCpaKrw && 0 < input.marginKrw.getD 0)
    { decision := .CBO_TO_ASC
      severity := 1
      reason := "CBO 단계에서 2일 이상 데이터, 구매 2건 이상, 손익분기 CPA 이내, 양수 마진입니다."
      recommendedAction := "ASC 전환 후보로 검토하세요." } ++
  pushIf (input.stage = .ASC && 2 ≤ input.dataDays &&
      (above input.cpaKrw input.stopCpaKrw || input.marginKrw.getD 0 < 0))
    { decision := .ASC_TO_SC
      severity := 3
      reason := "ASC 단계에서 CPA 급등 또는 마진 악화가 확인되었습니다."
      recommendedAction := "SC 재테스트 또는 구조 변경 후보로 검토하세요." }

def classify : List ClassifiedDecision :=
  profitDecisions input ++ bandDecisions input ++
  pushIf (input.stage = .SC && input.purchaseCount = 0 && input.stopCpaKrw.any (input.spendKrw < ·) &&
      (input.goodCtrLinkPct ≤ input.ctrLinkPct.getD 0 ||
        input.goodLandingPageViewCount ≤ input.landingPageViews))
    { decision := .WATCH
      severity := 2
      reason := "SC 단계에서 구매는 없지만 지출이 중단 후보 CPA 미만이고 클릭/랜딩 신호가 있습니다."
      recommendedAction := "테스트를 유지하고 다음 데이터 일자에서 재평가하세요." } ++
  stopDecisions input ++ stageDecisions input

end

end DecisionClassifier

/-! ## 2. The calls of a run -/

/-- What the classifier is asked about a period with thresholds. -/
def decisionInput (settings : DecisionSettings) (scopeType : ScopeType) (stage : AdStage)
    (totals : PeriodMetricResult) (dataDays : Nat) (thresholds : ProductCpaThresholds) : DecisionInput where
  toDecisionSettings := settings
  scopeType := scopeType
  stage := stage
  purchaseCount := totals.purchaseCount
  spendKrw := totals.spendKrw
  cpaKrw := totals.cpaKrw
  marginKrw := some totals.marginKrw
  dataDays := dataDays
  ctrLinkPct := totals.ctrLinkPct
  landingPageViews := totals.landingPageViews
  breakEvenCpaKrw := thresholds.breakEvenCpaKrw
  targetCpaKrw := thresholds.targetCpaKrw
  watchCpaKrw := thresholds.watchCpaKrw
  stopCpaKrw := thresholds.stopCpaKrw

def productDecisions (settings : DecisionSettings) (product : ProductMetrics) : List ClassifiedDecision :=
  match product.thresholds with
  | none =>
    [{ decision := .WATCH
       severity := 2
       reason := "제품 원가/CPA 기준이 설정되지 않아 판정을 보류합니다."
       recommendedAction := "Product Settings에서 원가 rule과 CPA rule을 입력하세요." }]
  | some thresholds => DecisionClassifier.classify
      (decisionInput settings .PRODUCT .UNKNOWN product.totals product.dataDays thresholds)

def adsetDecisions (settings : DecisionSettings) (adset : AdsetMetrics) : List ClassifiedDecision :=
  match adset.thresholds with
  | none =>
    [{ decision := .WATCH
       severity := 2
       reason := "광고세트의 제품 매칭 또는 기준 설정이 없어 판정을 보류합니다."
       recommendedAction := "Mappings 또는 Product Settings에서 기준을 보완하세요." }]
  | some thresholds => DecisionClassifier.classify
      (decisionInput settings .ADSET adset.stage adset.totals adset.dataDays thresholds)

/-! ## 3. The bands -/

/-- The bands of a period: its CPA and margin, and the thresholds. -/
structure Bands where
  cpaKrw : ℚ
  marginKrw : ℚ
  targetCpaKrw : ℚ
  breakEvenCpaKrw : ℚ
  watchCpaKrw : ℚ
  stopCpaKrw : ℚ

def Emits (decision : DecisionType) (decisions : List ClassifiedDecision) : Prop :=
  decision ∈ decisions.map (·.decision)

structure BandsCovered (b : Bands) (decisions : List ClassifiedDecision) : Prop where
  scale : b.cpaKrw ≤ b.targetCpaKrw → 0 < b.marginKrw → Emits .SCALE decisions
  keep : b.targetCpaKrw < b.cpaKrw → b.cpaKrw ≤ b.breakEvenCpaKrw → Emits .KEEP decisions
  watch : b.breakEvenCpaKrw < b.cpaKrw → b.cpaKrw ≤ b.watchCpaKrw → Emits .WATCH decisions
  stop : b.stopCpaKrw < b.cpaKrw → Emits .STOP_CANDIDATE decisions
  apart : Emits .STOP_CANDIDATE decisions → ¬ Emits .SCALE decisions ∧ ¬ Emits .KEEP decisions

/-- The input asks about these bands. -/
structure DecisionInput.Asks (input : DecisionInput) (b : Bands) : Prop where
  purchases : 0 < input.purchaseCount
  cpaKrw : input.cpaKrw = some b.cpaKrw
  marginKrw : input.marginKrw = some b.marginKrw
  targetCpaKrw : input.targetCpaKrw = some b.targetCpaKrw
  breakEvenCpaKrw : input.breakEvenCpaKrw = some b.breakEvenCpaKrw
  watchCpaKrw : input.watchCpaKrw = some b.watchCpaKrw
  stopCpaKrw : input.stopCpaKrw = some b.stopCpaKrw

/-- How the bands of a period lie: the thresholds in order, and the margin on the side of
    break-even that the CPA is on. -/
structure Bands.Ordered (b : Bands) : Prop where
  target : b.targetCpaKrw ≤ b.breakEvenCpaKrw
  watch : b.breakEvenCpaKrw ≤ b.watchCpaKrw
  stop : b.watchCpaKrw ≤ b.stopCpaKrw
  margin : 0 ≤ b.marginKrw ↔ b.cpaKrw ≤ b.breakEvenCpaKrw

namespace DecisionClassifier

variable {input : DecisionInput} {b : Bands}
variable {d : DecisionType}

theorem emits_append {l m : List ClassifiedDecision} :
    Emits d (l ++ m) ↔ Emits d l ∨ Emits d m := by
  simp [Emits]

theorem emits_pushIf {condition : Bool} {x : ClassifiedDecision} :
    Emits d (pushIf condition x) ↔ condition = true ∧ d = x.decision := by
  cases condition <;> simp [Emits, pushIf]

/-- The other rules push none of the four decisions of the bands, except `STOP_CANDIDATE`. -/
theorem emits_classify (hn : 0 < input.purchaseCount)
    (hd : d = .SCALE ∨ d = .KEEP ∨ d = .WATCH ∨ d = .STOP_CANDIDATE) :
    Emits d (classify input) ↔ Emits d (bandDecisions input) ∨ Emits d (stopDecisions input) := by
  have hprofit : ¬ Emits d (profitDecisions input) := by
    unfold profitDecisions Emits
    rcases hd with rfl | rfl | rfl | rfl <;> split <;> (try split) <;> (try split) <;> simp
  have hstage : ¬ Emits d (stageDecisions input) := by
    unfold stageDecisions
    simp only [emits_append, emits_pushIf]
    rcases hd with rfl | rfl | rfl | rfl <;> simp
  unfold classify
  simp only [emits_append, emits_pushIf, hprofit, hstage, false_or, or_false]
  refine or_congr_left (or_iff_left fun h => ?_)
  simp only [Bool.and_eq_true, decide_eq_true_eq] at h
  omega

theorem emits_stop (h : input.Asks b) : Emits d (stopDecisions input) ↔
    d = .STOP_CANDIDATE ∧ (b.stopCpaKrw < b.cpaKrw ∨ b.marginKrw < 0 ∧ 2 ≤ input.dataDays) := by
  have hn := h.purchases
  unfold stopDecisions
  rw [emits_pushIf, and_comm]
  simp [above, h.cpaKrw, h.stopCpaKrw, h.marginKrw, hn, hn.ne']

theorem emits_band (h : input.Asks b) (ho : b.Ordered) :
    Emits d (bandDecisions input) ↔
      d = .SCALE ∧ b.cpaKrw ≤ b.targetCpaKrw ∧ 0 < b.marginKrw ∨
      d = .KEEP ∧ b.targetCpaKrw < b.cpaKrw ∧ b.cpaKrw ≤ b.breakEvenCpaKrw := by
  unfold bandDecisions
  rw [if_pos (by simp [h.targetCpaKrw, h.cpaKrw, h.purchases, h.marginKrw])]
  simp only [atMost, above, h.cpaKrw, h.targetCpaKrw, h.breakEvenCpaKrw, h.watchCpaKrw, h.marginKrw,
    Option.any_some, Bool.and_eq_true, decide_eq_true_eq]
  split
  · rename_i hscale
    have : ¬ b.targetCpaKrw < b.cpaKrw := not_lt.mpr hscale.1
    simp [Emits, hscale, this]
  · rename_i hscale
    split
    · next hkeep => simp [Emits, hkeep.1, not_le.mpr hkeep.1.1]
    · rename_i hkeep
      -- the margin is negative in the whole band
      have hwatch : ¬ ((b.breakEvenCpaKrw < b.cpaKrw ∧ b.cpaKrw ≤ b.watchCpaKrw) ∧ 0 ≤ b.marginKrw) :=
        fun hw => absurd (ho.margin.mp hw.2) (not_le.mpr hw.1.1)
      rw [emits_pushIf, Bool.and_eq_true, Bool.and_eq_true, decide_eq_true_eq, decide_eq_true_eq,
        decide_eq_true_eq]
      refine iff_of_false (fun hw => hwatch hw.1) ?_
      rintro (⟨-, h1⟩ | ⟨-, h1⟩)
      · exact hscale h1
      · exact hkeep ⟨h1, ho.margin.mpr h1.2⟩

/-- **With bands in order, each has its decision if and only if the CPA is not in the band of
    `WATCH`.** -/
theorem covered_iff (h : input.Asks b) (ho : b.Ordered) : BandsCovered b (classify input) ↔
    ¬ (b.breakEvenCpaKrw < b.cpaKrw ∧ b.cpaKrw ≤ b.watchCpaKrw) := by
  have hd {d : DecisionType} (hd : d = .SCALE ∨ d = .KEEP ∨ d = .WATCH ∨ d = .STOP_CANDIDATE) :=
    (emits_classify h.purchases hd).trans (or_congr (emits_band h ho) (emits_stop h))
  have hscale := hd (.inl rfl)
  have hkeep := hd (.inr (.inl rfl))
  have hwatch := hd (.inr (.inr (.inl rfl)))
  have hstop := hd (.inr (.inr (.inr rfl)))
  simp only [reduceCtorEq, false_and, or_false, false_or, true_and] at hscale hkeep hwatch hstop
  constructor
  · rintro hc ⟨h1, h2⟩
    exact hwatch.mp (hc.watch h1 h2)
  · intro hgap
    refine ⟨fun h1 h2 => hscale.mpr ⟨h1, h2⟩, fun h1 h2 => hkeep.mpr ⟨h1, h2⟩,
      fun h1 h2 => absurd ⟨h1, h2⟩ hgap, fun h1 => hstop.mpr (.inl h1), fun hs => ?_⟩
    -- a candidate for stopping lies beyond break-even
    have hbeyond : b.breakEvenCpaKrw < b.cpaKrw := by
      rcases hstop.mp hs with h1 | h1
      · exact lt_of_le_of_lt (ho.watch.trans ho.stop) h1
      · exact not_le.mp fun e => absurd (ho.margin.mpr e) (not_le.mpr h1.1)
    exact ⟨fun e => absurd ((hscale.mp e).1.trans ho.target) (not_le.mpr hbeyond),
      fun e => absurd (hkeep.mp e).2 (not_le.mpr hbeyond)⟩

end DecisionClassifier

/-! ## 4. Periods of one rule -/

/-- What a purchase contributes under a rule, as rows are decorated. -/
def contribution (cost : ProductRule CostValues) : ℚ :=
  cost.values.salePriceKrw.value - cost.values.salePriceKrw.value * (1 / 10) -
    cost.values.productCostKrw.value - cost.values.shippingKrw.value - cost.values.extraCostKrw.value

def thresholdsOf (cost : ProductRule CostValues) (cpa : ProductRule CpaValues) : ProductCpaThresholds where
  contributionBeforeAdsKrw := contribution cost
  breakEvenCpaKrw := some (contribution cost)
  targetCpaKrw := some (contribution cost * cpa.values.targetRatio.value)
  watchCpaKrw := some (contribution cost * cpa.values.watchRatio.value)
  stopCpaKrw := some (contribution cost * cpa.values.stopRatio.value)

/-- Decorated rows that all fall under one cost rule and one CPA rule, with known exchange rates
    and a positive number of purchases. -/
structure OneRulePeriod (db : MetricsDb) (metrics : List MetricWithRelations)
    (rows : List DecoratedMetric) (cost : ProductRule CostValues) (cpa : ProductRule CpaValues) : Prop where
  decorated : ∀ row ∈ rows, row ∈ decorate db metrics
  costRule : ∀ row ∈ rows, row.costRule = some cost
  cpaRule : ∀ row ∈ rows, row.cpaRule = some cpa
  rate : ∀ row ∈ rows, (exchangeRateKrwPerUsd row.exchangeRate cost.values.fxRateKrwPerUsd.value).isSome
  purchases : 0 < (rows.map (·.purchaseCount)).sum
  target : 0 < cpa.values.targetRatio.value ∧ cpa.values.targetRatio.value ≤ 1
  watch : 1 ≤ cpa.values.watchRatio.value
  stop : cpa.values.watchRatio.value ≤ cpa.values.stopRatio.value
  breakEven : 0 < contribution cost

/-- The bands of such a period, from its spend in won and its purchases. -/
def bandsOf (cost : ProductRule CostValues) (cpa : ProductRule CpaValues)
    (rows : List DecoratedMetric) : Bands :=
  let spendKrw := (rows.map fun row => row.spendKrw.getD 0).sum
  let purchaseCount : Int := (rows.map (·.purchaseCount)).sum
  { cpaKrw := spendKrw / purchaseCount
    marginKrw := purchaseCount * contribution cost - spendKrw
    targetCpaKrw := contribution cost * cpa.values.targetRatio.value
    breakEvenCpaKrw := contribution cost
    watchCpaKrw := contribution cost * cpa.values.watchRatio.value
    stopCpaKrw := contribution cost * cpa.values.stopRatio.value }

variable {db : MetricsDb} {metrics : List MetricWithRelations} {rows : List DecoratedMetric}
  {cost : ProductRule CostValues} {cpa : ProductRule CpaValues}

variable {row : DecoratedMetric}

/-- A row under both rules with a known rate has its thresholds and its margin. -/
theorem decorated_under_rules (hrow : row ∈ decorate db metrics) (hcost : row.costRule = some cost)
    (hcpa : row.cpaRule = some cpa)
    (hrate : (exchangeRateKrwPerUsd row.exchangeRate cost.values.fxRateKrwPerUsd.value).isSome) :
    row.thresholds = some (thresholdsOf cost cpa) ∧
      row.marginKrw.getD 0 = row.purchaseCount * contribution cost - row.spendKrw.getD 0 := by
  obtain ⟨metric, -, rfl⟩ := mem_map.mp hrow
  unfold decorateAmong decorateMetric at hcost hcpa hrate ⊢
  dsimp only at hcost hcpa hrate ⊢
  split at hcost
  · cases hcost
  · rename_i hid
    rw [if_neg hid] at hcpa hrate ⊢
    split at hcost
    · cases hcost
    · rename_i rule hrule
      simp only [hrule] at hcpa hrate ⊢
      split at hcost
      · rename_i hnone
        cases hcost
        simp only [hnone, undecorated] at hrate
        cases hrate
      · rename_i rate hsome
        cases hcost
        simp only [hsome] at hcpa ⊢
        rw [hcpa]
        refine ⟨rfl, ?_⟩
        simp only [Option.getD_some, MarginCalculator.margin, contribution]
        ring

/-- The margin of the rows is what their purchases contribute less their spend. -/
theorem sum_margin (h : ∀ row ∈ rows,
      row.marginKrw.getD 0 = row.purchaseCount * contribution cost - row.spendKrw.getD 0) :
    (rows.map fun row => row.marginKrw.getD 0).sum = (bandsOf cost cpa rows).marginKrw := by
  induction rows with
  | nil => simp [bandsOf]
  | cons row rows ih =>
    rw [map_cons, sum_cons, ih fun r hr => h r (mem_cons_of_mem _ hr), h row mem_cons_self]
    simp only [bandsOf, map_cons, sum_cons, Int.cast_add]
    ring

namespace OneRulePeriod

section

variable (h : OneRulePeriod db metrics rows cost cpa)
include h

theorem totals : (aggregateDecoratedMetrics rows).totals.purchaseCount = (rows.map (·.purchaseCount)).sum ∧
    (aggregateDecoratedMetrics rows).totals.marginKrw = (bandsOf cost cpa rows).marginKrw ∧
    (aggregateDecoratedMetrics rows).totals.cpaKrw = some (bandsOf cost cpa rows).cpaKrw := by
  have hn : (((rows.map (·.purchaseCount)).sum : Int) : ℚ) ≠ 0 := Int.cast_ne_zero.mpr h.purchases.ne'
  have hmargin : _ = (bandsOf cost cpa rows).marginKrw := sum_margin fun row hrow =>
    (decorated_under_rules (h.decorated row hrow) (h.costRule row hrow) (h.cpaRule row hrow)
      (h.rate row hrow)).2
  unfold aggregateDecoratedMetrics PeriodMetricCalculator.calculate sumOrZero
  simp only [plainSum_eq_sum, map_map, ite_self]
  refine ⟨rfl, hmargin, ?_⟩
  exact if_neg hn

/-- The margin is negative exactly beyond break-even. -/
theorem ordered : (bandsOf cost cpa rows).Ordered where
  target := by
    have := mul_le_mul_of_nonneg_left h.target.2 h.breakEven.le
    rwa [mul_one] at this
  watch := by
    have := mul_le_mul_of_nonneg_left h.watch h.breakEven.le
    rwa [mul_one] at this
  stop := mul_le_mul_of_nonneg_left h.stop h.breakEven.le
  margin := by
    have hn : (0 : ℚ) < ((rows.map (·.purchaseCount)).sum : Int) := Int.cast_pos.mpr h.purchases
    unfold bandsOf
    dsimp only
    rw [div_le_iff₀ hn, sub_nonneg, mul_comm]

theorem asks (settings : DecisionSettings) (scopeType : ScopeType) (stage : AdStage) (dataDays : Nat) :
    (decisionInput settings scopeType stage (aggregateDecoratedMetrics rows).totals dataDays
      (thresholdsOf cost cpa)).Asks (bandsOf cost cpa rows) where
  purchases := lt_of_lt_of_eq h.purchases h.totals.1.symm
  cpaKrw := h.totals.2.2
  marginKrw := congrArg some h.totals.2.1
  targetCpaKrw := rfl
  breakEvenCpaKrw := rfl
  watchCpaKrw := rfl
  stopCpaKrw := rfl

theorem thresholds (hrow : row ∈ rows) : row.thresholds = some (thresholdsOf cost cpa) :=
  (decorated_under_rules (h.decorated row hrow) (h.costRule row hrow) (h.cpaRule row hrow) (h.rate row hrow)).1

end

end OneRulePeriod

/-- **In a period of one rule each band has its decision if and only if the CPA is not in the band
    of `WATCH`**, for a product as for an adset. -/
theorem bands_covered_iff (h : OneRulePeriod db metrics rows cost cpa) (settings : DecisionSettings)
    (id : String) :
    let b := bandsOf cost cpa rows
    let OutsideWatch := ¬ (b.breakEvenCpaKrw < b.cpaKrw ∧ b.cpaKrw ≤ b.watchCpaKrw)
    (∀ product, productRow (id, rows) = some product →
      product.totals.cpaKrw = some b.cpaKrw ∧ product.totals.marginKrw = b.marginKrw ∧
        product.thresholds = some (thresholdsOf cost cpa) ∧
        (BandsCovered b (productDecisions settings product) ↔ OutsideWatch)) ∧
    (∀ adset, adsetRow (id, rows) = some adset →
      adset.totals.cpaKrw = some b.cpaKrw ∧ adset.totals.marginKrw = b.marginKrw ∧
        adset.thresholds = some (thresholdsOf cost cpa) ∧
        (BandsCovered b (adsetDecisions settings adset) ↔ OutsideWatch)) := by
  dsimp only
  constructor
  · intro product hproduct
    unfold productRow at hproduct
    obtain ⟨first, hfirst, rfl⟩ := Option.map_eq_some_iff.mp hproduct
    have hthresholds := h.thresholds (mem_of_head? hfirst)
    refine ⟨h.totals.2.2, h.totals.2.1, hthresholds, ?_⟩
    unfold productDecisions
    simp only [hthresholds]
    exact DecisionClassifier.covered_iff (h.asks ..) h.ordered
  · intro adset hadset
    unfold adsetRow at hadset
    obtain ⟨first, -, hlast⟩ := Option.bind_eq_some_iff.mp hadset
    obtain ⟨last, hmem, rfl⟩ := Option.map_eq_some_iff.mp hlast
    have hthresholds := h.thresholds (mem_of_getLast? hmem)
    refine ⟨h.totals.2.2, h.totals.2.1, hthresholds, ?_⟩
    unfold adsetDecisions
    simp only [hthresholds]
    exact DecisionClassifier.covered_iff (h.asks ..) h.ordered

/-! ## 5. A CPA between break-even and watch -/

def bandCost : ProductRule CostValues where
  id := "cost"
  productId := "p"
  values := ⟨⟨1000000⟩, ⟨100000⟩, ⟨400000⟩, ⟨0⟩, ⟨0⟩, ⟨10000000⟩, none⟩
  effectiveFrom := 0
  effectiveTo := none
  createdAt := 0

def bandCpa : ProductRule CpaValues where
  id := "cpa"
  productId := "p"
  values := ⟨⟨8000⟩, ⟨12000⟩, ⟨15000⟩, none⟩
  effectiveFrom := 0
  effectiveTo := none
  createdAt := 0

/-- One purchase for 5.5 dollars, at 1000 won; the contribution of a purchase is 5000 won. -/
def bandMetric : MetricWithRelations where
  id := "m"
  isCurrent := true
  metricDate := 1
  metaAdsetId := "a"
  adsetName := "adset"
  deliveryStatus := none
  resultCount := 1
  spendUsd := ⟨55000⟩
  impressions := 100
  linkClicks := 2
  clicksAll := 3
  landingPageViews := 1
  productId := some "p"
  stage := .CBO
  product := none
  metaAdset := none

def bandDb : MetricsDb where
  products := []
  adsets := []
  adMetrics := []
  adsetMetrics := [bandMetric.toAdsetDailyMetric]
  costRules := [bandCost]
  cpaRules := [bandCpa]
  exchangeRates := []
  decisionLogs := []

theorem band_period :
    OneRulePeriod bandDb [bandMetric] (decorate bandDb [bandMetric]) bandCost bandCpa where
  decorated := fun _ h => h
  costRule := by decide +kernel
  cpaRule := by decide +kernel
  rate := by decide +kernel
  purchases := by decide +kernel
  target := by decide +kernel
  watch := by decide +kernel
  stop := by decide +kernel
  breakEven := by decide +kernel

theorem bands_covered_iff_one :
    (∃ adset, adsetRow ("a", decorate bandDb [bandMetric]) = some adset) ∧
    ∀ adset, adsetRow ("a", decorate bandDb [bandMetric]) = some adset →
      ¬ BandsCovered (bandsOf bandCost bandCpa (decorate bandDb [bandMetric]))
        (adsetDecisions ⟨1, 3⟩ adset) := by
  refine ⟨Option.isSome_iff_exists.mp (by decide +kernel), fun adset hadset hc => ?_⟩
  have h := ((bands_covered_iff band_period ⟨1, 3⟩ "a").2 adset hadset).2.2.2
  exact h.mp hc (by decide +kernel)

/-- At a CPA of 5500 won, between break-even and watch, no decision is given at all. -/
theorem watch_band_silent :
    OneRulePeriod bandDb [bandMetric] (decorate bandDb [bandMetric]) bandCost bandCpa ∧
    thresholdsOf bandCost bandCpa = ⟨5000, some 5000, some 4000, some 6000, some 7500⟩ ∧
    ∃ adset : AdsetMetrics, adsetRow ("a", decorate bandDb [bandMetric]) = some adset ∧
      adset.totals.cpaKrw = some 5500 ∧ adsetDecisions ⟨1, 3⟩ adset = [] := by
  refine ⟨band_period, by decide +kernel, ?_⟩
  obtain ⟨adset, hadset⟩ := Option.isSome_iff_exists.mp
    (show (adsetRow ("a", decorate bandDb [bandMetric])).isSome = true by decide +kernel)
  have h : (adsetRow ("a", decorate bandDb [bandMetric])).all (fun adset =>
      adsetDecisions ⟨1, 3⟩ adset = [] && adset.totals.cpaKrw = some 5500) = true := by decide +kernel
  rw [hadset, Option.all_some, Bool.and_eq_true, decide_eq_true_eq, decide_eq_true_eq] at h
  exact ⟨adset, hadset, h.2, h.1⟩

end AdsManagement.Metrics
