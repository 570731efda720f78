/-
  File:      Cafe24/CouponChoice.lean
  Subject:   THE COUPON THAT IS CHOSEN is the right one: which amount, which rule of this amount,
             and that nothing of it is lost among the products.

  Amounts of money come from `Decimal(14, 2)` columns (`StoredAmounts`): two of them that are not
  equal are a hundredth apart, so `Number.EPSILON` tells them apart.

  * `selectedAmount_spec` -- the two regimes of the amount;
  * `selectCouponRule_spec` -- the rule that is taken stands before every other of its amount;
  * `resolveCafe24CouponOrder_correct` -- an applied coupon is the right one and divided exactly;
    without one there is no deduction.
-/
import Mathlib.Data.String.Basic
import AdsManagement.Cafe24.CouponMatcher

namespace AdsManagement.Cafe24.Coupon

open Common Lib List

/-! ## 1. Amounts with two decimals -/

variable {x : ℚ}

theorem atMostTwoDecimals_iff : AtMostTwoDecimals x ↔ ∃ n : Int, x = n / 100 := by
  constructor
  · intro h
    exact ⟨(x * 100).num, by rw [← Rat.eq_num_of_isInt h]; ring⟩
  · rintro ⟨n, rfl⟩
    unfold AtMostTwoDecimals
    rw [div_mul_cancel₀ _ (by norm_num)]
    rfl

theorem atMostTwoDecimals_sub {y : ℚ} (hx : AtMostTwoDecimals x) (hy : AtMostTwoDecimals y) :
    AtMostTwoDecimals (x - y) := by
  obtain ⟨m, rfl⟩ := atMostTwoDecimals_iff.mp hx
  obtain ⟨n, rfl⟩ := atMostTwoDecimals_iff.mp hy
  exact atMostTwoDecimals_iff.mpr ⟨m - n, by push_cast; ring⟩

theorem atMostTwoDecimals_abs (hx : AtMostTwoDecimals x) : AtMostTwoDecimals |x| := by
  obtain ⟨m, rfl⟩ := atMostTwoDecimals_iff.mp hx
  refine atMostTwoDecimals_iff.mpr ⟨|m|, ?_⟩
  rw [abs_div]
  norm_num

/-- **Two amounts closer than `Number.EPSILON` are the same.** -/
theorem eq_of_abs_sub_lt_epsilon {y : ℚ} (hx : AtMostTwoDecimals x) (hy : AtMostTwoDecimals y)
    (h : |x - y| < epsilon) : x = y := by
  obtain ⟨n, hn⟩ := atMostTwoDecimals_iff.mp (atMostTwoDecimals_sub hx hy)
  rw [hn, abs_div, ← Int.cast_abs] at h
  have hsmall : ((|n| : Int) : ℚ) < 1 := by
    have hhundred : |(100 : ℚ)| = 100 := by norm_num
    rw [div_lt_iff₀ (by norm_num)] at h
    calc ((|n| : Int) : ℚ) < epsilon * 100 := h
      _ ≤ 1 := by norm_num [epsilon]
  have hzero : |n| < 1 := by exact_mod_cast hsmall
  have hn0 : n = 0 := by
    rw [← abs_eq_zero]
    have := abs_nonneg n
    omega
  rw [hn0, Int.cast_zero, zero_div] at hn
  exact sub_eq_zero.mp hn

/-! ## 2. Candidates -/

variable {rule : Cafe24CouponRuleInput}

theorem isPositiveDiscount_iff :
    isPositiveDiscount rule.discountKrw = true ↔
      rule.discountKrw = some (amountOf rule) ∧ 0 < amountOf rule := by
  unfold isPositiveDiscount amountOf
  cases rule.discountKrw with
  | none | some amount => simp

variable {productIds : List String}

theorem scopeFits_iff :
    scopeFits rule productIds = true ↔ (rule.scope = .GLOBAL ∧ rule.productId = none) ∨
      (rule.scope = .PRODUCT ∧ ∃ productId, rule.productId = some productId ∧
        productId ∈ productIds) := by
  unfold scopeFits
  cases rule.scope with
  | GLOBAL => simp
  | PRODUCT =>
    cases rule.productId with
    | none | some productId => simp

/-- **Which rules are candidates** on a valid order date. -/
theorem isRuleEligible_iff {date : Int} :
    isRuleEligible rule (some date) productIds = true ↔ rule.isActive = true ∧
      rule.discountKrw = some (amountOf rule) ∧ 0 < amountOf rule ∧
      dateValue rule.validFrom ≤ dateValue date ∧
      (∀ validTo, rule.validTo = some validTo → dateValue date ≤ dateValue validTo) ∧
      ((rule.scope = .GLOBAL ∧ rule.productId = none) ∨
        (rule.scope = .PRODUCT ∧ ∃ productId, rule.productId = some productId ∧
          productId ∈ productIds)) := by
  have hvalidTo : (rule.validTo.any fun validTo => (some date).any fun date =>
      decide (dateValue validTo < dateValue date)) = false ↔
      ∀ validTo, rule.validTo = some validTo → dateValue date ≤ dateValue validTo := by
    cases rule.validTo with
    | none | some validTo => simp
  have hite : ∀ c s : Bool, (if c = true then false else s) = true ↔ c = false ∧ s = true := by
    intro c s
    cases c with
    | true | false => simp
  unfold isRuleEligible
  rw [hite, scopeFits_iff, Bool.or_eq_false_iff, Bool.or_eq_false_iff, Bool.or_eq_false_iff, hvalidTo,
    Bool.not_eq_false', Bool.not_eq_false', isPositiveDiscount_iff]
  simp only [Option.any_some, decide_eq_false_iff_not, not_lt, and_assoc]

/-! ## 3. The amount -/

/-- The amounts of candidates and the gap have at most two decimals. -/
structure StoredChoice (candidates : List Cafe24CouponRuleInput) (observedGapKrw : ℚ) : Prop where
  gap : AtMostTwoDecimals observedGapKrw
  amount : ∀ rule ∈ candidates, AtMostTwoDecimals (amountOf rule)

/-- What is asked of the chosen amount. -/
structure RightAmount (candidates : List Cafe24CouponRuleInput) (observedGapKrw amount : ℚ) :
    Prop where
  offered : ∃ rule ∈ candidates, amountOf rule = amount
  le_gap : amount ≤ observedGapKrw + 1
  closest : (∃ rule ∈ candidates, |observedGapKrw - amountOf rule| ≤ 1) →
    ∀ rule ∈ candidates, |observedGapKrw - amount| ≤ |observedGapKrw - amountOf rule|
  largest : (∀ rule ∈ candidates, 1 < |observedGapKrw - amountOf rule|) →
    ∀ rule ∈ candidates, amountOf rule ≤ observedGapKrw + 1 → amountOf rule ≤ amount

variable {candidates : List Cafe24CouponRuleInput} {observedGapKrw amount : ℚ}

/-- **The two regimes of the amount.** -/
theorem selectedAmount_spec (hs : StoredChoice candidates observedGapKrw)
    (h : selectedAmount candidates observedGapKrw = some amount) :
    RightAmount candidates observedGapKrw amount := by
  set exact := candidates.filter fun rule =>
    decide (|observedGapKrw - amountOf rule| ≤ amountToleranceKrw) with hexact
  have hmem : ∀ rule, rule ∈ exact ↔ rule ∈ candidates ∧ |observedGapKrw - amountOf rule| ≤ 1 := by
    intro rule
    rw [mem_filter, decide_eq_true_eq]
    rfl
  unfold selectedAmount at h
  simp only [← hexact] at h
  split at h
  · rename_i hpos
    -- some amount is within the tolerance: the least difference, and the larger of two amounts
    -- that have it
    cases hmin : (exact.map fun rule => |observedGapKrw - amountOf rule|).min? with
    | none =>
      have hnil := map_eq_nil_iff.mp (min?_eq_none_iff.mp hmin)
      rw [hnil] at hpos
      exact absurd hpos (by simp)
    | some least =>
      rw [hmin] at h
      obtain ⟨hleast, hle⟩ := min?_eq_some_iff.mp hmin
      obtain ⟨near, hnear, rfl⟩ := mem_map.mp hleast
      obtain ⟨hnearc, hneart⟩ := (hmem near).mp hnear
      obtain ⟨hchosen, _⟩ := max?_eq_some_iff.mp h
      obtain ⟨rule, hrule, rfl⟩ := mem_map.mp hchosen
      obtain ⟨hrulee, hclose⟩ := mem_filter.mp hrule
      obtain ⟨hrulec, hrulet⟩ := (hmem rule).mp hrulee
      have hsame : |observedGapKrw - amountOf rule| = |observedGapKrw - amountOf near| := by
        refine eq_of_abs_sub_lt_epsilon ?_ ?_ (of_decide_eq_true hclose)
        · exact atMostTwoDecimals_abs (atMostTwoDecimals_sub hs.gap (hs.amount rule hrulec))
        · exact atMostTwoDecimals_abs (atMostTwoDecimals_sub hs.gap (hs.amount near hnearc))
      refine ⟨⟨rule, hrulec, rfl⟩, by linarith [(abs_le.mp hrulet).1], fun _ other hother => ?_,
        fun hfar => absurd hneart (not_le.mpr (hfar near hnearc))⟩
      rw [hsame]
      rcases le_or_gt |observedGapKrw - amountOf other| 1 with hin | hout
      · exact hle _ (mem_map_of_mem ((hmem other).mpr ⟨hother, hin⟩))
      · exact hneart.trans hout.le
  · rename_i hnone
    have hfar : ∀ rule ∈ candidates, 1 < |observedGapKrw - amountOf rule| := by
      intro rule hrule
      by_contra hin
      have hin' : rule ∈ exact := (hmem rule).mpr ⟨hrule, not_lt.mp hin⟩
      exact hnone (length_pos_of_mem hin')
    obtain ⟨hchosen, hle⟩ := max?_eq_some_iff.mp h
    obtain ⟨rule, hrule, rfl⟩ := mem_map.mp hchosen
    obtain ⟨hrulec, hplausible⟩ := mem_filter.mp hrule
    refine ⟨⟨rule, hrulec, rfl⟩, of_decide_eq_true hplausible, fun ⟨near, hnear, hin⟩ => ?_,
      fun _ other hother hother' => ?_⟩
    · exact absurd hin (not_le.mpr (hfar near hnear))
    · exact hle _ (mem_map_of_mem (mem_filter.mpr ⟨hother, decide_eq_true hother'⟩))

/-! ## 4. The rule -/

section Locale

variable {localeCompare : String → String → Int}

/-- Product rules first, then by priority, the later validity and the later creation. -/
def tieRank (rule : Cafe24CouponRuleInput) : ℤ ×ₗ ℤ ×ₗ ℤ ×ₗ ℤ :=
  toLex (if rule.scope = .PRODUCT then 0 else 1,
    toLex (rule.priority, toLex (-dateValue rule.validFrom, -rule.createdAt)))

theorem compareRulesAtSameAmount_le_iff (left right : Cafe24CouponRuleInput) :
    compareRulesAtSameAmount localeCompare left right ≤ 0 ↔
      RankOrder tieRank (fun a b => localeCompare a.id b.id) left right := by
  simp only [RankOrder, compareRulesAtSameAmount, tieRank, Prod.Lex.toLex_lt_toLex,
    EmbeddingLike.apply_eq_iff_eq, Prod.mk.injEq]
  cases left.scope with
  | GLOBAL =>
    cases right.scope with
    | GLOBAL =>
      simp only [ne_eq, not_true_eq_false, if_false, true_and]
      split
      · omega
      · split
        · omega
        · split
          · omega
          · omega
    | PRODUCT => simp
  | PRODUCT =>
    cases right.scope with
    | GLOBAL => simp
    | PRODUCT =>
      simp only [ne_eq, not_true_eq_false, if_false, true_and]
      split
      · omega
      · split
        · omega
        · split
          · omega
          · omega

/-- **The rule of the chosen amount** is a candidate that stands before every other of its amount,
    by scope, priority, validity and creation, and by id among equals. -/
theorem selectCouponRule_spec (hcmp : IsComparator localeCompare) {selection : CouponSelection}
    (h : selectCouponRule localeCompare candidates observedGapKrw = some selection) :
    selectedAmount candidates observedGapKrw = some (amountOf selection.rule) ∧
      selection.rule ∈ candidates ∧
      ∀ other ∈ candidates, amountOf other = amountOf selection.rule →
        RankOrder tieRank (fun a b => localeCompare a.id b.id) selection.rule other := by
  unfold selectCouponRule at h
  cases ha : selectedAmount candidates observedGapKrw with
  | none =>
    rw [ha] at h
    exact (nomatch h)
  | some amount =>
    rw [ha] at h
    simp only at h
    have hsorted := (hcmp.comap Cafe24CouponRuleInput.id).pairwise_insertionSort
      compareRulesAtSameAmount_le_iff (candidates.filter fun rule => decide (amountOf rule = amount))
    have hperm := perm_insertionSort
      (fun left right => compareRulesAtSameAmount localeCompare left right ≤ 0)
      (candidates.filter fun rule => decide (amountOf rule = amount))
    split at h
    · exact (nomatch h)
    · rename_i rule rest hs
      cases h
      rw [hs] at hsorted hperm
      obtain ⟨hrule, hamount⟩ := mem_filter.mp (hperm.subset mem_cons_self)
      have hamount' : amountOf rule = amount := of_decide_eq_true hamount
      refine ⟨by rw [hamount'], hrule, fun other hother hsame => ?_⟩
      have hmem : other ∈ rule :: rest := hperm.symm.subset (mem_filter.mpr
        ⟨hother, decide_eq_true (hsame.trans hamount')⟩)
      rcases mem_cons.mp hmem with rfl | hrest
      · exact .inr ⟨rfl, (hcmp.total other.id other.id).elim id id⟩
      · exact (compareRulesAtSameAmount_le_iff _ _).mp (rel_of_pairwise_cons hsorted hrest)

variable {lines : List Cafe24CouponOrderLineInput}

/-- **A coupon is divided without a remainder.** -/
theorem sum_allocateCoupon {allocations : OrderedMap String ℚ} (h2 : AtMostTwoDecimals (amountOf rule))
    (h : allocateCoupon localeCompare lines rule = some allocations) :
    allocations.values.sum = amountOf rule := by
  unfold allocateCoupon at h
  cases hscope : rule.scope with
  | PRODUCT =>
    simp only [hscope] at h
    split at h
    · cases h
      have hone : (OrderedMap.ofList [(rule.productId.getD "", amountOf rule)]).entries =
          [(rule.productId.getD "", amountOf rule)] :=
        OrderedMap.entries_ofList (nodup_singleton _)
      rw [OrderedMap.values, hone]
      simp
    · cases h
  | GLOBAL =>
    simp only [hscope] at h
    split at h
    · cases h
    · obtain ⟨hcan, rfl⟩ := (allocateNonNegativeByWeight_eq_some_iff localeCompare).mp h
      exact sum_allocationOf localeCompare h2 hcan.weight

/-! ## 5. The resolution -/

/-- A resolution that takes nothing off. -/
structure NoDeduction (r : Cafe24CouponResolution) : Prop where
  status : r.status ≠ .APPLIED
  couponDeductionKrw : r.couponDeductionKrw = 0
  allocations : r.allocationsByProductId = OrderedMap.empty

theorem noDeduction_unmatched (base : Cafe24CouponResolution) (code : CouponWarningCode)
    (ids : List String) : NoDeduction (unmatched base code ids) :=
  ⟨nofun, rfl, rfl⟩

def eligibleRules (lines : List Cafe24CouponOrderLineInput) (rules : List Cafe24CouponRuleInput)
    (orderDate : Int) : List Cafe24CouponRuleInput :=
  rules.filter fun rule => isRuleEligible rule (some orderDate) (productIdsOf lines)

/-- What an applied coupon is, for the rule it names. -/
structure RightCoupon (localeCompare : String → String → Int)
    (lines : List Cafe24CouponOrderLineInput) (rules : List Cafe24CouponRuleInput) (orderDate : Int)
    (gap : ℚ) (rule : Cafe24CouponRuleInput) (r : Cafe24CouponResolution) : Prop where
  status : r.status = .APPLIED
  eligible : rule ∈ eligibleRules lines rules orderDate
  selectedRuleId : r.selectedRuleId = some rule.id
  selectedRuleName : r.selectedRuleName = some rule.name
  selectedScope : r.selectedScope = some rule.scope
  couponDeductionKrw : rule.discountKrw = some r.couponDeductionKrw
  amount : RightAmount (eligibleRules lines rules orderDate) gap r.couponDeductionKrw
  firstOfAmount : ∀ other ∈ eligibleRules lines rules orderDate,
    amountOf other = r.couponDeductionKrw →
      RankOrder tieRank (fun a b => localeCompare a.id b.id) rule other
  allocated : r.allocationsByProductId.values.sum = r.couponDeductionKrw
  residual : r.ignoredResidualKrw = max 0 (gap - r.couponDeductionKrw)

/-- The totals and the gap are carried through. -/
structure KeepsTotals (base r : Cafe24CouponResolution) : Prop where
  totalOrderKrw : r.totalOrderKrw = base.totalOrderKrw
  totalPaidKrw : r.totalPaidKrw = base.totalPaidKrw
  observedGapKrw : r.observedGapKrw = base.observedGapKrw

/-- The amounts of an order and of the rules come from columns with two decimals. -/
structure StoredAmounts (lines : List Cafe24CouponOrderLineInput)
    (rules : List Cafe24CouponRuleInput) : Prop where
  totalOrder : ∀ line ∈ lines, ∀ x, line.totalOrderKrw = some x → AtMostTwoDecimals x
  totalPaid : ∀ line ∈ lines, ∀ x, line.totalPaidKrw = some x → AtMostTwoDecimals x
  discount : ∀ rule ∈ rules, ∀ x, rule.discountKrw = some x → AtMostTwoDecimals x

variable {rules : List Cafe24CouponRuleInput}

theorem mem_of_firstFiniteAmount {values : List (Option ℚ)} (h : firstFiniteAmount values = some x) :
    some x ∈ values := by
  unfold firstFiniteAmount at h
  cases hf : values.find? (·.isSome) with
  | none =>
    rw [hf] at h
    exact (nomatch h)
  | some value =>
    rw [hf] at h
    have hv : value = some x := h
    exact hv ▸ mem_of_find?_eq_some hf

variable {gap : ℚ}

theorem RightAmount.of_perm {candidates' : List Cafe24CouponRuleInput}
    (h : RightAmount candidates gap amount) (hperm : candidates.Perm candidates') :
    RightAmount candidates' gap amount where
  offered := by
    obtain ⟨rule, hr, e⟩ := h.offered
    exact ⟨rule, hperm.subset hr, e⟩
  le_gap := h.le_gap
  closest := fun ⟨rule, hr, hin⟩ other hother =>
    h.closest ⟨rule, hperm.symm.subset hr, hin⟩ other (hperm.symm.subset hother)
  largest := fun hfar other hother =>
    h.largest (fun rule hr => hfar rule (hperm.subset hr)) other (hperm.symm.subset hother)

variable {r : Cafe24CouponResolution}

section

variable (hcmp : IsComparator localeCompare) (hs : StoredAmounts lines rules)
  (hgap : AtMostTwoDecimals gap) (date : Int) (withGap : Cafe24CouponResolution)
include hcmp hs hgap

/-- From the candidates on. -/
theorem resolveWithCandidates_spec (hr : resolveWithCandidates localeCompare lines
      (couponCandidates localeCompare lines rules (some date)) withGap gap = r) :
    NoDeduction r ∨ KeepsTotals withGap r ∧
      ∃ rule, RightCoupon localeCompare lines rules date gap rule r := by
  have hperm : (couponCandidates localeCompare lines rules (some date)).Perm
      (eligibleRules lines rules date) := perm_insertionSort _ _
  generalize couponCandidates localeCompare lines rules (some date) = candidates at hr hperm
  have heq : ∀ rule ∈ candidates, rule.discountKrw = some (amountOf rule) := by
    intro rule hrule
    exact (isRuleEligible_iff.mp (mem_filter.mp (hperm.subset hrule)).2).2.1
  have hstored : StoredChoice candidates gap := ⟨hgap, fun rule hrule =>
    hs.discount rule (mem_filter.mp (hperm.subset hrule)).1 _ (heq rule hrule)⟩
  unfold resolveWithCandidates at hr
  split at hr
  · exact .inl (hr ▸ noDeduction_unmatched _ _ _)
  · cases hsel : selectCouponRule localeCompare candidates gap with
    | none =>
      rw [hsel] at hr
      exact .inl (hr ▸ noDeduction_unmatched _ _ _)
    | some selection =>
      obtain ⟨hamount, hrule, hfirst⟩ := selectCouponRule_spec hcmp hsel
      rw [hsel] at hr
      simp only at hr
      cases halloc : allocateCoupon localeCompare lines selection.rule with
      | none =>
        rw [halloc] at hr
        subst hr
        exact .inl ⟨nofun, rfl, rfl⟩
      | some allocations =>
        rw [halloc] at hr
        subst hr
        refine .inr ⟨⟨rfl, rfl, rfl⟩, selection.rule, ?_⟩
        exact {
          status := rfl
          eligible := hperm.subset hrule
          selectedRuleId := rfl
          selectedRuleName := rfl
          selectedScope := rfl
          couponDeductionKrw := heq _ hrule
          amount := (selectedAmount_spec hstored hamount).of_perm hperm
          firstOfAmount := fun other ho he => hfirst other (hperm.symm.subset ho) he
          allocated := sum_allocateCoupon (hstored.amount _ hrule) halloc
          residual := rfl }

/-- From the gap on. -/
theorem resolveWithGap_spec
    (hr : resolveWithGap localeCompare lines rules (some (some date)) withGap gap = r) :
    NoDeduction r ∨ KeepsTotals withGap r ∧
      ∃ rule, RightCoupon localeCompare lines rules date gap rule r := by
  unfold resolveWithGap at hr
  simp only at hr
  split at hr
  · exact .inl (hr ▸ noDeduction_unmatched _ _ _)
  split at hr
  · exact .inl (hr ▸ noDeduction_unmatched _ _ _)
  split at hr
  · exact .inl (hr ▸ noDeduction_unmatched _ _ _)
  exact resolveWithCandidates_spec hcmp hs hgap date withGap hr

end

/-- Consistent dates are valid and of one day. -/
theorem datesAreConsistent_iff {values : List (Option (Option Int))} :
    datesAreConsistent values = true ↔ values ≠ [] ∧
      ∃ day, ∀ value ∈ values, value.join.map dateValue = some day := by
  unfold datesAreConsistent
  cases values with
  | nil => simp
  | cons first rest =>
    constructor
    · intro h
      split at h
      · exact (nomatch h)
      · rename_i hnot
        rw [not_or] at hnot
        have hfirst : first.join.isNone ≠ true := fun e =>
          hnot.2 (any_eq_true.mpr ⟨first, mem_cons_self, e⟩)
        cases hj : first.join with
        | none => exact absurd (by rw [hj]; rfl) hfirst
        | some date =>
          refine ⟨cons_ne_nil _ _, dateValue date, fun value hv => ?_⟩
          have hall := of_decide_eq_true (all_eq_true.mp h value hv)
          rw [hall, head?_cons, Option.bind_some, hj]
          rfl
    · intro ⟨_, day, hall⟩
      have hnot : ¬ ((first :: rest).length = 0 ∨
          ((first :: rest).any fun value => value.join.isNone) = true) := by
        intro h
        rcases h with h | h
        · exact (nomatch h)
        · obtain ⟨value, hv, hnone⟩ := any_eq_true.mp h
          have := hall value hv
          rw [Option.isNone_iff_eq_none.mp hnone] at this
          exact (nomatch this)
      rw [if_neg hnot, all_eq_true]
      intro value hv
      refine decide_eq_true ?_
      rw [hall value hv, head?_cons, Option.bind_some, hall first mem_cons_self]

/-- The day of the first line is the day of every line. -/
theorem day_of_firstDate {day : Int}
    (h : ∀ value ∈ lines.map (·.orderDate), value.join.map dateValue = some day)
    (hne : lines.map (·.orderDate) ≠ []) :
    ∃ date, firstDate lines = some (some date) ∧ dateValue date = day := by
  cases lines with
  | nil => exact absurd rfl hne
  | cons line rest =>
    obtain ⟨date, hj, hday⟩ := Option.map_eq_some_iff.mp (h line.orderDate mem_cons_self)
    have hdate : line.orderDate = some (some date) := Option.join_eq_some_iff.mp hj
    refine ⟨date, ?_, hday⟩
    unfold firstDate
    rw [find?_cons_of_pos (by simp [hdate])]
    exact hdate

/-- **The resolution of an order is right.** An applied coupon is an eligible rule whose amount is
    the closest to the gap within the tolerance, or else the largest up to one won above the gap,
    and the first of its amount; its amount is divided exactly and the residual is what is left of
    the gap. Every other resolution takes nothing off. -/
theorem resolveCafe24CouponOrder_correct (hcmp : IsComparator localeCompare)
    (hs : StoredAmounts lines rules) (normalizeNFKC : String → String) (orderNo : String)
    {r : Cafe24CouponResolution}
    (hr : resolveCafe24CouponOrder localeCompare normalizeNFKC orderNo lines rules = r) :
    (r.status = .APPLIED → ∃ date totalOrder totalPaid rule, firstDate lines = some (some date) ∧
      r.totalOrderKrw = some totalOrder ∧ r.totalPaidKrw = some totalPaid ∧
      r.observedGapKrw = some (totalOrder - totalPaid) ∧
      RightCoupon localeCompare lines rules date (totalOrder - totalPaid) rule r) ∧
    (r.status ≠ .APPLIED → r.couponDeductionKrw = 0 ∧
      r.allocationsByProductId = OrderedMap.empty) := by
  have htotals : ∀ x y, firstFiniteAmount (lines.map (·.totalOrderKrw)) = some x →
      firstFiniteAmount (lines.map (·.totalPaidKrw)) = some y → AtMostTwoDecimals (x - y) := by
    intro x y hx hy
    obtain ⟨line, hl, ex⟩ := mem_map.mp (mem_of_firstFiniteAmount hx)
    obtain ⟨line', hl', ey⟩ := mem_map.mp (mem_of_firstFiniteAmount hy)
    exact atMostTwoDecimals_sub (hs.totalOrder line hl x ex) (hs.totalPaid line' hl' y ey)
  have hnone : NoDeduction r → (r.status = .APPLIED → ∃ date totalOrder totalPaid rule,
      firstDate lines = some (some date) ∧ r.totalOrderKrw = some totalOrder ∧
      r.totalPaidKrw = some totalPaid ∧ r.observedGapKrw = some (totalOrder - totalPaid) ∧
      RightCoupon localeCompare lines rules date (totalOrder - totalPaid) rule r) ∧
      (r.status ≠ .APPLIED → r.couponDeductionKrw = 0 ∧
        r.allocationsByProductId = OrderedMap.empty) :=
    fun h => ⟨fun hstatus => absurd hstatus h.status, fun _ => ⟨h.couponDeductionKrw, h.allocations⟩⟩
  unfold resolveCafe24CouponOrder at hr
  simp only at hr
  split at hr
  · rename_i hdetected
    subst hr
    refine hnone ⟨fun h => ?_, rfl, rfl⟩
    simp only [baseResolution] at h
    split at h
    · exact (nomatch h)
    · exact (nomatch h)
  split at hr
  · exact hnone (hr ▸ noDeduction_unmatched _ _ _)
  split at hr
  · exact hnone (hr ▸ noDeduction_unmatched _ _ _)
  split at hr
  · exact hnone (hr ▸ noDeduction_unmatched _ _ _)
  next hdates =>
  obtain ⟨hne, day, hall⟩ := datesAreConsistent_iff.mp (by simpa using hdates)
  obtain ⟨date, hdate, _⟩ := day_of_firstDate hall hne
  split at hr
  · exact hnone (hr ▸ noDeduction_unmatched _ _ _)
  split at hr
  · exact hnone (hr ▸ noDeduction_unmatched _ _ _)
  split at hr
  · rename_i totalOrder totalPaid ho hp
    rw [hdate] at hr
    rcases resolveWithGap_spec hcmp hs (htotals _ _ ho hp) date _ hr with h | ⟨hkept, rule, hright⟩
    · exact hnone h
    · have hstatus : r.status = .APPLIED := hright.status
      refine ⟨fun _ => ⟨date, totalOrder, totalPaid, rule, hdate, ?_, ?_, hkept.observedGapKrw,
        hright⟩, fun h => absurd hstatus h⟩
      · exact hkept.totalOrderKrw.trans ho
      · exact hkept.totalPaidKrw.trans hp
  · exact hnone (hr ▸ noDeduction_unmatched _ _ _)

end Locale

theorem asciiCompare_le_iff {a b : String} : asciiCompare a b ≤ 0 ↔ a ≤ b := by
  unfold asciiCompare
  split
  · next h => exact ⟨fun _ => h.le, fun _ => by omega⟩
  · rename_i h
    split
    · next e => exact ⟨fun _ => e.le, fun _ => le_rfl⟩
    · rename_i e
      refine ⟨fun hone => absurd hone (by omega), fun hab => ?_⟩
      exact absurd (lt_of_le_of_ne hab e) h

theorem isComparator_asciiCompare : IsComparator asciiCompare where
  total a b := by
    rw [asciiCompare_le_iff, asciiCompare_le_iff]
    exact le_total a b
  trans a b c hab hbc :=
    asciiCompare_le_iff.mpr ((asciiCompare_le_iff.mp hab).trans (asciiCompare_le_iff.mp hbc))

/-- An order of 10,000 won of which `totalPaidKrw` was paid, with a coupon. -/
def couponLine (totalOrderKrw totalPaidKrw : ℚ) : Cafe24CouponOrderLineInput where
  orderDate := some (some 1767225600000)
  paymentMethod := some "카드,쿠폰"
  totalOrderKrw := some totalOrderKrw
  totalPaidKrw := some totalPaidKrw
  productId := some "product-1"
  salePriceKrw := some 10000
  quantity := some 1
  isValid := none

def thousandWonRule : Cafe24CouponRuleInput where
  id := "rule-1"
  name := "coupon"
  scope := .GLOBAL
  productId := none
  discountKrw := some 1000
  priority := 100
  validFrom := 1764547200000
  validTo := none
  isActive := true
  createdAt := 1764547200000

/-- Two products, of which the second costs twice as much. -/
def twoProductOrder : List Cafe24CouponOrderLineInput :=
  [couponLine 30000 29000,
   { couponLine 30000 29000 with productId := some "product-2", salePriceKrw := some 20000 }]

/-- Two rules that differ in their ids alone. -/
def tiedRules : List Cafe24CouponRuleInput := [{ thousandWonRule with id := "rule-2" }, thousandWonRule]

theorem thousand_won_coupon_applies :
    let r := resolveCafe24CouponOrder asciiCompare id "1" twoProductOrder tiedRules
    r.selectedRuleId = some "rule-1" ∧
      r.allocationsByProductId.entries = [("product-1", 333), ("product-2", 667)] ∧
      ∃ date totalOrder totalPaid rule, firstDate twoProductOrder = some (some date) ∧
        r.totalOrderKrw = some totalOrder ∧ r.totalPaidKrw = some totalPaid ∧
        r.observedGapKrw = some (totalOrder - totalPaid) ∧
        RightCoupon asciiCompare twoProductOrder tiedRules date (totalOrder - totalPaid) rule r := by
  intro r
  have horder : ∀ line ∈ twoProductOrder, ∀ x ∈ line.totalOrderKrw, AtMostTwoDecimals x := by
    decide +kernel
  have hpaid : ∀ line ∈ twoProductOrder, ∀ x ∈ line.totalPaidKrw, AtMostTwoDecimals x := by
    decide +kernel
  have hdiscount : ∀ rule ∈ tiedRules, ∀ x ∈ rule.discountKrw, AtMostTwoDecimals x := by
    decide +kernel
  exact ⟨by decide +kernel, by decide +kernel, (resolveCafe24CouponOrder_correct isComparator_asciiCompare
    ⟨horder, hpaid, hdiscount⟩ id "1" rfl).1 (by decide +kernel)⟩

end AdsManagement.Cafe24.Coupon
