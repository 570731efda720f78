/-
  File:      Cafe24/CouponOrder.lean
  Subject:   THE COUPON DOES NOT DEPEND ON THE ORDER of the lines and of the rules, as long as the
             lines of the order agree on its totals.

  The totals are read off the first line and may differ by a won from line to line: then the gap
  depends on which line comes first (`first_total_decides`).

  * `couponCandidates_perm` -- rules with different ids are sorted in one way;
  * `perm_basesByProductId` -- what the products weigh is the same in any order of the lines;
  * `resolveCafe24CouponOrder_perm` -- status, rule, deduction, residual and shares are the same.
-/
import AdsManagement.Cafe24.CouponChoice

namespace AdsManagement.Cafe24.Coupon

open Common Lib List

/-! ## 1. What is read off the lines -/

variable {l' l : List ℚ}

theorem max?_perm (h : l.Perm l') : l.max? = l'.max? := by
  refine Option.ext fun x => ?_
  rw [max?_eq_some_iff, max?_eq_some_iff]
  simp only [h.mem_iff]

theorem min?_perm (h : l.Perm l') : l.min? = l'.min? := by
  refine Option.ext fun x => ?_
  rw [min?_eq_some_iff, min?_eq_some_iff]
  simp only [h.mem_iff]

variable {values values' : List (Option ℚ)}

theorem amountsAreConsistent_perm (h : values.Perm values') :
    amountsAreConsistent values = amountsAreConsistent values' := by
  unfold amountsAreConsistent
  simp only
  rw [h.length_eq, h.any_eq, max?_perm (h.filterMap id), min?_perm (h.filterMap id)]

theorem isSome_of_amountsAreConsistent (h : amountsAreConsistent values = true) :
    ∀ value ∈ values, value.isSome = true := by
  unfold amountsAreConsistent at h
  split at h
  · exact (nomatch h)
  · rename_i hnot
    intro value hv
    rw [not_or] at hnot
    by_contra hnone
    refine hnot.2 (any_eq_true.mpr ⟨value, hv, ?_⟩)
    rw [Option.isNone_iff_eq_none]
    exact Option.not_isSome_iff_eq_none.mp hnone

/-- Of equal amounts it does not matter which is first. -/
theorem firstFiniteAmount_of_all_eq {value : Option ℚ} (h : ∀ v ∈ values, v = value) (hv : value ∈ values)
    (hs : value.isSome = true) :
    firstFiniteAmount values = value := by
  cases values with
  | nil => exact (nomatch hv)
  | cons first rest =>
    have hfirst : first = value := h first mem_cons_self
    unfold firstFiniteAmount
    rw [find?_cons_of_pos (by rw [hfirst]; exact hs), hfirst]
    rfl

theorem firstFiniteAmount_perm (hperm : values.Perm values') (hc : amountsAreConsistent values = true)
    (h : ∀ v ∈ values, ∀ w ∈ values, v = w) :
    firstFiniteAmount values = firstFiniteAmount values' := by
  cases hvalues : values with
  | nil =>
    rw [hvalues] at hc
    exact (nomatch hc)
  | cons value rest =>
    have hmem : value ∈ values := by rw [hvalues]; exact mem_cons_self
    have hsome := isSome_of_amountsAreConsistent hc value hmem
    rw [← hvalues, firstFiniteAmount_of_all_eq (fun v hv => h v hv value hmem) hmem hsome,
      firstFiniteAmount_of_all_eq (fun v hv => h v (hperm.symm.subset hv) value hmem)
        (hperm.subset hmem) hsome]

theorem datesAreConsistent_perm {values values' : List (Option (Option Int))}
    (h : values.Perm values') : datesAreConsistent values = datesAreConsistent values' := by
  rw [Bool.eq_iff_iff, datesAreConsistent_iff, datesAreConsistent_iff]
  simp only [h.mem_iff, ne_eq, ← length_eq_zero_iff, h.length_eq]

/-! ## 2. Candidates -/

section Locale

variable {localeCompare : String → String → Int}
variable {lines lines' : List Cafe24CouponOrderLineInput} {rules rules' : List Cafe24CouponRuleInput}
variable {p : String}

theorem mem_productIdsOf :
    p ∈ productIdsOf lines ↔ ∃ line ∈ lines, line.productId = some p ∧ p ≠ "" := by
  unfold productIdsOf
  rw [mem_eraseDups, mem_filter, mem_filterMap]
  constructor
  · intro ⟨⟨line, hl, e⟩, hp⟩
    exact ⟨line, hl, e, by simpa using hp⟩
  · intro ⟨line, hl, e, hp⟩
    exact ⟨⟨line, hl, e⟩, by simpa using hp⟩

variable {date' date : Int}

theorem isRuleEligible_congr (rule : Cafe24CouponRuleInput) {productIds productIds' : List String}
    (hday : dateValue date = dateValue date') (hids : ∀ p, p ∈ productIds ↔ p ∈ productIds') :
    isRuleEligible rule (some date) productIds = isRuleEligible rule (some date') productIds' := by
  rw [Bool.eq_iff_iff, isRuleEligible_iff, isRuleEligible_iff, hday]
  simp only [hids]

/-- The rules have different ids and `localeCompare` tells them apart. -/
structure DistinctRules (localeCompare : String → String → Int)
    (rules : List Cafe24CouponRuleInput) : Prop where
  nodup : (rules.map (·.id)).Nodup
  ordered : OrdersKeys localeCompare (rules.map (·.id))

/-- **The candidates stand in one order.** -/
theorem couponCandidates_perm (hd : DistinctRules localeCompare rules) (hl : lines.Perm lines')
    (hr : rules.Perm rules') (hday : dateValue date = dateValue date') :
    couponCandidates localeCompare lines rules (some date) =
      couponCandidates localeCompare lines' rules' (some date') := by
  have hids : ∀ p, p ∈ productIdsOf lines ↔ p ∈ productIdsOf lines' := by
    intro p
    rw [mem_productIdsOf, mem_productIdsOf]
    simp only [hl.mem_iff]
  unfold couponCandidates
  rw [filter_congr fun rule _ => isRuleEligible_congr rule hday hids]
  refine hd.ordered.toIsComparator.insertionSort_eq (fun a ha b hb hab hba => ?_) (hr.filter _)
  have ha' : a ∈ rules := (mem_filter.mp ha).1
  have hb' : b ∈ rules := (mem_filter.mp hb).1
  exact inj_on_of_nodup_map hd.nodup ha' hb' (hd.ordered.tellsApart _
    (mem_map_of_mem ha') _ (mem_map_of_mem hb') hab hba)

/-! ## 3. The division -/

theorem get_basesByProductId (lines : List Cafe24CouponOrderLineInput) (p : String) :
    (basesByProductId lines).get p =
      if lines.filter (fun line => line.productId.getD "" = p) = [] then none
      else some ((lines.filter fun line => line.productId.getD "" = p).map lineBase).sum := by
  have hsum : ∀ (group : List Cafe24CouponOrderLineInput) (base : ℚ),
      group.foldl (fun base line => base + lineBase line) base = base + (group.map lineBase).sum := by
    intro group
    induction group with
    | nil => intro base; exact (add_zero base).symm
    | cons line rest ih =>
      intro base
      rw [foldl_cons, ih, map_cons, sum_cons, add_assoc]
  unfold basesByProductId
  rw [get_aggregateBy]
  cases lines.filter fun line => line.productId.getD "" = p with
  | nil => rfl
  | cons line rest =>
    rw [if_neg (cons_ne_nil line rest)]
    show some (rest.foldl _ (0 + lineBase line)) = _
    rw [hsum, zero_add, map_cons, sum_cons]

/-- **What the products weigh** is the same in any order of the lines. -/
theorem perm_basesByProductId (hl : lines.Perm lines') :
    (basesByProductId lines).entries.Perm (basesByProductId lines').entries := by
  refine OrderedMap.perm_entries_of_get_eq fun p => ?_
  have hgroup := hl.filter fun line => decide (line.productId.getD "" = p)
  rw [get_basesByProductId, get_basesByProductId, (hgroup.map lineBase).sum_eq]
  simp only [← length_eq_zero_iff, hgroup.length_eq]

theorem mem_keys_basesByProductId :
    p ∈ (basesByProductId lines).keys ↔ ∃ line ∈ lines, line.productId.getD "" = p :=
  mem_keys_aggregateBy

theorem allocateCoupon_perm (ho : OrdersKeys localeCompare (productIdsOf lines))
    (hl : lines.Perm lines') (rule : Cafe24CouponRuleInput) :
    allocateCoupon localeCompare lines rule = allocateCoupon localeCompare lines' rule := by
  unfold allocateCoupon
  rw [hl.any_eq]
  cases hscope : rule.scope with
  | PRODUCT => rfl
  | GLOBAL =>
    simp only
    split
    · rfl
    · rename_i hall
      rw [← hl.any_eq] at hall
      refine (allocateNonNegativeByWeight_perm localeCompare ?_
        ((perm_basesByProductId hl).map _) _).symm
      have hmem : ∀ p, p ∈ (basesByProductId lines).keys → p ∈ productIdsOf lines := by
        intro p hp
        obtain ⟨line, hline, e⟩ := mem_keys_basesByProductId.mp hp
        have htruthy : isTruthy line.productId = true := by
          by_contra hnot
          exact hall (any_eq_true.mpr ⟨line, hline, by simpa using hnot⟩)
        cases hid : line.productId with
        | none =>
          rw [hid] at htruthy
          exact absurd htruthy (by decide)
        | some q =>
          rw [hid] at e htruthy
          have hq : q = p := e
          exact mem_productIdsOf.mpr ⟨line, hline, by rw [hid, hq], by
            rw [← hq]
            simpa [isTruthy] using htruthy⟩
      have hkeys : ∀ p, p ∈ ((basesByProductId lines).entries.map
          fun e => (e.1, some e.2)).map (·.1) → p ∈ productIdsOf lines := by
        intro p hp
        rw [map_map] at hp
        exact hmem p hp
      exact ⟨ho.toIsComparator, fun a ha b hb =>
        ho.tellsApart a (hkeys a ha) b (hkeys b hb)⟩

/-! ## 4. The resolution -/

/-- Two resolutions that say the same of the coupon. -/
structure SameCoupon (r r' : Cafe24CouponResolution) : Prop where
  status : r'.status = r.status
  confidence : r'.confidence = r.confidence
  selectedRuleId : r'.selectedRuleId = r.selectedRuleId
  selectedRuleName : r'.selectedRuleName = r.selectedRuleName
  selectedScope : r'.selectedScope = r.selectedScope
  couponDeductionKrw : r'.couponDeductionKrw = r.couponDeductionKrw
  ignoredResidualKrw : r'.ignoredResidualKrw = r.ignoredResidualKrw
  allocationsByProductId : r'.allocationsByProductId = r.allocationsByProductId
  warningCodes : r'.warningCodes = r.warningCodes
  candidateRuleIds : r'.candidateRuleIds = r.candidateRuleIds

theorem sameCoupon_unmatched (base base' : Cafe24CouponResolution) (code : CouponWarningCode)
    (ids : List String) : SameCoupon (unmatched base code ids) (unmatched base' code ids) :=
  ⟨rfl, rfl, rfl, rfl, rfl, rfl, rfl, rfl, rfl, rfl⟩

theorem resolveWithCandidates_perm (ho : OrdersKeys localeCompare (productIdsOf lines))
    (hl : lines.Perm lines') (candidates : List Cafe24CouponRuleInput)
    (withGap withGap' : Cafe24CouponResolution) (gap : ℚ) :
    SameCoupon (resolveWithCandidates localeCompare lines candidates withGap gap)
      (resolveWithCandidates localeCompare lines' candidates withGap' gap) := by
  unfold resolveWithCandidates
  by_cases hnone : candidates.length = 0
  · rw [if_pos hnone, if_pos hnone]
    exact sameCoupon_unmatched _ _ _ _
  · rw [if_neg hnone, if_neg hnone]
    cases selectCouponRule localeCompare candidates gap with
    | none => exact sameCoupon_unmatched _ _ _ _
    | some selection =>
      simp only
      rw [← allocateCoupon_perm ho hl]
      cases allocateCoupon localeCompare lines selection.rule with
      | none | some allocations => exact ⟨rfl, rfl, rfl, rfl, rfl, rfl, rfl, rfl, rfl, rfl⟩

theorem resolveWithGap_perm (hd : DistinctRules localeCompare rules)
    (ho : OrdersKeys localeCompare (productIdsOf lines)) (hl : lines.Perm lines') (hr : rules.Perm rules')
    (hday : dateValue date = dateValue date') (withGap withGap' : Cafe24CouponResolution) (gap : ℚ) :
    SameCoupon (resolveWithGap localeCompare lines rules (some (some date)) withGap gap)
      (resolveWithGap localeCompare lines' rules' (some (some date')) withGap' gap) := by
  unfold resolveWithGap
  simp only
  rw [← (hl.filter _).length_eq, ← hl.length_eq, ← couponCandidates_perm hd hl hr hday]
  split
  · exact sameCoupon_unmatched _ _ _ _
  split
  · exact sameCoupon_unmatched _ _ _ _
  split
  · exact sameCoupon_unmatched _ _ _ _
  exact resolveWithCandidates_perm ho hl _ _ _ gap

/-- Totals that pass the check are the same on every line. -/
structure TotalsAgree (lines : List Cafe24CouponOrderLineInput) : Prop where
  totalOrder : amountsAreConsistent (lines.map (·.totalOrderKrw)) = true →
    ∀ a ∈ lines, ∀ b ∈ lines, a.totalOrderKrw = b.totalOrderKrw
  totalPaid : amountsAreConsistent (lines.map (·.totalPaidKrw)) = true →
    ∀ a ∈ lines, ∀ b ∈ lines, a.totalPaidKrw = b.totalPaidKrw

theorem firstFiniteAmount_map_perm (hl : lines.Perm lines')
    (f : Cafe24CouponOrderLineInput → Option ℚ) (hc : amountsAreConsistent (lines.map f) = true)
    (h : ∀ a ∈ lines, ∀ b ∈ lines, f a = f b) :
    firstFiniteAmount (lines.map f) = firstFiniteAmount (lines'.map f) := by
  refine firstFiniteAmount_perm (hl.map f) hc fun v hv w hw => ?_
  obtain ⟨a, ha, rfl⟩ := mem_map.mp hv
  obtain ⟨b, hb, rfl⟩ := mem_map.mp hw
  exact h a ha b hb

/-- **The order of the lines and of the rules plays no part**, unless lines of an order with a
    coupon carry totals that differ by at most a won. -/
theorem resolveCafe24CouponOrder_perm (hd : DistinctRules localeCompare rules)
    (ho : OrdersKeys localeCompare (productIdsOf lines)) (hl : lines.Perm lines')
    (hr : rules.Perm rules') (normalizeNFKC : String → String)
    (ht : couponIsDetected normalizeNFKC lines = true → TotalsAgree lines) (orderNo : String) :
    SameCoupon (resolveCafe24CouponOrder localeCompare normalizeNFKC orderNo lines rules)
      (resolveCafe24CouponOrder localeCompare normalizeNFKC orderNo lines' rules') := by
  have hdetected : couponIsDetected normalizeNFKC lines = couponIsDetected normalizeNFKC lines' :=
    hl.any_eq
  unfold resolveCafe24CouponOrder
  rw [← hdetected, ← hl.any_eq, ← hl.any_eq, ← hl.length_eq,
    ← datesAreConsistent_perm (hl.map (·.orderDate)),
    ← amountsAreConsistent_perm (hl.map (·.totalOrderKrw)),
    ← amountsAreConsistent_perm (hl.map (·.totalPaidKrw))]
  by_cases h1 : (!couponIsDetected normalizeNFKC lines) = true
  · rw [if_pos h1, if_pos h1]
    exact ⟨rfl, rfl, rfl, rfl, rfl, rfl, rfl, rfl, rfl, rfl⟩
  rw [if_neg h1, if_neg h1]
  have htotals := ht (by simpa using h1)
  by_cases h2 : (lines.any fun line => decide (line.isValid = some false)) = true
  · rw [if_pos h2, if_pos h2]
    exact sameCoupon_unmatched _ _ _ _
  rw [if_neg h2, if_neg h2]
  by_cases h3 : lines.length = 0 ∨ (lines.any fun line => line.totalOrderKrw.isNone) = true
  · rw [if_pos h3, if_pos h3]
    exact sameCoupon_unmatched _ _ _ _
  rw [if_neg h3, if_neg h3]
  by_cases h4 : (!datesAreConsistent (lines.map (·.orderDate))) = true
  · rw [if_pos h4, if_pos h4]
    exact sameCoupon_unmatched _ _ _ _
  rw [if_neg h4, if_neg h4]
  by_cases h5 : (!amountsAreConsistent (lines.map (·.totalOrderKrw))) = true
  · rw [if_pos h5, if_pos h5]
    exact sameCoupon_unmatched _ _ _ _
  rw [if_neg h5, if_neg h5]
  by_cases h6 : (!amountsAreConsistent (lines.map (·.totalPaidKrw))) = true
  · rw [if_pos h6, if_pos h6]
    exact sameCoupon_unmatched _ _ _ _
  rw [if_neg h6, if_neg h6]
  -- past the checks both orders read the same totals and days
  have hc5 : amountsAreConsistent (lines.map (·.totalOrderKrw)) = true := by simpa using h5
  have hc6 : amountsAreConsistent (lines.map (·.totalPaidKrw)) = true := by simpa using h6
  rw [← firstFiniteAmount_map_perm hl (·.totalOrderKrw) hc5 (htotals.totalOrder hc5),
    ← firstFiniteAmount_map_perm hl (·.totalPaidKrw) hc6 (htotals.totalPaid hc6)]
  obtain ⟨hne, day, hall⟩ := datesAreConsistent_iff.mp (by simpa using h4)
  obtain ⟨date, hdate, hday⟩ := day_of_firstDate hall hne
  have hall' : ∀ value ∈ lines'.map (·.orderDate), value.join.map dateValue = some day :=
    fun value hv => hall value ((hl.map _).symm.subset hv)
  have hne' : lines'.map (·.orderDate) ≠ [] := fun hnil => by
    have hperm := hl.map (·.orderDate)
    rw [hnil] at hperm
    exact hne hperm.eq_nil
  obtain ⟨date', hdate', hday'⟩ := day_of_firstDate hall' hne'
  rw [hdate, hdate']
  cases firstFiniteAmount (lines.map (·.totalOrderKrw)) with
  | none => exact sameCoupon_unmatched _ _ _ _
  | some totalOrder =>
    cases firstFiniteAmount (lines.map (·.totalPaidKrw)) with
    | none => exact sameCoupon_unmatched _ _ _ _
    | some totalPaid =>
      exact resolveWithGap_perm hd ho hl hr (hday.trans hday'.symm) _ _ _

end Locale

theorem ordersKeys_asciiCompare (keys : List String) : OrdersKeys asciiCompare keys where
  toIsComparator := isComparator_asciiCompare
  tellsApart _ _ _ _ hab hba :=
    le_antisymm (asciiCompare_le_iff.mp hab) (asciiCompare_le_iff.mp hba)

/-- A second line of the order, for another product. -/
def secondLine : Cafe24CouponOrderLineInput :=
  { couponLine 10000 9000 with productId := some "product-2" }

def secondRule : Cafe24CouponRuleInput :=
  { thousandWonRule with id := "rule-2", priority := 50 }

theorem two_lines_two_rules_swapped : SameCoupon
    (resolveCafe24CouponOrder asciiCompare id "1" [couponLine 10000 9000, secondLine]
      [thousandWonRule, secondRule])
    (resolveCafe24CouponOrder asciiCompare id "1" [secondLine, couponLine 10000 9000]
      [secondRule, thousandWonRule]) := by
  have hagree : TotalsAgree [couponLine 10000 9000, secondLine] :=
    ⟨fun _ => by decide +kernel, fun _ => by decide +kernel⟩
  exact resolveCafe24CouponOrder_perm ⟨by decide +kernel, ordersKeys_asciiCompare _⟩
    (ordersKeys_asciiCompare _) (Perm.swap _ _ _) (Perm.swap _ _ _) id (fun _ => hagree) "1"

/-- Totals of 10,000 and 10,001 won pass the check, and the line that comes first decides whether
    a residual of one won is left. -/
theorem first_total_decides :
    (resolveCafe24CouponOrder asciiCompare id "1" [couponLine 10000 9000, couponLine 10001 9000]
        [thousandWonRule]).ignoredResidualKrw = 0 ∧
      (resolveCafe24CouponOrder asciiCompare id "1" [couponLine 10001 9000, couponLine 10000 9000]
        [thousandWonRule]).ignoredResidualKrw = 1 ∧
      [couponLine 10000 9000, couponLine 10001 9000].Perm
        [couponLine 10001 9000, couponLine 10000 9000] := by
  refine ⟨by decide +kernel, by decide +kernel, Perm.swap _ _ _⟩

end AdsManagement.Cafe24.Coupon
