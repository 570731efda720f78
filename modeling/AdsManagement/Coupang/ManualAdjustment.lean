/-
  File:      Coupang/ManualAdjustment.lean
  Subject:   THE MANUAL-PURCHASE ADJUSTMENT: when the totals it returns are the reported ones less
             the manual ones, and the sums of the segments it returns.

  The amounts always come out: what is deducted from the segments adds up to the manual amount
  (`sum_deductManualSalesAmount`). The quantities do not: a target whose quantity is negative is
  set to zero before anything is deducted from it, while the total is a plain difference.

  * `sum_quantity_deducted_iff` -- the segments lose exactly the manual quantity if and only if
    the SELLER segment was not negative;
  * `manual_adjustment_consistent_iff` -- the exact condition on the rows of a product and day.
-/
import Mathlib.Algebra.Order.BigOperators.Group.List
import AdsManagement.Coupang.SalesFacts

namespace AdsManagement.Coupang

open Common Lib List

/-! ## 1. Segments -/

section Segments

variable {m m' : CoupangFulfillmentMethod} {f : CoupangSalesSegment → CoupangSalesSegment}
  {segments : List CoupangSalesSegment}

theorem map_modifySegment {β : Type} {h : CoupangSalesSegment → β} (hf : ∀ s, h (f s) = h s)
    (m : CoupangFulfillmentMethod) (segments : List CoupangSalesSegment) :
    (modifySegment m f segments).map h = segments.map h := by
  induction segments with
  | nil => rfl
  | cons s rest ih =>
    unfold modifySegment
    split
    · rw [map_cons, hf, map_cons]
    · rw [map_cons, ih, map_cons]

theorem isSome_findSegment_iff :
    (findSegment m segments).isSome = true ↔ m ∈ segments.map (·.fulfillmentMethod) := by
  rw [findSegment]
  simp

theorem sum_modifySegment {h : CoupangSalesSegment → ℚ} {d : ℚ} (hf : ∀ s, h (f s) = h s - d)
    (hm : m ∈ segments.map (·.fulfillmentMethod)) :
    ((modifySegment m f segments).map h).sum = (segments.map h).sum - d := by
  induction segments with
  | nil => exact absurd hm not_mem_nil
  | cons s rest ih =>
    unfold modifySegment
    split
    · rw [map_cons, sum_cons, hf, map_cons, sum_cons]
      ring
    · rename_i hne
      rcases mem_cons.mp hm with e | hr
      · exact absurd e.symm hne
      · rw [map_cons, sum_cons, ih hr, map_cons, sum_cons]
        ring

/-- The quantity of the segment of a method, 0 where there is none. -/
def segmentQuantity (m : CoupangFulfillmentMethod) (segments : List CoupangSalesSegment) : ℚ :=
  ((findSegment m segments).map (·.salesQuantity)).getD 0

theorem segmentQuantity_cons (s : CoupangSalesSegment) :
    segmentQuantity m (s :: segments) =
      if s.fulfillmentMethod = m then s.salesQuantity else segmentQuantity m segments := by
  unfold segmentQuantity findSegment
  by_cases h : s.fulfillmentMethod = m <;> simp [h]

theorem segmentQuantity_of_notMem (h : m ∉ segments.map (·.fulfillmentMethod)) :
    segmentQuantity m segments = 0 := by
  unfold segmentQuantity
  cases e : findSegment m segments with
  | none => rfl
  | some s => exact absurd (isSome_findSegment_iff.mp (by rw [e]; rfl)) h

theorem segmentQuantity_modify_self {q : ℚ} (hm : ∀ s, (f s).fulfillmentMethod = s.fulfillmentMethod)
    (hq : ∀ s, (f s).salesQuantity = q) (h : m ∈ segments.map (·.fulfillmentMethod)) :
    segmentQuantity m (modifySegment m f segments) = q := by
  induction segments with
  | nil => exact absurd h not_mem_nil
  | cons s rest ih =>
    unfold modifySegment
    split
    · next e => rw [segmentQuantity_cons, hm, if_pos e, hq]
    · rename_i e
      rw [segmentQuantity_cons, if_neg e]
      rcases mem_cons.mp h with e' | hr
      · exact absurd e'.symm e
      · exact ih hr

theorem segmentQuantity_modify_ne (hm : ∀ s, (f s).fulfillmentMethod = s.fulfillmentMethod)
    (hne : m' ≠ m) :
    segmentQuantity m' (modifySegment m f segments) = segmentQuantity m' segments := by
  induction segments with
  | nil => rfl
  | cons s rest ih =>
    unfold modifySegment
    split
    · rename_i e
      have h1 : s.fulfillmentMethod ≠ m' := fun e' => hne (e'.symm.trans e)
      rw [segmentQuantity_cons, hm, if_neg h1, segmentQuantity_cons, if_neg h1]
    · rw [segmentQuantity_cons, ih, segmentQuantity_cons]

/-- The quantity of a method over all segments, when no method has two. -/
theorem sum_ite_method (h : (segments.map (·.fulfillmentMethod)).Nodup) :
    (segments.map fun s => if s.fulfillmentMethod = m then s.salesQuantity else 0).sum =
      segmentQuantity m segments := by
  induction segments with
  | nil => rfl
  | cons s rest ih =>
    obtain ⟨hs, hr⟩ := nodup_cons.mp h
    rw [map_cons, sum_cons, ih hr, segmentQuantity_cons]
    split
    · next e => rw [segmentQuantity_of_notMem (e ▸ hs), add_zero]
    · rw [zero_add]

theorem sum_quantity_eq (h : (segments.map (·.fulfillmentMethod)).Nodup) :
    (segments.map (·.salesQuantity)).sum =
      segmentQuantity .SELLER segments + segmentQuantity .GROWTH segments := by
  rw [← sum_ite_method h, ← sum_ite_method h, ← sum_map_add]
  refine congrArg List.sum (map_congr_left fun s _ => ?_)
  cases s.fulfillmentMethod <;> simp

end Segments

/-! ## 2. The loop over the targets -/

theorem deductQuantity_methods (loop : DeductionLoop) (m : CoupangFulfillmentMethod) :
    (deductQuantity loop m).segments.map (·.fulfillmentMethod) =
      loop.segments.map (·.fulfillmentMethod) := by
  unfold deductQuantity
  split
  · rfl
  · exact map_modifySegment (fun s => by rfl) m loop.segments

theorem foldl_deductQuantity_methods (targets : List CoupangFulfillmentMethod) (loop : DeductionLoop) :
    (targets.foldl deductQuantity loop).segments.map (·.fulfillmentMethod) =
      loop.segments.map (·.fulfillmentMethod) := by
  induction targets generalizing loop with
  | nil => rfl
  | cons m rest ih => rw [foldl_cons, ih, deductQuantity_methods]

/-- The loop changes quantities only. -/
theorem foldl_deductQuantity_amount (field : SegmentAmount) (targets : List CoupangFulfillmentMethod)
    (loop : DeductionLoop) :
    (targets.foldl deductQuantity loop).segments.map field.get = loop.segments.map field.get := by
  induction targets generalizing loop with
  | nil => rfl
  | cons m rest ih =>
    rw [foldl_cons, ih]
    unfold deductQuantity
    split
    · rfl
    · exact map_modifySegment (fun s => by cases field <;> rfl) m loop.segments

variable {d : QuantityDeduction}

theorem mem_foldl_quantityDeductions {targets : List CoupangFulfillmentMethod} {loop : DeductionLoop}
    (h : d ∈ (targets.foldl deductQuantity loop).quantityDeductions) :
    d ∈ loop.quantityDeductions ∨ d.fulfillmentMethod ∈ targets := by
  induction targets generalizing loop with
  | nil => exact .inl h
  | cons m rest ih =>
    rcases ih h with h1 | h1
    · unfold deductQuantity at h1
      split at h1
      · exact .inl h1
      · simp only at h1
        split at h1
        · rcases mem_append.mp h1 with h2 | h2
          · exact .inl h2
          · rw [mem_singleton.mp h2]
            exact .inr (mem_cons_self ..)
        · exact .inl h1
    · exact .inr (mem_cons_of_mem _ h1)

section OneTarget

variable {loop : DeductionLoop} {m m' : CoupangFulfillmentMethod}

theorem deductQuantity_done (h : loop.remainingQuantity ≤ 0) : deductQuantity loop m = loop :=
  if_pos h

variable (loop m)

theorem deductQuantity_remaining (h : 0 < loop.remainingQuantity) :
    (deductQuantity loop m).remainingQuantity = loop.remainingQuantity -
      min (max 0 (segmentQuantity m loop.segments)) loop.remainingQuantity := by
  rw [deductQuantity, if_neg (not_le.mpr h)]
  rfl

variable {m}

theorem deductQuantity_self (h : 0 < loop.remainingQuantity)
    (hm : m ∈ loop.segments.map (·.fulfillmentMethod)) :
    segmentQuantity m (deductQuantity loop m).segments = max 0 (segmentQuantity m loop.segments) -
      min (max 0 (segmentQuantity m loop.segments)) loop.remainingQuantity := by
  rw [deductQuantity, if_neg (not_le.mpr h)]
  exact segmentQuantity_modify_self (fun _ => rfl) (fun _ => rfl) hm

theorem deductQuantity_other (hne : m' ≠ m) :
    segmentQuantity m' (deductQuantity loop m).segments = segmentQuantity m' loop.segments := by
  unfold deductQuantity
  split
  · rfl
  · exact segmentQuantity_modify_ne (fun _ => rfl) hne

end OneTarget

theorem deductionTargets_eq (segments : List CoupangSalesSegment) :
    deductionTargets segments =
      (if CoupangFulfillmentMethod.SELLER ∈ segments.map (·.fulfillmentMethod) then [.SELLER] else []) ++
      (if CoupangFulfillmentMethod.GROWTH ∈ segments.map (·.fulfillmentMethod) then [.GROWTH] else []) := by
  unfold deductionTargets
  rw [filter_cons, filter_cons]
  simp only [isSome_findSegment_iff]
  split <;> split <;> rfl

variable {segments : List CoupangSalesSegment}
variable {m : CoupangFulfillmentMethod}

theorem mem_deductionTargets :
    m ∈ deductionTargets segments ↔ m ∈ segments.map (·.fulfillmentMethod) := by
  rw [deductionTargets, mem_filter, isSome_findSegment_iff]
  cases m <;> simp

section Quantities

variable {q : ℚ}

/-- Both methods sold: the SELLER segment goes first. -/
theorem quantities_both_targets (hS : CoupangFulfillmentMethod.SELLER ∈ segments.map (·.fulfillmentMethod))
    (hG : CoupangFulfillmentMethod.GROWTH ∈ segments.map (·.fulfillmentMethod)) (hq : 0 < q)
    (hle : q ≤ segmentQuantity .SELLER segments + segmentQuantity .GROWTH segments) :
    segmentQuantity .SELLER (deductQuantity (deductQuantity ⟨segments, q, []⟩ .SELLER) .GROWTH).segments +
      segmentQuantity .GROWTH (deductQuantity (deductQuantity ⟨segments, q, []⟩ .SELLER) .GROWTH).segments =
      segmentQuantity .SELLER segments + segmentQuantity .GROWTH segments - q ↔
    0 ≤ segmentQuantity .SELLER segments := by
  have hS1 := deductQuantity_self ⟨segments, q, []⟩ hq hS
  have hr1 := deductQuantity_remaining ⟨segments, q, []⟩ .SELLER hq
  have hG1 := deductQuantity_other ⟨segments, q, []⟩
    (by decide : CoupangFulfillmentMethod.GROWTH ≠ .SELLER)
  have hmem := deductQuantity_methods ⟨segments, q, []⟩ .SELLER
  generalize deductQuantity ⟨segments, q, []⟩ .SELLER = first at *
  rw [deductQuantity_other first (by decide : CoupangFulfillmentMethod.SELLER ≠ .GROWTH), hS1]
  generalize segmentQuantity .SELLER segments = seller at *
  generalize segmentQuantity .GROWTH segments = growth at *
  rcases le_or_gt first.remainingQuantity 0 with hr | hr
  · -- the SELLER segment covered the whole quantity
    rw [deductQuantity_done hr]
    rw [hr1] at hr
    rcases le_total (max 0 seller) q with h1 | h1
    · rw [min_eq_left h1] at hr ⊢
      rcases le_total 0 seller with h2 | h2
      · rw [max_eq_right h2] at hr h1 ⊢
        constructor <;> intro <;> linarith
      · rw [max_eq_left h2] at hr
        exact absurd hr (not_le.mpr (by linarith))
    · rw [min_eq_right h1]
      rcases le_total 0 seller with h2 | h2
      · rw [max_eq_right h2]
        constructor <;> intro <;> linarith
      · rw [max_eq_left h2] at h1
        exact absurd h1 (not_le.mpr hq)
  · rw [deductQuantity_self first hr (hmem ▸ hG), hG1]
    rw [hr1] at hr ⊢
    rcases le_total (max 0 seller) q with h1 | h1
    · rw [min_eq_left h1] at hr ⊢
      rcases le_total 0 seller with h2 | h2
      · rw [max_eq_right h2] at hr h1 ⊢
        have hg : q - seller ≤ growth := by linarith
        rw [max_eq_right (by linarith), min_eq_right hg]
        constructor <;> intro <;> linarith
      · rw [max_eq_left h2] at hr ⊢
        rw [max_eq_right (by linarith), min_eq_right (by linarith)]
        constructor <;> intro <;> linarith
    · rw [min_eq_right h1, sub_self] at hr
      exact absurd hr (lt_irrefl 0)

/-- One method sold: its segment covers the whole quantity. -/
theorem quantity_one_target (hm : m ∈ segments.map (·.fulfillmentMethod)) (hq : 0 < q)
    (hle : q ≤ segmentQuantity m segments) :
    segmentQuantity m (deductQuantity ⟨segments, q, []⟩ m).segments = segmentQuantity m segments - q := by
  have h := deductQuantity_self ⟨segments, q, []⟩ hq hm
  have h0 : 0 ≤ segmentQuantity m segments := by linarith
  simp only [max_eq_right h0] at h
  rw [h, min_eq_right hle]

/-- **The segments lose exactly the manual quantity if and only if the SELLER segment was not
    negative.** -/
theorem sum_quantity_deducted_iff (hnd : (segments.map (·.fulfillmentMethod)).Nodup) (hq : 0 < q)
    (hle : q ≤ (segments.map (·.salesQuantity)).sum) :
    (((deductionTargets segments).foldl deductQuantity ⟨segments, q, []⟩).segments.map
      (·.salesQuantity)).sum = (segments.map (·.salesQuantity)).sum - q ↔
    0 ≤ segmentQuantity .SELLER segments := by
  have hnd' : (((deductionTargets segments).foldl deductQuantity ⟨segments, q, []⟩).segments.map
      (·.fulfillmentMethod)).Nodup := by
    rw [foldl_deductQuantity_methods]
    exact hnd
  rw [sum_quantity_eq hnd] at hle
  rw [sum_quantity_eq hnd', sum_quantity_eq hnd, deductionTargets_eq]
  by_cases hS : CoupangFulfillmentMethod.SELLER ∈ segments.map (·.fulfillmentMethod)
  · by_cases hG : CoupangFulfillmentMethod.GROWTH ∈ segments.map (·.fulfillmentMethod)
    · rw [if_pos hS, if_pos hG]
      exact quantities_both_targets hS hG hq hle
    · rw [if_pos hS, if_neg hG]
      have hG0 := segmentQuantity_of_notMem hG
      rw [hG0, add_zero] at hle
      simp only [append_nil, foldl_cons, foldl_nil]
      rw [quantity_one_target hS hq hle, deductQuantity_other _ (by decide)]
      constructor <;> intro <;> linarith
  · have hS0 := segmentQuantity_of_notMem hS
    rw [hS0, zero_add] at hle
    by_cases hG : CoupangFulfillmentMethod.GROWTH ∈ segments.map (·.fulfillmentMethod)
    · rw [if_neg hS, if_pos hG]
      simp only [nil_append, foldl_cons, foldl_nil]
      rw [quantity_one_target hG hq hle, deductQuantity_other _ (by decide)]
      constructor <;> intro <;> linarith
    · rw [segmentQuantity_of_notMem hG] at hle
      exact absurd hle (not_le.mpr hq)

end Quantities

/-! ## 3. The amounts -/

theorem foldl_modifySegment_sum (field : SegmentAmount) (l : List (QuantityDeduction × ℚ))
    (h : ∀ d ∈ l, d.1.fulfillmentMethod ∈ segments.map (·.fulfillmentMethod)) :
    ((l.foldl (fun segments d => modifySegment d.1.fulfillmentMethod
      (fun s => field.set (field.get s - d.2) s) segments) segments).map field.get).sum =
      (segments.map field.get).sum - (l.map (·.2)).sum := by
  induction l generalizing segments with
  | nil => simp
  | cons d rest ih =>
    have hkeep := map_modifySegment (h := (·.fulfillmentMethod))
      (f := fun s => field.set (field.get s - d.2) s) (fun s => by cases field <;> rfl)
      d.1.fulfillmentMethod segments
    rw [foldl_cons, ih fun e he => hkeep ▸ h e (mem_cons_of_mem _ he),
      sum_modifySegment (d := d.2) (fun s => by cases field <;> rfl) (h d (mem_cons_self ..)),
      map_cons, sum_cons]
    ring

/-- What a deduction of one field leaves alone. -/
theorem map_deductManualSalesAmount {β : Type} {h : CoupangSalesSegment → β} {field : SegmentAmount}
    (hf : ∀ v s, h (field.set v s) = h s) (deductions : List QuantityDeduction) (a : ℚ)
    (segments : List CoupangSalesSegment) :
    (deductManualSalesAmount deductions a field segments).map h = segments.map h := by
  unfold deductManualSalesAmount
  simp only
  generalize deductions.zip _ = l
  induction l generalizing segments with
  | nil => rfl
  | cons d rest ih =>
    rw [foldl_cons, ih]
    exact map_modifySegment (fun s => hf _ s) _ segments

/-- **The deductions of an amount add up to it.** -/
theorem sum_deductManualSalesAmount {deductions : List QuantityDeduction} (hne : deductions ≠ []) (a : ℚ)
    (field : SegmentAmount) (h : ∀ d ∈ deductions, d.fulfillmentMethod ∈ segments.map (·.fulfillmentMethod)) :
    ((deductManualSalesAmount deductions a field segments).map field.get).sum =
      (segments.map field.get).sum - max 0 a := by
  have hw : deductions.map (·.quantity) ≠ [] := by simpa using hne
  have hlen : (deductions.map (availableAmount field segments)).length =
      (deductions.map (·.quantity)).length := by simp
  have hsum := sum_cappedShares (max 0 a) hw hlen
  have hl := length_cappedShares (max 0 a) hlen
  unfold deductManualSalesAmount
  rw [foldl_modifySegment_sum field _ fun d hd => h d.1 (of_mem_zip hd).1,
    map_snd_zip (by simpa using hl.le), hsum]

section Amounts

variable {q a : ℚ}

/-- The loop of the purchase over the segments. -/
def deductionLoop (segments : List CoupangSalesSegment) (q : ℚ) : DeductionLoop :=
  (deductionTargets segments).foldl deductQuantity ⟨segments, q, []⟩

theorem deductionTargets_ne_nil (hs : segments ≠ []) : deductionTargets segments ≠ [] := by
  obtain ⟨s, rest, rfl⟩ := exists_cons_of_ne_nil hs
  exact ne_nil_of_mem (mem_deductionTargets.mpr (mem_cons_self ..))

theorem deductManualPurchase_eq (hq : 0 < q) (hs : segments ≠ []) :
    deductManualPurchaseFromReportedSegments segments q (some a) =
      deductManualSalesAmount
        (salesDeductions (deductionTargets segments) (deductionLoop segments q).quantityDeductions) a
        .netSalesKrw
        (deductManualSalesAmount
          (salesDeductions (deductionTargets segments) (deductionLoop segments q).quantityDeductions) a
          .salesKrw (deductionLoop segments q).segments) := by
  have hlen : segments.length ≠ 0 := fun e => hs (length_eq_zero_iff.mp e)
  have ht : 0 < (deductionTargets segments).length :=
    length_pos_iff.mpr (deductionTargets_ne_nil hs)
  unfold deductManualPurchaseFromReportedSegments
  rw [if_neg (not_or.mpr ⟨not_le.mpr hq, hlen⟩)]
  simp only
  rw [if_pos ht]
  rfl

theorem salesDeductions_ne_nil (hs : segments ≠ []) :
    salesDeductions (deductionTargets segments) (deductionLoop segments q).quantityDeductions ≠ [] := by
  unfold salesDeductions
  split
  · next h => exact length_pos_iff.mp h
  · rw [getLast?_eq_some_getLast (deductionTargets_ne_nil hs)]
    exact cons_ne_nil _ _

theorem mem_salesDeductions
    (h : d ∈ salesDeductions (deductionTargets segments) (deductionLoop segments q).quantityDeductions) :
    d.fulfillmentMethod ∈ (deductionLoop segments q).segments.map (·.fulfillmentMethod) := by
  unfold deductionLoop
  rw [foldl_deductQuantity_methods]
  refine mem_deductionTargets.mp ?_
  unfold salesDeductions at h
  split at h
  · rcases mem_foldl_quantityDeductions h with h1 | h1
    · exact absurd h1 not_mem_nil
    · exact h1
  · obtain ⟨m, hm, rfl⟩ := mem_map.mp h
    exact mem_of_getLast? (Option.mem_toList.mp hm)

/-- The amounts of the segments go down by the amount of the purchase. -/
theorem sum_amount_deducted (field : SegmentAmount) (hq : 0 < q) (hs : segments ≠ []) :
    ((deductManualPurchaseFromReportedSegments segments q (some a)).map field.get).sum =
      (segments.map field.get).sum - max 0 a := by
  have hne := salesDeductions_ne_nil (q := q) hs
  have hmem : ∀ d ∈ salesDeductions (deductionTargets segments)
      (deductionLoop segments q).quantityDeductions,
      d.fulfillmentMethod ∈ (deductionLoop segments q).segments.map (·.fulfillmentMethod) :=
    fun d hd => mem_salesDeductions hd
  have hloop := foldl_deductQuantity_amount field (deductionTargets segments) ⟨segments, q, []⟩
  rw [deductManualPurchase_eq hq hs]
  cases field with
  | salesKrw =>
    rw [map_deductManualSalesAmount (fun _ _ => rfl), sum_deductManualSalesAmount hne a .salesKrw hmem]
    exact congrArg (·.sum - max 0 a) hloop
  | netSalesKrw =>
    have hmem' : ∀ d ∈ salesDeductions (deductionTargets segments)
        (deductionLoop segments q).quantityDeductions, d.fulfillmentMethod ∈
        (deductManualSalesAmount (salesDeductions (deductionTargets segments)
          (deductionLoop segments q).quantityDeductions) a .salesKrw
          (deductionLoop segments q).segments).map (·.fulfillmentMethod) := fun d hd => by
      rw [map_deductManualSalesAmount fun _ _ => rfl]
      exact hmem d hd
    rw [sum_deductManualSalesAmount hne a .netSalesKrw hmem', map_deductManualSalesAmount fun _ _ => rfl]
    exact congrArg (·.sum - max 0 a) hloop

theorem map_quantity_deducted (hq : 0 < q) (hs : segments ≠ []) :
    (deductManualPurchaseFromReportedSegments segments q (some a)).map (·.salesQuantity) =
      (deductionLoop segments q).segments.map (·.salesQuantity) := by
  rw [deductManualPurchase_eq hq hs, map_deductManualSalesAmount fun _ _ => rfl,
    map_deductManualSalesAmount fun _ _ => rfl]

end Amounts

/-! ## 4. Blocking warnings -/

theorem hasBlocking_append (a b : List String) :
    hasBlockingManualSalesWarning (a ++ b) =
      (hasBlockingManualSalesWarning a || hasBlockingManualSalesWarning b) := any_append

variable {w : String}

theorem mem_unique_map_some {warnings : List String} :
    w ∈ unique (warnings.map some) ↔ w ∈ warnings ∧ w ≠ "" := by
  unfold unique
  simp

theorem hasBlocking_unique (warnings : List String) :
    hasBlockingManualSalesWarning (unique (warnings.map some)) =
      hasBlockingManualSalesWarning warnings := by
  rw [Bool.eq_iff_iff, hasBlockingManualSalesWarning, hasBlockingManualSalesWarning,
    any_eq_true, any_eq_true]
  constructor
  · intro ⟨w, hw, hb⟩
    exact ⟨w, (mem_unique_map_some.mp hw).1, hb⟩
  · intro ⟨w, hw, hb⟩
    refine ⟨w, mem_unique_map_some.mpr ⟨hw, fun e => ?_⟩, hb⟩
    rw [e] at hb
    exact absurd hb (by decide)

theorem hasBlocking_pushWarning {c : Prop} [Decidable c] (hw : hasBlockingManualSalesWarning [w] = true)
    (warnings : List String) :
    hasBlockingManualSalesWarning (pushWarning c w warnings) =
      (hasBlockingManualSalesWarning warnings || decide c) := by
  have hc : blockingManualSalesWarnings.contains w = true := by
    simpa [hasBlockingManualSalesWarning] using hw
  unfold pushWarning
  by_cases h : c
  · by_cases hm : warnings.contains w = true
    · -- the warning is there already, so the list blocks without it
      have hb : hasBlockingManualSalesWarning warnings = true :=
        any_eq_true.mpr ⟨w, contains_iff_mem.mp hm, hc⟩
      rw [if_neg fun e => by rw [hm] at e; exact (nomatch e.2), hb]
      rfl
    · rw [if_pos ⟨h, by simpa using hm⟩, hasBlocking_append, hw]
      simp [h]
  · simp [h]

theorem hasBlocking_ite (c : Prop) [Decidable c] (hw : hasBlockingManualSalesWarning [w] = true) :
    hasBlockingManualSalesWarning (if c then [w] else []) = decide c := by
  by_cases h : c
  · rw [if_pos h, hw]
    simp [h]
  · simp [h, hasBlockingManualSalesWarning]

variable {p : ManualPurchaseFactInput}

theorem resolve_zero (h : p.quantity = 0) :
    resolveManualPurchaseSalesAmount p = ⟨some 0, .STORED, []⟩ := if_pos h

theorem positiveOrNull_eq_some {v : Option ℚ} {x : ℚ} (h : positiveOrNull v = some x) : 0 < x := by
  have := (Option.filter_eq_some_iff.mp h).2
  simpa using this

variable {a : ℚ}

/-- A purchase of something has a positive amount, or none that is known. -/
theorem resolve_pos (h : p.quantity ≠ 0) (ha : (resolveManualPurchaseSalesAmount p).salesAmountKrw = some a) :
    0 < a := by
  unfold resolveManualPurchaseSalesAmount at ha
  rw [if_neg h] at ha
  split at ha
  · next stored hs => cases ha; exact positiveOrNull_eq_some hs
  · split at ha
    · rename_i base hb
      split at ha
      · next hq => cases ha; exact mul_pos (positiveOrNull_eq_some hb) hq.2
      · exact (nomatch ha)
    · exact (nomatch ha)

theorem resolve_nonneg (ha : (resolveManualPurchaseSalesAmount p).salesAmountKrw = some a) :
    0 ≤ a := by
  by_cases h : p.quantity = 0
  · rw [resolve_zero h] at ha
    cases ha
    exact le_refl 0
  · exact (resolve_pos h ha).le

theorem hasBlocking_resolve (p : ManualPurchaseFactInput) :
    hasBlockingManualSalesWarning (resolveManualPurchaseSalesAmount p).warnings =
      (resolveManualPurchaseSalesAmount p).salesAmountKrw.isNone := by
  unfold resolveManualPurchaseSalesAmount
  split
  · rfl
  · split
    · rfl
    · split
      · split
        · exact (by decide : hasBlockingManualSalesWarning
            ["MANUAL_PURCHASE_SALES_AMOUNT_LEGACY_FALLBACK"] = false)
        · exact (by decide : hasBlockingManualSalesWarning
            ["MANUAL_PURCHASE_SALES_AMOUNT_MISSING"] = true)
      · exact (by decide : hasBlockingManualSalesWarning
          ["MANUAL_PURCHASE_SALES_AMOUNT_MISSING"] = true)

theorem hasBlocking_manualCostWarnings (stored total : Option ℚ) :
    hasBlockingManualSalesWarning (manualCostWarnings stored total) = false := by
  unfold manualCostWarnings
  split
  · split
    · decide
    · rfl
  · decide

theorem hasBlocking_manualFacts (first : ManualPurchaseFactInput)
    (rest : List ManualPurchaseFactInput) :
    hasBlockingManualSalesWarning (manualPurchaseFacts first rest).warnings =
      hasBlockingManualSalesWarning (manualSalesWarnings (first :: rest)) := by
  show hasBlockingManualSalesWarning (unique ((_ ++ manualCostWarnings _ _).map some)) = _
  rw [hasBlocking_unique, hasBlocking_append, hasBlocking_manualCostWarnings, Bool.or_false]

/-- Two purchases of one key always block. -/
theorem hasBlocking_two (p p' : ManualPurchaseFactInput) (rest : List ManualPurchaseFactInput) :
    hasBlockingManualSalesWarning (manualPurchaseFacts p (p' :: rest)).warnings = true := by
  rw [hasBlocking_manualFacts, manualSalesWarnings, hasBlocking_append, hasBlocking_append,
    hasBlocking_ite _ (by decide)]
  simp

theorem hasBlocking_one_eq_false_iff (p : ManualPurchaseFactInput) :
    hasBlockingManualSalesWarning (manualPurchaseFacts p []).warnings = false ↔
      (resolveManualPurchaseSalesAmount p).salesAmountKrw.isSome = true ∧
        p.quantity.isInt = true ∧ 0 ≤ p.quantity := by
  rw [hasBlocking_manualFacts, manualSalesWarnings, hasBlocking_append, hasBlocking_append,
    hasBlocking_ite _ (by decide), hasBlocking_ite _ (by decide), map_singleton,
    flatMap_singleton, hasBlocking_resolve]
  cases (resolveManualPurchaseSalesAmount p).salesAmountKrw <;> simp

/-! ## 5. Totals and segments -/

def manualAmount (manual : Option ManualPurchaseFacts) : Option ℚ :=
  match manual with
  | none => some 0
  | some facts => facts.salesAmountKrw

def manualQuantity (manual : Option ManualPurchaseFacts) : ℚ := (manual.map (·.quantity)).getD 0

/-- The totals are the reported ones less the manual ones, and the sums of the segments. -/
structure TotalsMatch (reported : ReportedSalesFacts) (manual : Option ManualPurchaseFacts)
    (actual : ActualSalesFacts) : Prop where
  salesKrw : actual.salesKrw = (manualAmount manual).map (reported.salesKrw - ·)
  netSalesKrw : actual.netSalesKrw = (manualAmount manual).map (reported.netSalesKrw - ·)
  salesQuantity : actual.salesQuantity = some (reported.salesQuantity - manualQuantity manual)
  segmentSales : actual.salesKrw = some (actual.segments.map (·.salesKrw)).sum
  segmentNet : actual.netSalesKrw = some (actual.segments.map (·.netSalesKrw)).sum
  segmentQuantity : actual.salesQuantity = some (actual.segments.map (·.salesQuantity)).sum

/-- What the adjustment promises when it calls itself valid. -/
def AdjustmentConsistent (reported : ReportedSalesFacts) (manual : Option ManualPurchaseFacts) : Prop :=
  (adjustReportedSalesForManualPurchase reported manual).isValid = true →
    TotalsMatch reported manual (adjustReportedSalesForManualPurchase reported manual)

def sellerQuantity (rows : List ReportedSalesFactInput) : ℚ :=
  ((rows.filter fun row => normalizeCoupangFulfillmentMethod row.saleMethod = .SELLER).map
    (·.salesQuantity)).sum

/-- The condition on the sale rows and the purchases of one product and day. -/
structure AdjustsExactly (rows : List ReportedSalesFactInput)
    (purchases : List ManualPurchaseFactInput) : Prop where
  /-- Quantities of the purchases do not cancel out. -/
  noCancelling : (purchases.map (·.quantity)).sum = 0 → ∀ p ∈ purchases, p.quantity = 0
  /-- Where a single purchase can be taken out of the reported sales, the SELLER rows do not
      report a negative quantity in total. -/
  sellerNotNegative : ∀ p a, purchases = [p] → rows ≠ [] → p.quantity.isInt = true →
    0 < p.quantity → p.quantity ≤ (rows.map (·.salesQuantity)).sum →
    (resolveManualPurchaseSalesAmount p).salesAmountKrw = some a →
    a ≤ (rows.map (·.salesKrw)).sum → a ≤ (rows.map (·.netSalesKrw)).sum → 0 ≤ sellerQuantity rows

/-- What the facts of a list of rows say. -/
structure FactsOf (rows : List ReportedSalesFactInput) (facts : ReportedSalesFacts) : Prop where
  synced : facts.Synced
  hasReportedRows : facts.hasReportedRows = !rows.isEmpty
  salesKrw : facts.salesKrw = (rows.map (·.salesKrw)).sum
  netSalesKrw : facts.netSalesKrw = (rows.map (·.netSalesKrw)).sum
  salesQuantity : facts.salesQuantity = (rows.map (·.salesQuantity)).sum
  sellerQuantity : segmentQuantity .SELLER facts.segments = sellerQuantity rows

theorem sellerQuantity_eq (rows : List ReportedSalesFactInput) :
    sellerQuantity rows = (rows.map fun row =>
      if normalizeCoupangFulfillmentMethod row.saleMethod = .SELLER then row.salesQuantity else 0).sum := by
  unfold sellerQuantity
  induction rows with
  | nil => rfl
  | cons row rest ih =>
    rw [filter_cons, map_cons, sum_cons, ← ih]
    split
    · next h => rw [if_pos (by simpa using h), map_cons, sum_cons]
    · next h => rw [if_neg (by simpa using h), zero_add]

theorem factsOf_foldl (rows : List ReportedSalesFactInput) (productId date productName : String) :
    FactsOf rows (rows.foldl addReportedSalesRow
      (emptyReportedSalesFacts productId date productName)) := by
  have hsync := (synced_empty productId date productName).foldl rows
  refine ⟨hsync, ?_, ?_, ?_, ?_, ?_⟩
  · rw [hasReportedRows_foldl]
    rfl
  · rw [hsync.salesKrw, sum_foldl_addReportedSalesRow (g := (·.salesKrw)) (fun _ _ _ => rfl)
      (fun _ => rfl)]
    exact zero_add _
  · rw [hsync.netSalesKrw, sum_foldl_addReportedSalesRow (g := (·.netSalesKrw)) (fun _ _ _ => rfl)
      (fun _ => rfl)]
    exact zero_add _
  · rw [hsync.salesQuantity, sum_foldl_addReportedSalesRow (g := (·.salesQuantity))
      (fun _ _ _ => rfl) (fun _ => rfl)]
    exact zero_add _
  · have hrow : ∀ (row : ReportedSalesFactInput) (s : CoupangSalesSegment),
        s.fulfillmentMethod = normalizeCoupangFulfillmentMethod row.saleMethod →
        (if (addRowToSegment row s).fulfillmentMethod = .SELLER then
          (addRowToSegment row s).salesQuantity else 0) =
        (if s.fulfillmentMethod = .SELLER then s.salesQuantity else 0) +
          (if normalizeCoupangFulfillmentMethod row.saleMethod = .SELLER then row.salesQuantity
          else 0) := fun row s h => by
      rw [← h]
      cases hm : s.fulfillmentMethod <;> simp [addRowToSegment, hm]
    rw [← sum_ite_method hsync.nodup, sum_foldl_addReportedSalesRow hrow
      (fun m => by cases m <;> rfl), sellerQuantity_eq]
    exact zero_add _

/-- The segments the adjustment starts from are those of the facts. -/
theorem ReportedSalesFacts.Synced.resolvedReportedSegments_eq {facts : ReportedSalesFacts}
    (h : facts.Synced) : resolvedReportedSegments facts = facts.segments := by
  unfold resolvedReportedSegments
  by_cases hs : facts.segments = []
  · have hr : facts.hasReportedRows = false := by
      cases e : facts.hasReportedRows with
      | false => rfl
      | true => exact absurd hs (h.nonempty e)
    have h1 := h.salesKrw
    have h2 := h.netSalesKrw
    have h3 := h.salesQuantity
    rw [hs] at h1 h2 h3
    rw [if_neg (not_not.mpr hs), if_pos ⟨by rw [hr]; rfl, h1, h2, h3⟩, hs]
  · rw [if_pos hs]

section Exact

variable {rows : List ReportedSalesFactInput} {reported : ReportedSalesFacts}

/-- The adjustment that changes nothing. -/
def unadjustedSales (reported : ReportedSalesFacts) : ActualSalesFacts where
  salesKrw := some reported.salesKrw
  netSalesKrw := some reported.netSalesKrw
  salesQuantity := some reported.salesQuantity
  orderCount := reported.orderCount
  segments := resolvedReportedSegments reported
  warnings := []
  isValid := true
  isManualOnly := false

variable {m : ManualPurchaseFacts}

theorem adjust_quantity_zero (h : m.quantity = 0) :
    adjustReportedSalesForManualPurchase reported (some m) = unadjustedSales reported := if_pos h

/-- Nothing is taken out: the totals match exactly when the manual amount is 0. -/
theorem totalsMatch_unadjusted_iff (h : FactsOf rows reported)
    (manual : Option ManualPurchaseFacts) (hq : manualQuantity manual = 0) :
    TotalsMatch reported manual (unadjustedSales reported) ↔ manualAmount manual = some 0 := by
  constructor
  · intro ht
    have hs := ht.salesKrw
    cases ha : manualAmount manual with
    | none => rw [ha] at hs; exact (nomatch hs)
    | some a =>
      rw [ha] at hs
      have e : reported.salesKrw = reported.salesKrw - a := Option.some.inj hs
      rw [show a = 0 by linarith]
  · intro ha
    have hseg := h.synced.resolvedReportedSegments_eq
    refine ⟨?_, ?_, ?_, ?_, ?_, ?_⟩
    · rw [ha, Option.map_some, sub_zero]
      rfl
    · rw [ha, Option.map_some, sub_zero]
      rfl
    · rw [hq, sub_zero]
      rfl
    · show some reported.salesKrw = some ((resolvedReportedSegments reported).map _).sum
      rw [hseg, h.synced.salesKrw]
    · show some reported.netSalesKrw = some ((resolvedReportedSegments reported).map _).sum
      rw [hseg, h.synced.netSalesKrw]
    · show some reported.salesQuantity = some ((resolvedReportedSegments reported).map _).sum
      rw [hseg, h.synced.salesQuantity]

/-- The amounts of purchases add up to 0 exactly when nothing was purchased. -/
theorem strictSum_amounts_eq_zero_iff (ps : List ManualPurchaseFactInput) :
    strictSum (ps.map fun p => (resolveManualPurchaseSalesAmount p).salesAmountKrw) = some 0 ↔
      ∀ p ∈ ps, p.quantity = 0 := by
  constructor
  · intro h p hp
    have hsome : ∀ v ∈ ps.map (fun p => (resolveManualPurchaseSalesAmount p).salesAmountKrw),
        v ≠ none := fun v hv e => by
      rw [strictSum_eq_none_iff.mpr (e ▸ hv)] at h
      exact (nomatch h)
    rw [strictSum_of_all_some hsome] at h
    have hsum := Option.some.inj h
    by_contra hq
    -- every amount is at least 0, and the one of `p` is above
    have hnn : ∀ x ∈ (ps.map fun p => (resolveManualPurchaseSalesAmount p).salesAmountKrw).map
        (·.getD 0), 0 ≤ x := by
      intro x hx
      obtain ⟨v, hv, rfl⟩ := mem_map.mp hx
      obtain ⟨r, _, rfl⟩ := mem_map.mp hv
      cases e : (resolveManualPurchaseSalesAmount r).salesAmountKrw with
      | none => exact le_refl 0
      | some a => exact resolve_nonneg e
    obtain ⟨a, ha⟩ := Option.ne_none_iff_exists'.mp (hsome _ (mem_map_of_mem hp))
    have hmem : a ∈ (ps.map fun p => (resolveManualPurchaseSalesAmount p).salesAmountKrw).map
        (·.getD 0) := mem_map.mpr ⟨_, mem_map_of_mem hp, by rw [ha]; rfl⟩
    have hle := single_le_sum hnn a hmem
    exact absurd (resolve_pos hq ha) (not_lt.mpr (hsum ▸ hle))
  · intro h
    have e : ps.map (fun p => (resolveManualPurchaseSalesAmount p).salesAmountKrw) =
        ps.map fun _ => some 0 :=
      map_congr_left fun p hp => by rw [resolve_zero (h p hp)]
    rw [e, strictSum_of_all_some (fun v hv => by
      obtain ⟨_, _, rfl⟩ := mem_map.mp hv
      exact Option.some_ne_none 0)]
    simp

theorem hasBlocking_adjustmentWarnings (reported : ReportedSalesFacts) (m : ManualPurchaseFacts)
    (sales net : Option ℚ) (quantity : ℚ) :
    hasBlockingManualSalesWarning (adjustmentWarnings reported m sales net quantity) = false ↔
      hasBlockingManualSalesWarning m.warnings = false ∧ m.quantity ≤ reported.salesQuantity ∧
      m.salesAmountKrw.any (reported.salesKrw < ·) = false ∧ 0 ≤ quantity ∧
      sales.any (· < 0) = false ∧ net.any (· < 0) = false := by
  unfold adjustmentWarnings
  rw [hasBlocking_append, hasBlocking_pushWarning (by decide), hasBlocking_pushWarning (by decide),
    hasBlocking_append, hasBlocking_append, hasBlocking_ite _ (by decide),
    hasBlocking_ite _ (by decide), hasBlocking_ite _ (by decide)]
  simp [and_assoc]

theorem adjust_reported (hq : m.quantity ≠ 0) (hr : reported.hasReportedRows = true) :
    adjustReportedSalesForManualPurchase reported (some m) =
      let segments := deductManualPurchaseFromReportedSegments (resolvedReportedSegments reported)
        m.quantity m.salesAmountKrw
      let sales := m.salesAmountKrw.map fun _ => (segments.map (·.salesKrw)).sum
      let net := m.salesAmountKrw.map fun _ => (segments.map (·.netSalesKrw)).sum
      let quantity := reported.salesQuantity - m.quantity
      let warnings := adjustmentWarnings reported m sales net quantity
      { salesKrw := sales
        netSalesKrw := net
        salesQuantity := some quantity
        orderCount := reported.orderCount
        segments
        warnings := unique (warnings.map some)
        isValid := !hasBlockingManualSalesWarning warnings
        isManualOnly := false } := by
  unfold adjustReportedSalesForManualPurchase
  simp only [if_neg hq, hr, sumCoupangSalesSegments_eq]
  rfl

/-- A day without reported rows is never valid under a purchase. -/
theorem isValid_manualOnly (hq : m.quantity ≠ 0) (hr : reported.hasReportedRows = false) :
    (adjustReportedSalesForManualPurchase reported (some m)).isValid = false := by
  unfold adjustReportedSalesForManualPurchase
  simp only [if_neg hq, hr]
  rw [hasBlocking_append, show hasBlockingManualSalesWarning
    ["MANUAL_PURCHASE_WITHOUT_REPORTED_SALES"] = true by decide, Bool.or_true]
  rfl

theorem manualFacts_quantity (p : ManualPurchaseFactInput) (rest : List ManualPurchaseFactInput) :
    (manualPurchaseFacts p rest).quantity = ((p :: rest).map (·.quantity)).sum := plainSum_eq_sum _

theorem manualFacts_one_amount (p : ManualPurchaseFactInput) :
    (manualPurchaseFacts p []).salesAmountKrw = (resolveManualPurchaseSalesAmount p).salesAmountKrw :=
  strictSum_singleton _

section

variable (h : FactsOf rows reported) (hrows : rows ≠ [])
include h hrows

theorem FactsOf.hasRows : reported.hasReportedRows = true := by
  rw [h.hasReportedRows, isEmpty_eq_false_iff.mpr hrows]
  rfl

/-- A purchase that cannot be resolved, or is not a count, is never taken out. -/
theorem isValid_one_iff (hq : p.quantity ≠ 0) :
    (adjustReportedSalesForManualPurchase reported (some (manualPurchaseFacts p []))).isValid = true ↔
      ∃ a, (resolveManualPurchaseSalesAmount p).salesAmountKrw = some a ∧ p.quantity.isInt = true ∧
        0 < p.quantity ∧ p.quantity ≤ (rows.map (·.salesQuantity)).sum ∧
        a ≤ (rows.map (·.salesKrw)).sum ∧ a ≤ (rows.map (·.netSalesKrw)).sum := by
  have hr := h.hasRows hrows
  have hsegs := h.synced.nonempty hr
  have hqty : (manualPurchaseFacts p []).quantity = p.quantity := by
    rw [manualFacts_quantity, map_singleton, sum_singleton]
  rw [adjust_reported (by rw [hqty]; exact hq) hr]
  simp only [Bool.not_eq_true']
  rw [hasBlocking_adjustmentWarnings, hasBlocking_one_eq_false_iff, manualFacts_one_amount, hqty,
    h.synced.resolvedReportedSegments_eq, ← h.salesQuantity, ← h.salesKrw, ← h.netSalesKrw]
  cases ha : (resolveManualPurchaseSalesAmount p).salesAmountKrw with
  | none => simp
  | some a =>
    by_cases hp : 0 < p.quantity
    · have hs := sum_amount_deducted (a := a) .salesKrw hp hsegs
      have hn := sum_amount_deducted (a := a) .netSalesKrw hp hsegs
      rw [max_eq_right (resolve_nonneg ha)] at hs hn
      have hs' : ((deductManualPurchaseFromReportedSegments reported.segments p.quantity
          (some a)).map (·.salesKrw)).sum = reported.salesKrw - a := by
        rw [h.synced.salesKrw]
        exact hs
      have hn' : ((deductManualPurchaseFromReportedSegments reported.segments p.quantity
          (some a)).map (·.netSalesKrw)).sum = reported.netSalesKrw - a := by
        rw [h.synced.netSalesKrw]
        exact hn
      simp only [Option.map_some, Option.any_some, hs', hn', Option.isSome_some, true_and,
        decide_eq_false_iff_not, not_lt, Option.some.injEq, exists_eq_left', sub_nonneg, hp]
      constructor
      · intro ⟨⟨hi, _⟩, h2, h3, _, _, h6⟩
        exact ⟨hi, h2, h3, h6⟩
      · intro ⟨hi, h2, h3, h6⟩
        exact ⟨⟨hi, hp.le⟩, h2, h3, h2, h3, h6⟩
    · constructor
      · intro hv
        exact absurd (lt_of_le_of_ne hv.1.2.2 (Ne.symm hq)) hp
      · intro ⟨_, _, _, hpos, _⟩
        exact absurd hpos hp

/-- **A valid adjustment matches exactly when the SELLER rows are not negative in total.** -/
theorem totalsMatch_one_iff
    (ha : (resolveManualPurchaseSalesAmount p).salesAmountKrw = some a) (hq : 0 < p.quantity)
    (hle : p.quantity ≤ (rows.map (·.salesQuantity)).sum) :
    TotalsMatch reported (some (manualPurchaseFacts p []))
      (adjustReportedSalesForManualPurchase reported (some (manualPurchaseFacts p []))) ↔
    0 ≤ sellerQuantity rows := by
  have hr := h.hasRows hrows
  have hsegs := h.synced.nonempty hr
  have hqty : (manualPurchaseFacts p []).quantity = p.quantity := by
    rw [manualFacts_quantity, map_singleton, sum_singleton]
  have hamt : (manualPurchaseFacts p []).salesAmountKrw = some a := (manualFacts_one_amount p).trans ha
  have hs := sum_amount_deducted (a := a) .salesKrw hq hsegs
  have hn := sum_amount_deducted (a := a) .netSalesKrw hq hsegs
  rw [max_eq_right (resolve_nonneg ha)] at hs hn
  have hqs := sum_quantity_deducted_iff h.synced.nodup hq
    (by rw [← h.synced.salesQuantity, h.salesQuantity]; exact hle)
  rw [h.sellerQuantity] at hqs
  rw [adjust_reported (by rw [hqty]; exact hq.ne') hr]
  simp only [hqty, hamt, h.synced.resolvedReportedSegments_eq]
  constructor
  · intro ht
    refine hqs.mp ?_
    have hsum := Option.some.inj ht.segmentQuantity
    rw [map_quantity_deducted hq hsegs, h.synced.salesQuantity] at hsum
    exact hsum.symm
  · intro h0
    refine ⟨?_, ?_, ?_, rfl, rfl, ?_⟩
    · show some _ = (manualPurchaseFacts p []).salesAmountKrw.map _
      rw [hamt, h.synced.salesKrw]
      exact congrArg some hs
    · show some _ = (manualPurchaseFacts p []).salesAmountKrw.map _
      rw [hamt, h.synced.netSalesKrw]
      exact congrArg some hn
    · show some _ = some (_ - (manualPurchaseFacts p []).quantity)
      rw [hqty]
    · rw [map_quantity_deducted hq hsegs, h.synced.salesQuantity]
      exact congrArg some (hqs.mpr h0).symm

end

end Exact

/-- The condition is exact for the facts of any rows and any purchases of one key. -/
theorem adjustmentConsistent_iff {rows : List ReportedSalesFactInput} {reported : ReportedSalesFacts}
    (h : FactsOf rows reported) (ps : List ManualPurchaseFactInput) :
    AdjustmentConsistent reported (manualFactsOfGroup ps) ↔ AdjustsExactly rows ps := by
  cases ps with
  | nil =>
    have ht := (totalsMatch_unadjusted_iff h none rfl).mpr rfl
    exact ⟨fun _ => ⟨fun _ p hp => absurd hp not_mem_nil, fun p a e => (nomatch e)⟩, fun _ _ => ht⟩
  | cons p rest =>
    by_cases hq : (manualPurchaseFacts p rest).quantity = 0
    · have hsum : ((p :: rest).map (·.quantity)).sum = 0 := (manualFacts_quantity p rest).symm.trans hq
      have ht := totalsMatch_unadjusted_iff h (some (manualPurchaseFacts p rest)) hq
      have hz := strictSum_amounts_eq_zero_iff (p :: rest)
      unfold AdjustmentConsistent manualFactsOfGroup
      rw [adjust_quantity_zero hq, ht]
      constructor
      · intro hc
        have hall := hz.mp (hc rfl)
        refine ⟨fun _ => hall, fun p' a e _ _ hpos => ?_⟩
        have : p'.quantity = 0 := hall p' (by rw [e]; exact mem_singleton_self p')
        exact absurd hpos (by rw [this]; exact lt_irrefl 0)
      · intro hex _
        exact hz.mpr (hex.noCancelling hsum)
    · have hno : ((p :: rest).map (·.quantity)).sum = 0 → ∀ p' ∈ p :: rest, p'.quantity = 0 :=
        fun e => absurd ((manualFacts_quantity p rest).trans e) hq
      by_cases hrows : rows = []
      · have hr : reported.hasReportedRows = false := by
          rw [h.hasReportedRows, hrows]
          rfl
        have hinv := isValid_manualOnly hq hr
        refine ⟨fun _ => ⟨hno, fun p' a _ hne => absurd hrows hne⟩, fun _ hv => ?_⟩
        exact absurd hv (by rw [manualFactsOfGroup, hinv]; exact Bool.false_ne_true)
      · cases rest with
        | nil =>
          have hqty : p.quantity ≠ 0 := fun e => hq (by
            rw [manualFacts_quantity, map_singleton, sum_singleton, e])
          constructor
          · intro hc
            refine ⟨hno, fun p' a e _ hi hpos hle ha hs hn => ?_⟩
            obtain rfl : p = p' := singleton_inj.mp e
            have hv := (isValid_one_iff h hrows hqty).mpr ⟨a, ha, hi, hpos, hle, hs, hn⟩
            exact (totalsMatch_one_iff h hrows ha hpos hle).mp (hc hv)
          · intro hex hv
            obtain ⟨a, ha, hi, hpos, hle, hs, hn⟩ := (isValid_one_iff h hrows hqty).mp hv
            exact (totalsMatch_one_iff h hrows ha hpos hle).mpr
              (hex.sellerNotNegative p a rfl hrows hi hpos hle ha hs hn)
        | cons p' rest =>
          have hr := h.hasRows hrows
          have hinv : (adjustReportedSalesForManualPurchase reported
              (some (manualPurchaseFacts p (p' :: rest)))).isValid ≠ true := by
            rw [adjust_reported hq hr]
            simp only [ne_eq, Bool.not_eq_true', hasBlocking_adjustmentWarnings, hasBlocking_two]
            exact fun e => (nomatch e.1)
          exact ⟨fun _ => ⟨hno, fun p'' a e => (nomatch e)⟩, fun _ hv => absurd hv hinv⟩

/-- **For every sale rows, purchases, product and day: a valid adjustment keeps totals and segments
    consistent if and only if the quantities of the day's purchases do not cancel out and, where a
    single purchase can be taken out, the day's SELLER rows are not negative in total.** -/
theorem manual_adjustment_consistent_iff (rows : List ReportedSalesFactInput)
    (purchases : List ManualPurchaseFactInput) (productId date productName : String) :
    AdjustmentConsistent (reportedSalesFactsAt rows productId date productName)
        (manualPurchaseFactsAt purchases productId date) ↔
      AdjustsExactly (rowsAt rows productId date) (purchasesAt purchases productId date) := by
  obtain ⟨p, d, n, e⟩ := reportedSalesFactsAt_eq rows productId date productName
  rw [e, manualPurchaseFactsAt_eq]
  exact adjustmentConsistent_iff (factsOf_foldl _ p d n) _

/-- A day with two returns of seller deliveries and five sales from the warehouse. -/
def returnedDay : List ReportedSalesFactInput :=
  [{ productId := "p1", date := "2026-01-05", salesKrw := -20000, cancelAmountKrw := 0,
     netSalesKrw := -20000, salesQuantity := -2, orderCount := 2, saleMethod := some "판매자배송",
     lineCount := some 1, productName := none },
   { productId := "p1", date := "2026-01-05", salesKrw := 50000, cancelAmountKrw := 0,
     netSalesKrw := 50000, salesQuantity := 5, orderCount := 5, saleMethod := some "로켓그로스",
     lineCount := some 1, productName := none }]

/-- Two units of that day were bought by the shop itself. -/
def purchaseOfReturnedDay : List ManualPurchaseFactInput :=
  [{ productId := "p1", date := "2026-01-05", quantity := 2, salesAmountKrw := some 20000,
     baseSalePriceKrw := none, vendorFeeKrw := some 1000, totalCostKrw := some 1000,
     saleMethod := none }]

/-- The day is valid and its total quantity is 3 - 2 = 1, but the segments hold 0 + 3. -/
theorem manual_adjustment_inconsistent_returnedDay :
    (adjustReportedSalesForManualPurchase
      (reportedSalesFactsAt returnedDay "p1" "2026-01-05" "Coupang Product")
      (manualPurchaseFactsAt purchaseOfReturnedDay "p1" "2026-01-05")).isValid = true ∧
    ¬ AdjustmentConsistent (reportedSalesFactsAt returnedDay "p1" "2026-01-05" "Coupang Product")
      (manualPurchaseFactsAt purchaseOfReturnedDay "p1" "2026-01-05") := by
  have hv : (adjustReportedSalesForManualPurchase
      (reportedSalesFactsAt returnedDay "p1" "2026-01-05" "Coupang Product")
      (manualPurchaseFactsAt purchaseOfReturnedDay "p1" "2026-01-05")).isValid = true := by
    decide +kernel
  refine ⟨hv, fun h => ?_⟩
  exact absurd (h hv).segmentQuantity (by decide +kernel)

end AdsManagement.Coupang
