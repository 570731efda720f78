/-
  File:      Coupang/ManualDeduction.lean
  Subject:   WHAT A MANUAL PURCHASE TAKES FROM THE SEGMENTS
             (`deductManualPurchaseFromReportedSegments` and `deductManualSalesAmount`).

  The amounts always go down by the amount of the purchase; the quantities only as far as the
  segments have them. The SELLER segment is taken from first. What one segment cannot give of an
  amount is taken from the others that lost quantity, and from no other one.

  * `sum_quantity_of_nonneg` -- the quantities go down by what the segments have;
  * `untouched_deducted` -- only the first segment of a method changes;
  * `growth_touched_only_when_seller_exhausted` -- the order of the methods;
  * `nonneg_amount_deducted` -- where the segments that lose quantity have the amount, none is
    overdrawn.
-/
import AdsManagement.Coupang.ManualAdjustment

namespace AdsManagement.Coupang

open Common Lib List

/-! ## 1. The segment of a method -/

section Segments

variable {m m' : CoupangFulfillmentMethod} {f : CoupangSalesSegment → CoupangSalesSegment}
  {segments : List CoupangSalesSegment}

/-- The place of the segment that `findSegment` answers. -/
def placeOf (m : CoupangFulfillmentMethod) (segments : List CoupangSalesSegment) : Nat :=
  segments.findIdx fun segment => segment.fulfillmentMethod = m

theorem modifySegment_eq_modify (m : CoupangFulfillmentMethod)
    (f : CoupangSalesSegment → CoupangSalesSegment) (segments : List CoupangSalesSegment) :
    modifySegment m f segments = segments.modify (placeOf m segments) f := by
  unfold placeOf
  induction segments with
  | nil => rfl
  | cons s rest ih =>
    unfold modifySegment
    by_cases h : s.fulfillmentMethod = m
    · rw [if_pos h, findIdx_cons, decide_eq_true h]
      rfl
    · rw [if_neg h, findIdx_cons, decide_eq_false h, ih]
      rfl

theorem getElem?_modifySegment (i : Nat) :
    (modifySegment m f segments)[i]? =
      if placeOf m segments = i then segments[i]?.map f else segments[i]? := by
  rw [modifySegment_eq_modify, getElem?_modify]
  split
  · rfl
  · exact Option.map_id'

theorem findSegment_eq_getElem? (m : CoupangFulfillmentMethod) (segments : List CoupangSalesSegment) :
    findSegment m segments = segments[placeOf m segments]? := by
  unfold findSegment placeOf
  induction segments with
  | nil => rfl
  | cons s rest ih =>
    rw [findIdx_cons]
    by_cases h : s.fulfillmentMethod = m
    · rw [find?_cons_of_pos (by simpa using h), decide_eq_true h]
      rfl
    · rw [find?_cons_of_neg (by simpa using h), ih, decide_eq_false h]
      rfl

/-- A place depends on the methods only. -/
theorem placeOf_congr {segments' : List CoupangSalesSegment}
    (h : segments'.map (·.fulfillmentMethod) = segments.map (·.fulfillmentMethod)) :
    placeOf m segments' = placeOf m segments := by
  have hplace : ∀ l : List CoupangSalesSegment,
      placeOf m l = (l.map (·.fulfillmentMethod)).findIdx fun method => method = m := by
    intro l
    rw [findIdx_map]
    rfl
  rw [hplace, hplace, h]

/-- A sum sees the change of the one segment. -/
theorem sum_modifySegment_found {h : CoupangSalesSegment → ℚ} {s : CoupangSalesSegment}
    (hs : findSegment m segments = some s) :
    ((modifySegment m f segments).map h).sum = (segments.map h).sum - h s + h (f s) := by
  unfold findSegment at hs
  induction segments with
  | nil => cases hs
  | cons t rest ih =>
    unfold modifySegment
    by_cases hm : t.fulfillmentMethod = m
    · rw [find?_cons_of_pos (by simpa using hm)] at hs
      cases hs
      rw [if_pos hm, map_cons, sum_cons, map_cons, sum_cons]
      ring
    · rw [find?_cons_of_neg (by simpa using hm)] at hs
      rw [if_neg hm, map_cons, sum_cons, ih hs, map_cons, sum_cons]
      ring

end Segments

/-! ## 2. The quantities -/

section Quantities

variable {m : CoupangFulfillmentMethod}

/-- What the loop leaves of the request after a target. -/
theorem sum_deductQuantity (loop : DeductionLoop) (hremaining : 0 ≤ loop.remainingQuantity)
    (hquantity : 0 ≤ segmentQuantity m loop.segments) (hm : m ∈ loop.segments.map (·.fulfillmentMethod)) :
    ((deductQuantity loop m).segments.map (·.salesQuantity)).sum =
        (loop.segments.map (·.salesQuantity)).sum -
          min (segmentQuantity m loop.segments) loop.remainingQuantity ∧
      (deductQuantity loop m).remainingQuantity =
        loop.remainingQuantity - min (segmentQuantity m loop.segments) loop.remainingQuantity := by
  rcases hremaining.eq_or_lt with hzero | hpos
  · rw [deductQuantity_done hzero.ge, ← hzero, min_eq_right hquantity, sub_zero, sub_zero]
    exact ⟨rfl, rfl⟩
  · obtain ⟨s, hs⟩ := Option.isSome_iff_exists.mp (isSome_findSegment_iff.mpr hm)
    have hown : segmentQuantity m loop.segments = s.salesQuantity := by
      unfold segmentQuantity
      rw [hs]
      rfl
    refine ⟨?_, ?_⟩
    · unfold deductQuantity
      rw [if_neg (not_le.mpr hpos)]
      rw [sum_modifySegment_found hs]
      simp only [hs, Option.map_some, Option.getD_some]
      rw [hown] at hquantity ⊢
      rw [max_eq_right hquantity]
      ring
    · rw [deductQuantity_remaining loop m hpos, max_eq_right hquantity]

theorem min_add_min {a b q : ℚ} (hb : 0 ≤ b) : min a q + min b (q - min a q) = min (a + b) q := by
  rcases le_total a q with h | h
  · rw [min_eq_left h]
    rcases le_total b (q - a) with h' | h'
    · rw [min_eq_left h', min_eq_left (by linarith)]
    · rw [min_eq_right h', min_eq_right (by linarith)]
      ring
  · rw [min_eq_right h, sub_self, min_eq_right hb, min_eq_right (by linarith), add_zero]

/-- **The quantities go down by what the segments have of the request**, where the segment of
    neither method is negative. -/
theorem sum_quantity_of_nonneg {segments : List CoupangSalesSegment} {q : ℚ} (hq : 0 < q)
    (hnonneg : ∀ m, 0 ≤ segmentQuantity m segments) :
    ((deductionLoop segments q).segments.map (·.salesQuantity)).sum =
      (segments.map (·.salesQuantity)).sum -
        min (segmentQuantity .SELLER segments + segmentQuantity .GROWTH segments) q := by
  unfold deductionLoop
  rw [deductionTargets_eq]
  have hzero : ∀ {m : CoupangFulfillmentMethod}, m ∉ segments.map (·.fulfillmentMethod) →
      segmentQuantity m segments = 0 := fun h => segmentQuantity_of_notMem h
  by_cases hS : CoupangFulfillmentMethod.SELLER ∈ segments.map (·.fulfillmentMethod)
  · obtain ⟨hsum, hrest⟩ := sum_deductQuantity ⟨segments, q, []⟩ hq.le (hnonneg .SELLER) hS
    rw [if_pos hS]
    by_cases hG : CoupangFulfillmentMethod.GROWTH ∈ segments.map (·.fulfillmentMethod)
    · rw [if_pos hG]
      simp only [cons_append, nil_append, foldl_cons, foldl_nil]
      have hmethods := deductQuantity_methods ⟨segments, q, []⟩ .SELLER
      have hother := deductQuantity_other ⟨segments, q, []⟩
        (show CoupangFulfillmentMethod.GROWTH ≠ .SELLER from by decide)
      generalize deductQuantity ⟨segments, q, []⟩ .SELLER = first at hsum hrest hmethods hother ⊢
      have hleft : 0 ≤ first.remainingQuantity := by
        rw [hrest]
        exact sub_nonneg.mpr (min_le_right _ _)
      rw [(sum_deductQuantity first hleft (hother ▸ hnonneg .GROWTH) (hmethods ▸ hG)).1, hsum, hrest, hother,
        ← min_add_min (hnonneg .GROWTH)]
      ring
    · rw [if_neg hG, hzero hG, add_zero]
      exact hsum
  · rw [if_neg hS, hzero hS, zero_add]
    by_cases hG : CoupangFulfillmentMethod.GROWTH ∈ segments.map (·.fulfillmentMethod)
    · rw [if_pos hG]
      exact (sum_deductQuantity ⟨segments, q, []⟩ hq.le (hnonneg .GROWTH) hG).1
    · rw [if_neg hG, hzero hG, min_eq_left hq.le, sub_zero]
      rfl

end Quantities

/-! ## 3. The segments a purchase touches -/

section Touched

variable {m : CoupangFulfillmentMethod} {segments : List CoupangSalesSegment} {q a : ℚ}
variable {s : CoupangSalesSegment}

theorem fulfillmentMethod_of_place (hs : segments[placeOf m segments]? = some s) :
    s.fulfillmentMethod = m := by
  rw [← findSegment_eq_getElem?] at hs
  simpa using find?_some hs

variable {i : Nat} {loop : DeductionLoop}

theorem getElem?_deductQuantity (hi : placeOf m loop.segments ≠ i) :
    (deductQuantity loop m).segments[i]? = loop.segments[i]? := by
  unfold deductQuantity
  split
  · rfl
  · exact (getElem?_modifySegment i).trans (if_neg hi)

theorem getElem?_foldl_deductQuantity {targets : List CoupangFulfillmentMethod}
    (hi : ∀ m ∈ targets, placeOf m loop.segments ≠ i) :
    (targets.foldl deductQuantity loop).segments[i]? = loop.segments[i]? := by
  induction targets generalizing loop with
  | nil => rfl
  | cons m rest ih =>
    have hplace := fun m' => placeOf_congr (m := m') (deductQuantity_methods loop m)
    rw [foldl_cons, ih fun m' hm' => (hplace m').symm ▸ hi m' (mem_cons_of_mem _ hm'),
      getElem?_deductQuantity (hi m mem_cons_self)]

/-- The writes of one field, as `deductManualSalesAmount` makes them. -/
def writeAmounts (field : SegmentAmount) (l : List (QuantityDeduction × ℚ))
    (segments : List CoupangSalesSegment) : List CoupangSalesSegment :=
  l.foldl (fun segments d =>
    modifySegment d.1.fulfillmentMethod (fun s => field.set (field.get s - d.2) s) segments) segments

theorem methods_modify_set (field : SegmentAmount) (d : QuantityDeduction × ℚ)
    (segments : List CoupangSalesSegment) :
    (modifySegment d.1.fulfillmentMethod (fun s => field.set (field.get s - d.2) s) segments).map
      (·.fulfillmentMethod) = segments.map (·.fulfillmentMethod) :=
  map_modifySegment (fun _ => by cases field <;> rfl) _ _

theorem getElem?_writeAmounts_ne (field : SegmentAmount) {l : List (QuantityDeduction × ℚ)}
    (hi : ∀ d ∈ l, placeOf d.1.fulfillmentMethod segments ≠ i) :
    (writeAmounts field l segments)[i]? = segments[i]? := by
  induction l generalizing segments with
  | nil => rfl
  | cons d rest ih =>
    have hplace := fun m => placeOf_congr (m := m) (methods_modify_set field d segments)
    unfold writeAmounts at ih ⊢
    rw [foldl_cons, ih fun e he => (hplace _).symm ▸ hi e (mem_cons_of_mem _ he),
      getElem?_modifySegment, if_neg (hi d mem_cons_self)]

theorem getElem?_writeAmounts (field : SegmentAmount) {l : List (QuantityDeduction × ℚ)}
    (hnd : (l.map (·.1.fulfillmentMethod)).Nodup) {d : QuantityDeduction × ℚ} (hd : d ∈ l)
    (hs : segments[placeOf d.1.fulfillmentMethod segments]? = some s) :
    (writeAmounts field l segments)[placeOf d.1.fulfillmentMethod segments]? =
      some (field.set (field.get s - d.2) s) := by
  induction l generalizing segments with
  | nil => exact absurd hd not_mem_nil
  | cons e rest ih =>
    obtain ⟨hnot, hrest⟩ := nodup_cons.mp hnd
    have hplace := fun m => placeOf_congr (m := m) (methods_modify_set field e segments)
    have hne : ∀ m, m ≠ d.1.fulfillmentMethod → placeOf m segments ≠ placeOf d.1.fulfillmentMethod segments := by
      intro m hm heq
      exact hm ((fulfillmentMethod_of_place (heq ▸ hs)).symm.trans (fulfillmentMethod_of_place hs))
    unfold writeAmounts at ih ⊢
    rw [foldl_cons]
    rcases mem_cons.mp hd with rfl | hd'
    · have hothers : ∀ e ∈ rest, placeOf e.1.fulfillmentMethod (modifySegment d.1.fulfillmentMethod
          (fun s => field.set (field.get s - d.2) s) segments) ≠ placeOf d.1.fulfillmentMethod segments := by
        intro e he
        rw [hplace]
        exact hne _ fun heq => hnot (mem_map.mpr ⟨e, he, heq⟩)
      have hkeep := getElem?_writeAmounts_ne field hothers
      unfold writeAmounts at hkeep
      rw [hkeep, getElem?_modifySegment, if_pos rfl, hs]
      rfl
    · have hdiffer : e.1.fulfillmentMethod ≠ d.1.fulfillmentMethod := fun heq =>
        hnot (mem_map.mpr ⟨d, hd', heq.symm⟩)
      rw [← hplace d.1.fulfillmentMethod]
      refine ih hrest hd' ?_
      rw [hplace, getElem?_modifySegment, if_neg (hne _ hdiffer)]
      exact hs

/-- The segments an amount is taken from: those that lost quantity, else the last one. -/
def amountDeductions (segments : List CoupangSalesSegment) (q : ℚ) : List QuantityDeduction :=
  salesDeductions (deductionTargets segments) (deductionLoop segments q).quantityDeductions

theorem nodup_deductionTargets (segments : List CoupangSalesSegment) : (deductionTargets segments).Nodup :=
  Nodup.filter _ (by decide)

theorem sublist_quantityDeductions (targets : List CoupangFulfillmentMethod) (loop : DeductionLoop) :
    ∃ taken, taken.Sublist targets ∧
      (targets.foldl deductQuantity loop).quantityDeductions.map (·.fulfillmentMethod) =
        loop.quantityDeductions.map (·.fulfillmentMethod) ++ taken := by
  induction targets generalizing loop with
  | nil => exact ⟨[], Sublist.refl _, (append_nil _).symm⟩
  | cons m rest ih =>
    obtain ⟨taken, hsub, htaken⟩ := ih (deductQuantity loop m)
    rw [foldl_cons, htaken]
    by_cases hadd : (deductQuantity loop m).quantityDeductions = loop.quantityDeductions
    · exact ⟨taken, hsub.cons m, by rw [hadd]⟩
    · refine ⟨m :: taken, hsub.cons_cons m, ?_⟩
      have hnew : ∃ quantity, (deductQuantity loop m).quantityDeductions =
          loop.quantityDeductions ++ [⟨m, quantity⟩] := by
        unfold deductQuantity at hadd ⊢
        split at hadd
        · exact absurd rfl hadd
        · rename_i hr
          rw [if_neg hr]
          simp only at hadd ⊢
          split at hadd
          · next hpos => exact ⟨_, if_pos hpos⟩
          · exact absurd rfl hadd
      obtain ⟨quantity, hquantity⟩ := hnew
      rw [hquantity, map_append, append_assoc]
      rfl

theorem nodup_amountDeductions (segments : List CoupangSalesSegment) (q : ℚ) :
    ((amountDeductions segments q).map (·.fulfillmentMethod)).Nodup := by
  unfold amountDeductions salesDeductions
  split
  · obtain ⟨taken, hsub, htaken⟩ := sublist_quantityDeductions (deductionTargets segments) ⟨segments, q, []⟩
    unfold deductionLoop
    rw [htaken]
    exact hsub.nodup (nodup_deductionTargets segments)
  · cases (deductionTargets segments).getLast? with
    | none => exact nodup_nil
    | some m => exact nodup_singleton m

variable {segments' : List CoupangSalesSegment} {field : SegmentAmount}

theorem availableAmount_congr
    (hmethods : segments'.map (·.fulfillmentMethod) = segments.map (·.fulfillmentMethod))
    (hamounts : segments'.map field.get = segments.map field.get) (d : QuantityDeduction) :
    availableAmount field segments' d = availableAmount field segments d := by
  have hplace := congrArg (fun l : List ℚ => l[placeOf d.fulfillmentMethod segments]?) hamounts
  simp only [getElem?_map] at hplace
  unfold availableAmount
  rw [findSegment_eq_getElem?, findSegment_eq_getElem?, placeOf_congr hmethods, hplace]

theorem amountDeductions_ne_nil (hs : segments ≠ []) : amountDeductions segments q ≠ [] :=
  salesDeductions_ne_nil hs

theorem methods_deductionLoop (segments : List CoupangSalesSegment) (q : ℚ) :
    (deductionLoop segments q).segments.map (·.fulfillmentMethod) = segments.map (·.fulfillmentMethod) :=
  foldl_deductQuantity_methods _ _

/-- The shares of an amount do not overdraw a segment, where together they have it. -/
theorem shares_le (hs : segments ≠ [])
    (hmethods : segments'.map (·.fulfillmentMethod) = segments.map (·.fulfillmentMethod))
    (hamounts : segments'.map field.get = segments.map field.get)
    (henough : max 0 a ≤ ((amountDeductions segments q).map (availableAmount field segments)).sum) :
    Forall₂ (· ≤ ·) (cappedShares (max 0 a) ((amountDeductions segments q).map (·.quantity))
        ((amountDeductions segments q).map (availableAmount field segments')))
      ((amountDeductions segments q).map (availableAmount field segments)) := by
  have hsame : (amountDeductions segments q).map (availableAmount field segments') =
      (amountDeductions segments q).map (availableAmount field segments) :=
    map_congr_left fun d _ => availableAmount_congr hmethods hamounts d
  rw [hsame]
  exact cappedShares_le (fun e => amountDeductions_ne_nil hs (map_eq_nil_iff.mp e)) (by simp) henough

/-- The shares of one field. -/
def ShareOf (field : SegmentAmount) (segments : List CoupangSalesSegment) (q a : ℚ) (shares : List ℚ) : Prop :=
  max 0 a ≤ ((amountDeductions segments q).map (availableAmount field segments)).sum →
    Forall₂ (· ≤ ·) shares ((amountDeductions segments q).map (availableAmount field segments))

/-- What a purchase writes: first the quantities, then the two amounts. -/
theorem deductManualPurchase_eq_writes (hq : 0 < q) (hs : segments ≠ []) :
    ∃ sales netSales : List ℚ, ShareOf .salesKrw segments q a sales ∧
      ShareOf .netSalesKrw segments q a netSales ∧
      deductManualPurchaseFromReportedSegments segments q (some a) =
        writeAmounts .netSalesKrw ((amountDeductions segments q).zip netSales)
          (writeAmounts .salesKrw ((amountDeductions segments q).zip sales)
            (deductionLoop segments q).segments) := by
  have hsales := foldl_deductQuantity_amount .salesKrw (deductionTargets segments) ⟨segments, q, []⟩
  have hnetSales := foldl_deductQuantity_amount .netSalesKrw (deductionTargets segments) ⟨segments, q, []⟩
  refine ⟨_, _, fun henough => shares_le hs (methods_deductionLoop segments q) hsales henough,
    fun henough => ?_, deductManualPurchase_eq hq hs⟩
  refine shares_le hs ?_ ?_ henough
  · rw [map_deductManualSalesAmount fun _ _ => rfl, methods_deductionLoop]
  · rw [map_deductManualSalesAmount fun _ _ => rfl]
    exact hnetSales

theorem map_writeAmounts {β : Type} {h : CoupangSalesSegment → β} (field : SegmentAmount)
    (hf : ∀ v s, h (field.set v s) = h s) (l : List (QuantityDeduction × ℚ))
    (segments : List CoupangSalesSegment) : (writeAmounts field l segments).map h = segments.map h := by
  unfold writeAmounts
  induction l generalizing segments with
  | nil => rfl
  | cons d rest ih =>
    rw [foldl_cons, ih]
    exact map_modifySegment (fun s => hf _ s) _ segments

/-- **Only the first segment of a method changes.** -/
theorem untouched_deducted (hq : 0 < q) (hs : segments ≠ []) (hi : ∀ m, placeOf m segments ≠ i) :
    (deductManualPurchaseFromReportedSegments segments q (some a))[i]? = segments[i]? := by
  obtain ⟨sales, netSales, -, -, heq⟩ := deductManualPurchase_eq_writes (a := a) hq hs
  have hloop := fun m => placeOf_congr (m := m) (methods_deductionLoop segments q)
  have hwritten := fun m => placeOf_congr (m := m) ((map_writeAmounts .salesKrw
    (h := (·.fulfillmentMethod)) (fun _ _ => rfl) ((amountDeductions segments q).zip sales)
    (deductionLoop segments q).segments).trans (methods_deductionLoop segments q))
  rw [heq, getElem?_writeAmounts_ne _ fun d _ => (hwritten _).symm ▸ hi _,
    getElem?_writeAmounts_ne _ fun d _ => (hloop _).symm ▸ hi _]
  exact getElem?_foldl_deductQuantity fun m _ => hi m

theorem segmentQuantity_congr
    (hmethods : segments'.map (·.fulfillmentMethod) = segments.map (·.fulfillmentMethod))
    (hquantities : segments'.map (·.salesQuantity) = segments.map (·.salesQuantity)) :
    segmentQuantity m segments' = segmentQuantity m segments := by
  have hplace := congrArg (fun l : List ℚ => l[placeOf m segments]?) hquantities
  simp only [getElem?_map] at hplace
  unfold segmentQuantity
  rw [findSegment_eq_getElem?, findSegment_eq_getElem?, placeOf_congr hmethods, hplace]

theorem methods_deducted (hq : 0 < q) (hs : segments ≠ []) :
    (deductManualPurchaseFromReportedSegments segments q (some a)).map (·.fulfillmentMethod) =
      segments.map (·.fulfillmentMethod) := by
  rw [deductManualPurchase_eq hq hs, map_deductManualSalesAmount fun _ _ => rfl,
    map_deductManualSalesAmount fun _ _ => rfl, methods_deductionLoop]

/-- A SELLER segment that covers the request is the only one taken from. -/
theorem deductionLoop_of_seller (hq : 0 < q)
    (hS : CoupangFulfillmentMethod.SELLER ∈ segments.map (·.fulfillmentMethod))
    (hcovers : q ≤ max 0 (segmentQuantity .SELLER segments)) :
    deductionLoop segments q = deductQuantity ⟨segments, q, []⟩ .SELLER ∧
      amountDeductions segments q = [⟨.SELLER, q⟩] := by
  have hremaining := deductQuantity_remaining ⟨segments, q, []⟩ .SELLER hq
  have hdone : (deductQuantity ⟨segments, q, []⟩ .SELLER).remainingQuantity ≤ 0 := by
    rw [hremaining, min_eq_right hcovers]
    exact (sub_self q).le
  have hloop : deductionLoop segments q = deductQuantity ⟨segments, q, []⟩ .SELLER := by
    unfold deductionLoop
    rw [deductionTargets_eq, if_pos hS]
    split
    · exact deductQuantity_done hdone
    · rfl
  have hdeductions : (deductQuantity ⟨segments, q, []⟩ .SELLER).quantityDeductions = [⟨.SELLER, q⟩] := by
    have hmin : min (max 0 (((findSegment .SELLER segments).map (·.salesQuantity)).getD 0)) q = q :=
      min_eq_right hcovers
    unfold deductQuantity
    rw [if_neg (not_le.mpr hq)]
    simp only [hmin]
    rw [if_pos hq]
    rfl
  refine ⟨hloop, ?_⟩
  unfold amountDeductions
  rw [hloop, hdeductions]
  rfl

/-- **A GROWTH segment changes only where the SELLER quantity is used up.** -/
theorem growth_touched_only_when_seller_exhausted (hq : 0 < q) (hs : segments ≠ [])
    (htouched : (deductManualPurchaseFromReportedSegments segments q (some a))[placeOf .GROWTH segments]? ≠
      segments[placeOf .GROWTH segments]?) :
    segmentQuantity .SELLER (deductManualPurchaseFromReportedSegments segments q (some a)) = 0 := by
  have hmethods := methods_deducted (a := a) hq hs
  by_cases hS : CoupangFulfillmentMethod.SELLER ∈ segments.map (·.fulfillmentMethod)
  · have hquantity : segmentQuantity .SELLER (deductManualPurchaseFromReportedSegments segments q (some a)) =
        segmentQuantity .SELLER (deductionLoop segments q).segments :=
      segmentQuantity_congr (hmethods.trans (methods_deductionLoop segments q).symm)
        (map_quantity_deducted hq hs)
    rcases le_or_gt q (max 0 (segmentQuantity .SELLER segments)) with hcovers | hshort
    · -- the SELLER segment covers the request: nothing is written at the place of GROWTH
      obtain ⟨hloop, hdeductions⟩ := deductionLoop_of_seller hq hS hcovers
      refine absurd ?_ htouched
      by_cases hplace : placeOf .SELLER segments = placeOf .GROWTH segments
      · -- only a place behind the list is the place of both
        have hnone : segments[placeOf .GROWTH segments]? = none := by
          cases hfound : segments[placeOf .GROWTH segments]? with
          | none => rfl
          | some s =>
            have hseller := fulfillmentMethod_of_place (m := .SELLER) (hplace ▸ hfound)
            rw [fulfillmentMethod_of_place hfound] at hseller
            cases hseller
        have hlength : (deductManualPurchaseFromReportedSegments segments q (some a)).length =
            segments.length := by simpa using congrArg length hmethods
        rw [hnone]
        exact getElem?_eq_none (hlength ▸ getElem?_eq_none_iff.mp hnone)
      · obtain ⟨sales, netSales, -, -, heq⟩ := deductManualPurchase_eq_writes (a := a) hq hs
        have hplaces := placeOf_congr (m := .SELLER) (methods_deductionLoop segments q)
        have hplaces' := placeOf_congr (m := .SELLER) ((map_writeAmounts .salesKrw
          (h := (·.fulfillmentMethod)) (fun _ _ => rfl) ((amountDeductions segments q).zip sales)
          (deductionLoop segments q).segments).trans (methods_deductionLoop segments q))
        have honly : ∀ shares : List ℚ, ∀ d ∈ (amountDeductions segments q).zip shares,
            d.1.fulfillmentMethod = .SELLER := by
          intro shares d hd
          have hfirst := (of_mem_zip hd).1
          rw [hdeductions, mem_singleton] at hfirst
          rw [hfirst]
        rw [heq, getElem?_writeAmounts_ne _ fun d hd => by rw [honly netSales d hd, hplaces']; exact hplace,
          getElem?_writeAmounts_ne _ fun d hd => by rw [honly sales d hd, hplaces]; exact hplace, hloop]
        exact getElem?_deductQuantity hplace
    · rw [hquantity]
      have hself := deductQuantity_self ⟨segments, q, []⟩ hq hS
      rw [min_eq_left hshort.le, sub_self] at hself
      unfold deductionLoop
      rw [deductionTargets_eq, if_pos hS]
      split
      · exact (deductQuantity_other _ (by decide)).trans hself
      · exact hself
  · exact segmentQuantity_of_notMem (hmethods ▸ hS)

variable {s' : CoupangSalesSegment}

/-- Shares within what the segments have leave no segment overdrawn. -/
theorem nonneg_writeAmounts {deductions : List QuantityDeduction} {shares : List ℚ}
    (hnd : (deductions.map (·.fulfillmentMethod)).Nodup)
    (hle : Forall₂ (· ≤ ·) shares (deductions.map (availableAmount field segments)))
    (hs : segments[i]? = some s) (hs' : (writeAmounts field (deductions.zip shares) segments)[i]? = some s')
    (hnonneg : 0 ≤ field.get s) : 0 ≤ field.get s' := by
  by_cases htaken : ∃ d ∈ deductions.zip shares, placeOf d.1.fulfillmentMethod segments = i
  · obtain ⟨d, hd, rfl⟩ := htaken
    have hzip : ((deductions.zip shares).map (·.1.fulfillmentMethod)).Nodup := by
      have hfst : (deductions.zip shares).map (·.1) = deductions :=
        map_fst_zip (by simp [hle.length_eq])
      have hmap := congrArg (map (·.fulfillmentMethod)) hfst
      rw [map_map] at hmap
      exact hmap ▸ hnd
    rw [getElem?_writeAmounts field hzip hd hs] at hs'
    cases hs'
    have hshare : d.2 ≤ availableAmount field segments d.1 := by
      rw [forall₂_map_right_iff] at hle
      exact (forall₂_iff_zip.mp hle.flip).2 hd
    unfold availableAmount at hshare
    rw [findSegment_eq_getElem?, hs] at hshare
    simp only [Option.map_some, Option.getD_some] at hshare
    rw [max_eq_right hnonneg] at hshare
    have hset : field.get (field.set (field.get s - d.2) s) = field.get s - d.2 := by cases field <;> rfl
    rw [hset]
    exact sub_nonneg.mpr hshare
  · have hkeep : (writeAmounts field (deductions.zip shares) segments)[i]? = segments[i]? :=
      getElem?_writeAmounts_ne field fun d hd he => htaken ⟨d, hd, he⟩
    rw [hkeep, hs] at hs'
    cases hs'
    exact hnonneg

theorem getElem?_of_map_eq {β : Type} {h : CoupangSalesSegment → β}
    (hmap : segments'.map h = segments.map h) (hs : segments[i]? = some s) :
    ∃ s', segments'[i]? = some s' ∧ h s' = h s := by
  have hi := congrArg (fun l : List β => l[i]?) hmap
  simp only [getElem?_map, hs] at hi
  exact Option.map_eq_some_iff.mp hi

/-- **Where the segments that lose quantity have the amount, none is overdrawn.** -/
theorem nonneg_amount_deducted (hq : 0 < q) (hs : segments ≠ []) (field : SegmentAmount)
    (henough : max 0 a ≤ ((amountDeductions segments q).map (availableAmount field segments)).sum)
    (hbefore : segments[i]? = some s)
    (hafter : (deductManualPurchaseFromReportedSegments segments q (some a))[i]? = some s')
    (hnonneg : 0 ≤ field.get s) : 0 ≤ field.get s' := by
  obtain ⟨sales, netSales, hsales, hnetSales, heq⟩ := deductManualPurchase_eq_writes (a := a) hq hs
  have hnd := nodup_amountDeductions segments q
  rw [heq] at hafter
  have hsame : ∀ {segments' : List CoupangSalesSegment},
      segments'.map (·.fulfillmentMethod) = segments.map (·.fulfillmentMethod) →
      segments'.map field.get = segments.map field.get →
      (amountDeductions segments q).map (availableAmount field segments') =
        (amountDeductions segments q).map (availableAmount field segments) := fun hm hf =>
    map_congr_left fun d _ => availableAmount_congr hm hf d
  have hloop : (deductionLoop segments q).segments.map field.get = segments.map field.get :=
    foldl_deductQuantity_amount field (deductionTargets segments) ⟨segments, q, []⟩
  have hmethods := methods_deductionLoop segments q
  cases field with
  | salesKrw =>
    obtain ⟨s1, hs1, hget1⟩ := getElem?_of_map_eq hloop hbefore
    -- the net sales are written last and leave the sales alone
    obtain ⟨s2, hs2, hget2⟩ := getElem?_of_map_eq (map_writeAmounts .netSalesKrw
      (h := SegmentAmount.salesKrw.get) (fun _ _ => rfl) ((amountDeductions segments q).zip netSales)
      (writeAmounts .salesKrw ((amountDeductions segments q).zip sales)
        (deductionLoop segments q).segments)).symm hafter
    rw [← hget2]
    refine nonneg_writeAmounts hnd ?_ hs1 hs2 (hget1.symm ▸ hnonneg)
    rw [hsame hmethods hloop]
    exact hsales henough
  | netSalesKrw =>
    have hkept := map_writeAmounts .salesKrw (h := SegmentAmount.netSalesKrw.get) (fun _ _ => rfl)
      ((amountDeductions segments q).zip sales) (deductionLoop segments q).segments
    have hmethods' := (map_writeAmounts .salesKrw (h := (·.fulfillmentMethod)) (fun _ _ => rfl)
      ((amountDeductions segments q).zip sales) (deductionLoop segments q).segments).trans hmethods
    obtain ⟨s1, hs1, hget1⟩ := getElem?_of_map_eq (hkept.trans hloop) hbefore
    refine nonneg_writeAmounts hnd ?_ hs1 hafter (hget1.symm ▸ hnonneg)
    rw [hsame hmethods' (hkept.trans hloop)]
    exact hnetSales henough

/-- A target keeps what is left of its quantity, and that is not negative. -/
theorem nonneg_quantity_step (m : CoupangFulfillmentMethod) (hs : loop.segments[i]? = some s)
    (hnonneg : 0 ≤ s.salesQuantity) :
    ∃ s', (deductQuantity loop m).segments[i]? = some s' ∧ 0 ≤ s'.salesQuantity := by
  unfold deductQuantity
  split
  · exact ⟨s, hs, hnonneg⟩
  · simp only [getElem?_modifySegment, hs]
    split
    · exact ⟨_, rfl, sub_nonneg.mpr (min_le_left _ _)⟩
    · exact ⟨s, rfl, hnonneg⟩

theorem nonneg_quantity_foldl (targets : List CoupangFulfillmentMethod) (loop : DeductionLoop)
    (hs : loop.segments[i]? = some s) (hnonneg : 0 ≤ s.salesQuantity) :
    ∃ s', (targets.foldl deductQuantity loop).segments[i]? = some s' ∧ 0 ≤ s'.salesQuantity := by
  induction targets generalizing loop s with
  | nil => exact ⟨s, hs, hnonneg⟩
  | cons m rest ih =>
    obtain ⟨s1, hs1, hnonneg1⟩ := nonneg_quantity_step m hs hnonneg
    exact ih _ hs1 hnonneg1

theorem nonneg_quantity_deducted (hq : 0 < q) (hs : segments ≠ []) (hbefore : segments[i]? = some s)
    (hafter : (deductManualPurchaseFromReportedSegments segments q (some a))[i]? = some s')
    (hnonneg : 0 ≤ s.salesQuantity) : 0 ≤ s'.salesQuantity := by
  obtain ⟨s1, hs1, hget1⟩ := getElem?_of_map_eq (map_quantity_deducted (a := a) hq hs).symm hafter
  obtain ⟨s2, hs2, hnonneg2⟩ := nonneg_quantity_foldl (deductionTargets segments) ⟨segments, q, []⟩
    hbefore hnonneg
  have hsame : s2 = s1 := Option.some.inj (hs2.symm.trans hs1)
  rw [← hget1, ← hsame]
  exact hnonneg2

end Touched

/-- **What a purchase of a positive quantity takes.** Both amounts go down by exactly its amount; the
    quantities by what the segments have of its quantity, where the segment of neither method is
    negative; nothing but the first segment of each method changes, the GROWTH one only when the SELLER
    quantity is used up; where the segments that lose quantity have the amount, none of them is
    overdrawn, and no quantity ever is. -/
theorem manual_deduction_exact (segments : List CoupangSalesSegment) (q a : ℚ) (hq : 0 < q)
    (hs : segments ≠ []) :
    let adjusted := deductManualPurchaseFromReportedSegments segments q (some a)
    (∀ field : SegmentAmount, (adjusted.map field.get).sum = (segments.map field.get).sum - max 0 a) ∧
    ((∀ m, 0 ≤ segmentQuantity m segments) →
      (adjusted.map (·.salesQuantity)).sum = (segments.map (·.salesQuantity)).sum -
        min (segmentQuantity .SELLER segments + segmentQuantity .GROWTH segments) q) ∧
    (∀ i : Nat, (∀ m, placeOf m segments ≠ i) → adjusted[i]? = segments[i]?) ∧
    (adjusted[placeOf .GROWTH segments]? ≠ segments[placeOf .GROWTH segments]? →
      segmentQuantity .SELLER adjusted = 0) ∧
    (∀ field : SegmentAmount,
      max 0 a ≤ ((amountDeductions segments q).map (availableAmount field segments)).sum →
      ∀ (i : Nat) (s s' : CoupangSalesSegment), segments[i]? = some s → adjusted[i]? = some s' →
        0 ≤ field.get s → 0 ≤ field.get s') ∧
    ∀ (i : Nat) (s s' : CoupangSalesSegment), segments[i]? = some s → adjusted[i]? = some s' →
      0 ≤ s.salesQuantity → 0 ≤ s'.salesQuantity := by
  refine ⟨fun field => sum_amount_deducted field hq hs, fun hnonneg => ?_, fun i hi => untouched_deducted hq hs hi,
    growth_touched_only_when_seller_exhausted hq hs, ?_, ?_⟩
  · rw [map_quantity_deducted hq hs]
    exact sum_quantity_of_nonneg hq hnonneg
  · intro field henough i s s' hbefore hafter hnonneg
    exact nonneg_amount_deducted hq hs field henough hbefore hafter hnonneg
  · intro i s s' hbefore hafter hnonneg
    exact nonneg_quantity_deducted hq hs hbefore hafter hnonneg

/-- A day sold by both methods. -/
def mixedSegments : List CoupangSalesSegment :=
  [{ emptySalesSegment .SELLER with salesKrw := 60000, netSalesKrw := 60000, salesQuantity := 3 },
    { emptySalesSegment .GROWTH with salesKrw := 40000, netSalesKrw := 40000, salesQuantity := 2 }]

/-- A day whose seller sales are cheap. -/
def unevenSegments : List CoupangSalesSegment :=
  [{ emptySalesSegment .SELLER with salesKrw := 10000, netSalesKrw := 10000, salesQuantity := 2 },
    { emptySalesSegment .GROWTH with salesKrw := 100000, netSalesKrw := 100000, salesQuantity := 10 }]

theorem manual_deduction_exact_uneven :
    (((deductManualPurchaseFromReportedSegments unevenSegments 5 (some 50000)).map
        SegmentAmount.salesKrw.get).sum = (unevenSegments.map SegmentAmount.salesKrw.get).sum - max 0 50000) ∧
    ∀ (i : Nat) (s s' : CoupangSalesSegment), unevenSegments[i]? = some s →
      (deductManualPurchaseFromReportedSegments unevenSegments 5 (some 50000))[i]? = some s' →
      0 ≤ s.salesKrw → 0 ≤ s'.salesKrw := by
  have hexact := manual_deduction_exact unevenSegments 5 50000 (by decide +kernel) (cons_ne_nil _ _)
  exact ⟨hexact.1 .salesKrw, hexact.2.2.2.2.1 .salesKrw (by decide +kernel)⟩

/-- Eight units bought of five sold leave the quantities at zero, three short of the request; and one
    unit for 50000 leaves the seller segment at -40000 although the two segments hold 110000. -/
theorem quantities_clamped_and_seller_overdrawn :
    ((deductManualPurchaseFromReportedSegments mixedSegments 8 (some 160000)).map (·.salesQuantity)).sum ≠
      (mixedSegments.map (·.salesQuantity)).sum - max 0 8 ∧
    max 0 50000 ≤ (unevenSegments.map fun s => max 0 s.salesKrw).sum ∧
    (deductManualPurchaseFromReportedSegments unevenSegments 1 (some 50000)).map (·.salesKrw) =
      [-40000, 100000] := by
  exact ⟨by decide +kernel, by decide +kernel, by decide +kernel⟩

end AdsManagement.Coupang
