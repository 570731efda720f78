/-
  File:      Coupang/SegmentProfit.lean
  Subject:   THE PROFIT OF SEGMENTS: `calculateCoupangProfitBySegments` against
             `calculateCoupangProfit` run on every segment alone.

  Every amount is linear in the net sales and the quantity of a segment, the rates of the shipping
  being those of its method; so the amounts of the runs add up, the advertisement enters once, and
  a segment may be cut in two.

  * `shippingCost_text` -- the shipping of a segment, by its method;
  * `amount_bySegments` -- an amount of the segments is the sum of the runs;
  * `segment_profit_adds_up` -- the sums, the margin, and cutting a segment.
-/
import AdsManagement.Coupang.ProfitCalculator

namespace AdsManagement.Coupang

open Common Lib List

/-! ## 1. The amounts of a result -/

inductive ProfitAmount where
  | netSalesKrw
  | productCostKrw
  | salesFeeKrw
  | shippingCostKrw
  | returnCostKrw
  | extraCostKrw
  | vatKrw
  | adSpendKrw
  | totalCostKrw
  | marginKrw
  | organicSalesKrw
deriving DecidableEq

namespace ProfitAmount

def get : ProfitAmount → CoupangProfitResult → ℚ
  | .netSalesKrw, result => result.netSalesKrw
  | .productCostKrw, result => result.productCostKrw
  | .salesFeeKrw, result => result.salesFeeKrw
  | .shippingCostKrw, result => result.shippingCostKrw
  | .returnCostKrw, result => result.returnCostKrw
  | .extraCostKrw, result => result.extraCostKrw
  | .vatKrw, result => result.vatKrw
  | .adSpendKrw, result => result.adSpendKrw
  | .totalCostKrw, result => result.totalCostKrw
  | .marginKrw, result => result.marginKrw
  | .organicSalesKrw, result => result.organicSalesKrw

/-- What the ads of a day change in an amount. -/
def ofAds : ProfitAmount → CoupangAdInput → ℚ
  | .adSpendKrw, ads => ads.adSpendKrw
  | .totalCostKrw, ads => ads.adSpendKrw
  | .marginKrw, ads => -ads.adSpendKrw
  | .organicSalesKrw, ads => -ads.attributedConversionSalesKrw
  | _, _ => 0

end ProfitAmount

def noAds : CoupangAdInput := ⟨0, 0, 0⟩

/-- The plain formula on one segment. -/
def profitOfSegment (cost : CoupangCostInput) (ads : CoupangAdInput) (options : CoupangProfitOptions)
    (segment : CoupangSalesSegment) : CoupangProfitResult :=
  calculateCoupangProfit
    { saleMethod := some segment.fulfillmentMethod.text
      netSalesKrw := segment.netSalesKrw
      salesQuantity := segment.salesQuantity }
    cost ads options

/-! ## 2. One segment and many -/

section Sums

variable (cost : CoupangCostInput) (ads : CoupangAdInput) (options : CoupangProfitOptions)

theorem normalize_text (m : CoupangFulfillmentMethod) :
    normalizeCoupangFulfillmentMethod (some m.text) = m := by
  cases m <;> decide +kernel

/-- What a unit of a method costs to ship. -/
def unitShippingCost (m : CoupangFulfillmentMethod) : ℚ :=
  match m with
  | .SELLER => feeOrZero cost.sellerShippingFeeKrw
  | .GROWTH => feeOrZero cost.hanaroShippingFeeKrw + cost.growthInboundFeeKrw.getD 0 +
      cost.growthShippingFeeKrw.getD 0

variable {useGrowthCost : Option Bool}

/-- The shipping of a segment follows its method, unless the growth costs are switched off. -/
theorem shippingCost_text (m : CoupangFulfillmentMethod) (quantity : ℚ) (h : useGrowthCost ≠ some false) :
    shippingCost (some m.text) cost quantity useGrowthCost = unitShippingCost cost m * quantity := by
  unfold shippingCost isGrowthSaleMethod
  rw [if_neg h, normalize_text]
  cases m <;> rfl

/-- The ads enter an amount as they are. -/
theorem amount_ads (amount : ProfitAmount) (segment : CoupangSalesSegment) :
    amount.get (profitOfSegment cost ads options segment) =
      amount.get (profitOfSegment cost noAds options segment) + amount.ofAds ads := by
  cases amount <;>
    simp only [ProfitAmount.get, ProfitAmount.ofAds, profitOfSegment, calculateCoupangProfit, noAds] <;>
    ring

variable (rate : ℚ) (includeReturnCost : Option Bool)

/-- The profit of no segments is the ads alone. -/
theorem amount_bySegments_nil (amount : ProfitAmount) :
    amount.get (calculateCoupangProfitBySegments [] cost ads rate includeReturnCost).toCoupangProfitResult =
      amount.ofAds ads := by
  cases amount <;>
    simp [ProfitAmount.get, ProfitAmount.ofAds, calculateCoupangProfitBySegments,
      calculateCoupangProfitByAccountingBases, methodQuantity, plainSum_eq_sum]

theorem methodQuantity_cons (m : CoupangFulfillmentMethod) (segment : CoupangSalesSegment)
    (rest : List CoupangSalesSegment) :
    methodQuantity m (segment :: rest) =
      (if segment.fulfillmentMethod = m then segment.salesQuantity else 0) + methodQuantity m rest := by
  unfold methodQuantity
  rw [plainSum_eq_sum, plainSum_eq_sum]
  by_cases h : segment.fulfillmentMethod = m <;> simp [h]

/-- The shipping of all segments, by method. -/
theorem shipping_bySegments (segments : List CoupangSalesSegment) :
    (calculateCoupangProfitBySegments segments cost ads rate includeReturnCost).shippingCostKrw =
      unitShippingCost cost .SELLER * methodQuantity .SELLER segments +
        unitShippingCost cost .GROWTH * methodQuantity .GROWTH segments := by
  show _ + _ + _ + _ = _
  unfold unitShippingCost
  ring

theorem totalCost_profitOfSegment (segment : CoupangSalesSegment) :
    (profitOfSegment cost ads options segment).totalCostKrw =
      (profitOfSegment cost ads options segment).productCostKrw +
      (profitOfSegment cost ads options segment).salesFeeKrw +
      (profitOfSegment cost ads options segment).shippingCostKrw +
      (profitOfSegment cost ads options segment).returnCostKrw +
      (profitOfSegment cost ads options segment).extraCostKrw +
      (profitOfSegment cost ads options segment).vatKrw +
      (profitOfSegment cost ads options segment).adSpendKrw := rfl

theorem margin_profitOfSegment (segment : CoupangSalesSegment) :
    (profitOfSegment cost ads options segment).marginKrw =
      (profitOfSegment cost ads options segment).netSalesKrw -
      (profitOfSegment cost ads options segment).totalCostKrw := rfl

/-- The cost components of a result, the shipping by method. -/
structure CoupangSegmentProfitResult.CostsAddUp (result : CoupangSegmentProfitResult) : Prop where
  margin : result.marginKrw = result.netSalesKrw - result.totalCostKrw
  totalCost : result.totalCostKrw = result.productCostKrw + result.salesFeeKrw +
    result.shippingCostKrw + result.returnCostKrw + result.extraCostKrw + result.vatKrw + result.adSpendKrw
  shippingCost : result.shippingCostKrw = result.sellerShippingCostKrw + result.hanaroShippingCostKrw +
    result.growthInboundCostKrw + result.growthShippingCostKrw
  totalLogisticsCost : result.totalLogisticsCostKrw = result.shippingCostKrw

theorem costsAddUp_bySegments (segments : List CoupangSalesSegment) :
    (calculateCoupangProfitBySegments segments cost ads rate includeReturnCost).CostsAddUp :=
  ⟨rfl, rfl, rfl, rfl⟩

/-- The options the segments are calculated with. -/
def segmentOptions (useGrowthCost : Option Bool) : CoupangProfitOptions := ⟨rate, includeReturnCost, useGrowthCost⟩

section Segments

variable (segment : CoupangSalesSegment) (rest : List CoupangSalesSegment)
  (h : useGrowthCost ≠ some false)
include h

theorem shipping_bySegments_cons :
    (calculateCoupangProfitBySegments (segment :: rest) cost ads rate includeReturnCost).shippingCostKrw =
      (profitOfSegment cost noAds (segmentOptions rate includeReturnCost useGrowthCost)
        segment).shippingCostKrw +
      (calculateCoupangProfitBySegments rest cost ads rate includeReturnCost).shippingCostKrw := by
  rw [shipping_bySegments, shipping_bySegments, methodQuantity_cons, methodQuantity_cons]
  have hone : (profitOfSegment cost noAds (segmentOptions rate includeReturnCost useGrowthCost)
      segment).shippingCostKrw = unitShippingCost cost segment.fulfillmentMethod * segment.salesQuantity :=
    shippingCost_text cost segment.fulfillmentMethod segment.salesQuantity h
  rw [hone]
  cases segment.fulfillmentMethod
  · rw [if_pos rfl, if_neg (by decide)]
    ring
  · rw [if_neg (by decide), if_pos rfl]
    ring

/-- The amounts a total is made of. -/
def ProfitAmount.IsPart (amount : ProfitAmount) : Prop := amount ≠ .totalCostKrw ∧ amount ≠ .marginKrw

/-- One segment more adds the plain formula on it, part by part. -/
theorem part_bySegments_cons {amount : ProfitAmount} (hpart : amount.IsPart) :
    amount.get (calculateCoupangProfitBySegments (segment :: rest) cost ads rate
        includeReturnCost).toCoupangProfitResult =
      amount.get (profitOfSegment cost noAds (segmentOptions rate includeReturnCost useGrowthCost) segment) +
      amount.get (calculateCoupangProfitBySegments rest cost ads rate
        includeReturnCost).toCoupangProfitResult := by
  have hship := shipping_bySegments_cons cost ads rate includeReturnCost segment rest h
  unfold calculateCoupangProfitBySegments calculateCoupangProfitByAccountingBases at hship ⊢
  simp only [plainSum_eq_sum, map_cons, sum_cons] at hship ⊢
  cases amount with
  | shippingCostKrw => exact hship
  | totalCostKrw => exact absurd rfl hpart.1
  | marginKrw => exact absurd rfl hpart.2
  | adSpendKrw => exact (zero_add _).symm
  | organicSalesKrw =>
    simp only [ProfitAmount.get, profitOfSegment, calculateCoupangProfit, noAds]
    ring
  | _ => rfl

/-- One segment more adds the plain formula on it. -/
theorem amount_bySegments_cons (amount : ProfitAmount) :
    amount.get (calculateCoupangProfitBySegments (segment :: rest) cost ads rate
        includeReturnCost).toCoupangProfitResult =
      amount.get (profitOfSegment cost noAds (segmentOptions rate includeReturnCost useGrowthCost) segment) +
      amount.get (calculateCoupangProfitBySegments rest cost ads rate
        includeReturnCost).toCoupangProfitResult := by
  have hparts := fun (amount : ProfitAmount) (hpart : amount.IsPart) =>
    part_bySegments_cons cost ads rate includeReturnCost segment rest h hpart
  have htotal : (calculateCoupangProfitBySegments (segment :: rest) cost ads rate
      includeReturnCost).totalCostKrw =
      (profitOfSegment cost noAds (segmentOptions rate includeReturnCost useGrowthCost)
        segment).totalCostKrw +
      (calculateCoupangProfitBySegments rest cost ads rate includeReturnCost).totalCostKrw := by
    have hp := hparts .productCostKrw ⟨by decide, by decide⟩
    have hf := hparts .salesFeeKrw ⟨by decide, by decide⟩
    have hs := hparts .shippingCostKrw ⟨by decide, by decide⟩
    have hr := hparts .returnCostKrw ⟨by decide, by decide⟩
    have he := hparts .extraCostKrw ⟨by decide, by decide⟩
    have hv := hparts .vatKrw ⟨by decide, by decide⟩
    have ha := hparts .adSpendKrw ⟨by decide, by decide⟩
    simp only [ProfitAmount.get] at hp hf hs hr he hv ha
    rw [(costsAddUp_bySegments cost ads rate includeReturnCost (segment :: rest)).totalCost,
      (costsAddUp_bySegments cost ads rate includeReturnCost rest).totalCost, totalCost_profitOfSegment]
    linear_combination hp + hf + hs + hr + he + hv + ha
  cases amount with
  | totalCostKrw => exact htotal
  | marginKrw =>
    have hn := hparts .netSalesKrw ⟨by decide, by decide⟩
    simp only [ProfitAmount.get] at hn ⊢
    rw [(costsAddUp_bySegments cost ads rate includeReturnCost (segment :: rest)).margin,
      (costsAddUp_bySegments cost ads rate includeReturnCost rest).margin, margin_profitOfSegment]
    linear_combination hn - htotal
  | _ => exact hparts _ ⟨by decide, by decide⟩

end Segments

/-- **An amount of the segments is the sum of the runs on each alone**, and the ads enter once. -/
theorem amount_bySegments (amount : ProfitAmount) (segments : List CoupangSalesSegment)
    (h : useGrowthCost ≠ some false) :
    amount.get (calculateCoupangProfitBySegments segments cost ads rate
        includeReturnCost).toCoupangProfitResult =
      (segments.map fun segment => amount.get (profitOfSegment cost noAds
        (segmentOptions rate includeReturnCost useGrowthCost) segment)).sum + amount.ofAds ads := by
  induction segments with
  | nil => rw [amount_bySegments_nil, map_nil, sum_nil, zero_add]
  | cons segment rest ih =>
    rw [amount_bySegments_cons cost ads rate includeReturnCost segment rest h amount, ih, map_cons,
      sum_cons, add_assoc]

/-! ## 3. What a result depends on -/

/-- All the segments say: their net sales and the quantity of each method. -/
structure SameBases (segments segments' : List CoupangSalesSegment) : Prop where
  netSalesKrw : plainSum (segments.map (·.netSalesKrw)) = plainSum (segments'.map (·.netSalesKrw))
  quantity : ∀ m, methodQuantity m segments = methodQuantity m segments'

variable {f : CoupangSalesSegment → ℚ}

theorem sum_linear_quantity {a : ℚ} (hf : ∀ s, f s = a * s.salesQuantity)
    (segments : List CoupangSalesSegment) :
    plainSum (segments.map f) = a * (methodQuantity .SELLER segments + methodQuantity .GROWTH segments) := by
  rw [plainSum_eq_sum]
  induction segments with
  | nil => simp [methodQuantity, plainSum_eq_sum]
  | cons s rest ih =>
    rw [map_cons, sum_cons, ih, hf, methodQuantity_cons, methodQuantity_cons]
    cases s.fulfillmentMethod
    · rw [if_pos rfl, if_neg (by decide)]
      ring
    · rw [if_neg (by decide), if_pos rfl]
      ring

theorem sum_linear_netSales {a : ℚ} (hf : ∀ s, f s = a * s.netSalesKrw)
    (segments : List CoupangSalesSegment) :
    plainSum (segments.map f) = a * plainSum (segments.map (·.netSalesKrw)) := by
  rw [plainSum_eq_sum, plainSum_eq_sum]
  induction segments with
  | nil => simp
  | cons s rest ih => rw [map_cons, sum_cons, ih, hf, map_cons, sum_cons]; ring

variable {segments' segments : List CoupangSalesSegment}

/-- **Nothing but these bases enters a result.** -/
theorem bySegments_congr (h : SameBases segments segments') :
    calculateCoupangProfitBySegments segments cost ads rate includeReturnCost =
      calculateCoupangProfitBySegments segments' cost ads rate includeReturnCost := by
  have hquantity : ∀ (f : CoupangProfitResult → ℚ) (a : ℚ),
      (∀ s, f (segmentProfit cost rate includeReturnCost s) = a * s.salesQuantity) →
      plainSum ((segments.map (segmentProfit cost rate includeReturnCost)).map f) =
        plainSum ((segments'.map (segmentProfit cost rate includeReturnCost)).map f) := by
    intro f a hf
    have hlinear := sum_linear_quantity (f := f ∘ segmentProfit cost rate includeReturnCost) hf
    rw [map_map, map_map, hlinear, hlinear, h.quantity, h.quantity]
  have hnet : ∀ (f : CoupangProfitResult → ℚ) (a : ℚ),
      (∀ s, f (segmentProfit cost rate includeReturnCost s) = a * s.netSalesKrw) →
      plainSum ((segments.map (segmentProfit cost rate includeReturnCost)).map f) =
        plainSum ((segments'.map (segmentProfit cost rate includeReturnCost)).map f) := by
    intro f a hf
    have hlinear := sum_linear_netSales (f := f ∘ segmentProfit cost rate includeReturnCost) hf
    rw [map_map, map_map, hlinear, hlinear, h.netSalesKrw]
  have hproduct := hquantity (·.productCostKrw) cost.productCostKrw fun _ => rfl
  have hfee := hnet (·.salesFeeKrw) rate fun s => mul_comm _ _
  have hreturn := hquantity (·.returnCostKrw) (if includeReturnCost = some false then 0
      else cost.returnRate.getD 0 * cost.returnCostPerUnitKrw.getD 0) fun s => by
    simp only [segmentProfit, calculateCoupangProfit]
    split
    · rw [zero_mul]
    · ring
  have hextra := hquantity (·.extraCostKrw) (cost.extraCostKrw.getD 0) fun _ => rfl
  have hvat := hnet (·.vatKrw) (1 / 11) fun s => by
    simp only [segmentProfit, calculateCoupangProfit, vatFromVatIncludedAmount]
    ring
  unfold calculateCoupangProfitBySegments calculateCoupangProfitByAccountingBases
  simp only [hproduct, hfee, hreturn, hextra, hvat, h.netSalesKrw, h.quantity]

/-- Segments cut in two leave the bases alone, wherever the two parts stand. -/
theorem sameBases_of_split {rest : List CoupangSalesSegment} {whole first second : CoupangSalesSegment}
    (hwhole : segments.Perm (whole :: rest)) (hparts : segments'.Perm (first :: second :: rest))
    (hfirst : first.fulfillmentMethod = whole.fulfillmentMethod)
    (hsecond : second.fulfillmentMethod = whole.fulfillmentMethod)
    (hnet : first.netSalesKrw + second.netSalesKrw = whole.netSalesKrw)
    (hquantity : first.salesQuantity + second.salesQuantity = whole.salesQuantity) :
    SameBases segments segments' where
  netSalesKrw := by
    rw [plainSum_perm (hwhole.map _), plainSum_perm (hparts.map _), plainSum_eq_sum, plainSum_eq_sum]
    simp only [map_cons, sum_cons]
    rw [← hnet, add_assoc]
  quantity m := by
    have hcongr : ∀ {l l' : List CoupangSalesSegment}, l.Perm l' → methodQuantity m l = methodQuantity m l' :=
      fun hperm => plainSum_perm ((hperm.filter _).map _)
    rw [hcongr hwhole, hcongr hparts, methodQuantity_cons, methodQuantity_cons, methodQuantity_cons, hfirst,
      hsecond, ← hquantity]
    split <;> ring

/-- **The profit of segments adds up**: every amount is the sum of the plain formula on each segment,
    the ads counted once (with all segments or with one of them); the margin is what the costs leave
    of the net sales; and a segment cut in two changes nothing. -/
theorem segment_profit_adds_up (segments : List CoupangSalesSegment) :
    let result := calculateCoupangProfitBySegments segments cost ads rate includeReturnCost
    (∀ (amount : ProfitAmount) (useGrowthCost : Option Bool), useGrowthCost ≠ some false →
      let options := segmentOptions rate includeReturnCost useGrowthCost
      amount.get result.toCoupangProfitResult =
        (segments.map fun segment => amount.get (profitOfSegment cost noAds options segment)).sum +
          amount.ofAds ads ∧
      ∀ before charged after, segments = before ++ charged :: after →
        amount.get result.toCoupangProfitResult =
          (before.map fun segment => amount.get (profitOfSegment cost noAds options segment)).sum +
          amount.get (profitOfSegment cost ads options charged) +
          (after.map fun segment => amount.get (profitOfSegment cost noAds options segment)).sum) ∧
    result.CostsAddUp ∧
    ∀ segments' rest whole first second, segments.Perm (whole :: rest) →
      segments'.Perm (first :: second :: rest) →
      first.fulfillmentMethod = whole.fulfillmentMethod →
      second.fulfillmentMethod = whole.fulfillmentMethod →
      first.netSalesKrw + second.netSalesKrw = whole.netSalesKrw →
      first.salesQuantity + second.salesQuantity = whole.salesQuantity →
      calculateCoupangProfitBySegments segments' cost ads rate includeReturnCost = result := by
  refine ⟨fun amount useGrowthCost h => ⟨?_, ?_⟩, costsAddUp_bySegments cost ads rate includeReturnCost segments,
    ?_⟩
  · exact amount_bySegments cost ads rate includeReturnCost amount segments h
  · rintro before charged after rfl
    have hsum := amount_bySegments cost ads rate includeReturnCost amount (before ++ charged :: after) h
    have hcharged := amount_ads cost ads (segmentOptions rate includeReturnCost useGrowthCost) amount charged
    rw [map_append, map_cons, sum_append, sum_cons] at hsum
    rw [hsum, hcharged]
    ring
  · intro segments' rest whole first second hwhole hparts hfirst hsecond hnet hquantity
    exact (bySegments_congr cost ads rate includeReturnCost
      (sameBases_of_split hwhole hparts hfirst hsecond hnet hquantity)).symm

end Sums

/-- A growth segment, whole and in two parts. -/
def wholeSegment : CoupangSalesSegment := { emptySalesSegment .GROWTH with netSalesKrw := 50000, salesQuantity := 5 }

def partsOfSegment : List CoupangSalesSegment :=
  [{ emptySalesSegment .GROWTH with netSalesKrw := 60000, salesQuantity := 7 },
    { emptySalesSegment .GROWTH with netSalesKrw := -10000, salesQuantity := -2 }]

def sellerSegment : CoupangSalesSegment := { emptySalesSegment .SELLER with netSalesKrw := 40000, salesQuantity := 4 }

def mugCost : CoupangCostInput :=
  { emptyCostInput with
    productCostKrw := 3000, sellerShippingFeeKrw := some (some 2500), growthInboundFeeKrw := some 700,
    growthShippingFeeKrw := some 1200, returnRate := some (1 / 20), returnCostPerUnitKrw := some 4000 }

def mugAds : CoupangAdInput := ⟨9000, 30000, 20000⟩

theorem segment_profit_adds_up_parts :
    calculateCoupangProfitBySegments (partsOfSegment ++ [sellerSegment]) mugCost mugAds (1 / 10) (some true) =
      calculateCoupangProfitBySegments [wholeSegment, sellerSegment] mugCost mugAds (1 / 10) (some true) ∧
    (calculateCoupangProfitBySegments [wholeSegment, sellerSegment] mugCost mugAds (1 / 10) (some true)).marginKrw =
      (profitOfSegment mugCost noAds (segmentOptions (1 / 10) (some true) none) wholeSegment).marginKrw +
        (profitOfSegment mugCost mugAds (segmentOptions (1 / 10) (some true) none) sellerSegment).marginKrw := by
  have h := segment_profit_adds_up mugCost mugAds (1 / 10) (some true) [wholeSegment, sellerSegment]
  refine ⟨h.2.2 _ [sellerSegment] wholeSegment _ _ (Perm.refl _) (Perm.refl _) rfl rfl (by decide +kernel)
    (by decide +kernel), ?_⟩
  simpa [ProfitAmount.get] using (h.1 .marginKrw none nofun).2 [wholeSegment] sellerSegment [] rfl

end AdsManagement.Coupang
