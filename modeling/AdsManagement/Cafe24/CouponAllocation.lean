/-
  File:      Cafe24/CouponAllocation.lean
  Subject:   SHARING OUT AN AMOUNT BY WEIGHTS: `allocateNonNegativeByWeight`
             (domain/cafe24-coupon-matcher.ts), which splits a coupon among the products of an
             order.

  A number is a rational, or nothing where it is not finite. `localeCompare` is a parameter; that
  it orders the keys is assumed only where the order of the weights is spoken of.

  * `unitOf` -- whole won for a whole amount, hundredths otherwise;
  * `allocateNonNegativeByWeight_fair` -- the shares add up to the amount, each within one unit of
    its exact share, and the order of the weights plays no part.
-/
import Mathlib.Algebra.Order.BigOperators.Group.List
import Mathlib.Data.Rat.Floor
import AdsManagement.Common.Text
import AdsManagement.Lib.LargestRemainder
import AdsManagement.Lib.OrderedMap

namespace AdsManagement.Cafe24

open Common Lib List

/-! ## 1. The function -/

/-- `Math.round`. -/
def roundHalfUp (x : ℚ) : Int := ⌊x + 1 / 2⌋

/-- `Number.isFinite(weight) ? Math.max(0, weight) : 0`. -/
def clampWeight (weight : Option ℚ) : ℚ :=
  match weight with
  | some w => max 0 w
  | none => 0

def moneyScale (totalAmount : ℚ) : Int := if totalAmount.isInt then 1 else 100

/-- `totalUnits = Math.round(totalAmount * moneyScale)`. -/
def unitsIn (totalAmount : ℚ) : Int := roundHalfUp (totalAmount * moneyScale totalAmount)

section Source

variable (localeCompare : String → String → Int)

/-- `right.remainder - left.remainder || left.key.localeCompare(right.key)`. -/
def compareRemainders (left right : Share String ℚ) : ℚ :=
  if right.remainder - left.remainder ≠ 0 then right.remainder - left.remainder
  else localeCompare left.key right.key

def weightEntries (weights : OrderedMap String (Option ℚ)) : List (String × ℚ) :=
  (weights.entries.map fun (key, weight) => (key, clampWeight weight)).insertionSort
    fun left right => localeCompare left.1 right.1 ≤ 0

def allocateNonNegativeByWeight (totalAmount : Option ℚ) (weights : OrderedMap String (Option ℚ)) :
    Option (OrderedMap String ℚ) :=
  match totalAmount with
  | none => none
  | some totalAmount =>
    if totalAmount < 0 ∨ weights.entries.length = 0 then none
    else
      let entries := weightEntries localeCompare weights
      let totalWeight := (entries.map (·.2)).sum
      if totalWeight ≤ 0 then none
      else
        let totalUnits := unitsIn totalAmount
        if totalUnits.natAbs > maxSafeInteger ∨ totalUnits < 0 then none
        else
          let shares := largestRemainder
            (fun left right => compareRemainders localeCompare left right ≤ 0)
            totalUnits totalWeight entries
          some (OrderedMap.ofList ((shares.insertionSort fun left right =>
            localeCompare left.key right.key ≤ 0).map fun share =>
              (share.key, (share.floorUnits : ℚ) / moneyScale totalAmount)))

end Source

/-! ## 2. Units -/

/-- The amount that a share is a multiple of. -/
def unitOf (totalAmount : ℚ) : ℚ := 1 / (moneyScale totalAmount : ℚ)

def AtMostTwoDecimals (x : ℚ) : Prop := (x * 100).isInt = true

instance (x : ℚ) : Decidable (AtMostTwoDecimals x) := inferInstanceAs (Decidable (_ = true))

theorem moneyScale_pos (x : ℚ) : (0 : ℚ) < moneyScale x := by
  unfold moneyScale
  split
  · norm_num
  · norm_num

theorem roundHalfUp_intCast (n : Int) : roundHalfUp n = n := by
  unfold roundHalfUp
  rw [Int.floor_eq_iff]
  constructor
  · linarith
  · linarith

/-- **An amount with at most two decimals is a whole number of units.** -/
theorem cast_unitsIn {x : ℚ} (h : AtMostTwoDecimals x) :
    ((unitsIn x : Int) : ℚ) = x * moneyScale x := by
  have hint : ∃ n : Int, x * moneyScale x = n := by
    unfold moneyScale
    split
    · next hx => exact ⟨x.num, by rw [Int.cast_one, mul_one]; exact Rat.eq_num_of_isInt hx⟩
    · exact ⟨(x * 100).num, Rat.eq_num_of_isInt h⟩
  obtain ⟨n, hn⟩ := hint
  rw [unitsIn, hn, roundHalfUp_intCast]

/-! ## 3. The entries -/

theorem clampWeight_nonneg (weight : Option ℚ) : 0 ≤ clampWeight weight := by
  cases weight with
  | none => exact le_rfl
  | some w => exact le_max_left 0 w

section Spec

variable (localeCompare : String → String → Int)

section

variable (weights : OrderedMap String (Option ℚ))

theorem perm_weightEntries : (weightEntries localeCompare weights).Perm
      (weights.entries.map fun e => (e.1, clampWeight e.2)) :=
  perm_insertionSort _ _

theorem keys_weightEntries : ((weightEntries localeCompare weights).map (·.1)).Perm weights.keys := by
  refine ((perm_weightEntries localeCompare weights).map _).trans (Perm.of_eq ?_)
  rw [map_map]
  rfl

theorem nodup_weightEntries : ((weightEntries localeCompare weights).map (·.1)).Nodup :=
  (keys_weightEntries localeCompare weights).nodup_iff.mpr weights.nodup_keys

theorem weightEntries_nonneg : ∀ e ∈ weightEntries localeCompare weights, 0 ≤ e.2 := by
  intro e he
  obtain ⟨e', _, rfl⟩ := mem_map.mp ((perm_weightEntries localeCompare weights).subset he)
  exact clampWeight_nonneg e'.2

end

/-- The sum of the weights as they count. -/
def totalWeightOf (weights : OrderedMap String (Option ℚ)) : ℚ :=
  (weights.values.map clampWeight).sum

theorem sum_weightEntries (weights : OrderedMap String (Option ℚ)) :
    ((weightEntries localeCompare weights).map (·.2)).sum = totalWeightOf weights := by
  rw [((perm_weightEntries localeCompare weights).map _).sum_eq, map_map, totalWeightOf,
    OrderedMap.values, map_map]
  rfl

variable {weights : OrderedMap String (Option ℚ)}

theorem totalWeightOf_pos {w : ℚ} (hw : some w ∈ weights.values) (hpos : 0 < w) :
    0 < totalWeightOf weights := by
  have hmem : w ∈ weights.values.map clampWeight :=
    mem_map.mpr ⟨some w, hw, max_eq_right hpos.le⟩
  refine lt_of_lt_of_le hpos (single_le_sum ?_ w hmem)
  intro x hx
  obtain ⟨v, _, rfl⟩ := mem_map.mp hx
  exact clampWeight_nonneg v

/-! ## 4. The shares -/

def couponShares (totalAmount : ℚ) (weights : OrderedMap String (Option ℚ)) :
    List (Share String ℚ) :=
  largestRemainder (fun left right => compareRemainders localeCompare left right ≤ 0)
    (unitsIn totalAmount) ((weightEntries localeCompare weights).map (·.2)).sum
    (weightEntries localeCompare weights)

def allocationOf (totalAmount : ℚ) (weights : OrderedMap String (Option ℚ)) : OrderedMap String ℚ :=
  OrderedMap.ofList (((couponShares localeCompare totalAmount weights).insertionSort
    fun left right => localeCompare left.key right.key ≤ 0).map fun share =>
      (share.key, (share.floorUnits : ℚ) / moneyScale totalAmount))

/-- When the function returns a map. -/
structure CanAllocate (totalAmount : ℚ) (weights : OrderedMap String (Option ℚ)) : Prop where
  nonneg : 0 ≤ totalAmount
  weight : 0 < totalWeightOf weights
  safe : (unitsIn totalAmount).natAbs ≤ maxSafeInteger
  units : 0 ≤ unitsIn totalAmount

variable {totalAmount : ℚ}

/-- **The function, in one line.** -/
theorem allocateNonNegativeByWeight_eq_some_iff {shares : OrderedMap String ℚ} :
    allocateNonNegativeByWeight localeCompare (some totalAmount) weights = some shares ↔
      CanAllocate totalAmount weights ∧ shares = allocationOf localeCompare totalAmount weights := by
  have hempty : weights.entries.length = 0 → totalWeightOf weights = 0 := by
    intro h
    rw [totalWeightOf, OrderedMap.values, length_eq_zero_iff.mp h]
    rfl
  unfold allocateNonNegativeByWeight
  simp only [sum_weightEntries]
  by_cases h1 : totalAmount < 0 ∨ weights.entries.length = 0
  · rw [if_pos h1]
    refine ⟨nofun, fun ⟨h, _⟩ => ?_⟩
    rcases h1 with h1 | h1
    · exact absurd h.nonneg (not_le.mpr h1)
    · exact absurd (hempty h1) h.weight.ne'
  · rw [if_neg h1]
    by_cases h2 : totalWeightOf weights ≤ 0
    · rw [if_pos h2]
      exact ⟨nofun, fun ⟨h, _⟩ => absurd h.weight (not_lt.mpr h2)⟩
    · rw [if_neg h2]
      by_cases h3 : (unitsIn totalAmount).natAbs > maxSafeInteger ∨ unitsIn totalAmount < 0
      · rw [if_pos h3]
        refine ⟨nofun, fun ⟨h, _⟩ => ?_⟩
        rcases h3 with h3 | h3
        · exact absurd h.safe (not_le.mpr h3)
        · exact absurd h.units (not_le.mpr h3)
      · rw [if_neg h3, Option.some.injEq]
        have hbody : allocationOf localeCompare totalAmount weights = OrderedMap.ofList
            (((largestRemainder (fun left right => compareRemainders localeCompare left right ≤ 0)
              (unitsIn totalAmount) (totalWeightOf weights)
              (weightEntries localeCompare weights)).insertionSort fun left right =>
                localeCompare left.key right.key ≤ 0).map fun share =>
                  (share.key, (share.floorUnits : ℚ) / moneyScale totalAmount)) := by
          unfold allocationOf couponShares
          rw [sum_weightEntries]
        rw [not_or] at h1 h3
        refine ⟨fun h => ⟨⟨not_lt.mp h1.1, not_le.mp h2, not_lt.mp h3.1, not_lt.mp h3.2⟩, ?_⟩,
          fun ⟨_, h⟩ => ?_⟩
        · rw [hbody]
          exact h.symm
        · rw [h, hbody]

theorem refinesRank_compareRemainders : RefinesRank (fun s : Share String ℚ => -s.remainder)
    fun left right => compareRemainders localeCompare left right ≤ 0 where
  of_le a b h := by
    unfold compareRemainders at h
    split at h
    · linarith
    · next heq => exact neg_le_neg (by linarith [sub_eq_zero.mp (not_not.mp heq)])
  of_not_le a b h := by
    unfold compareRemainders at h
    split at h
    · linarith
    · next heq => exact neg_le_neg (by linarith [sub_eq_zero.mp (not_not.mp heq)])

section

variable (totalAmount : ℚ) (weights : OrderedMap String (Option ℚ))

theorem keys_couponShares : (couponShares localeCompare totalAmount weights).map (·.key) =
      (weightEntries localeCompare weights).map (·.1) :=
  keys_largestRemainder _ _ _ _

/-- The entries of the map that is returned: the shares, in the order of their keys. -/
theorem perm_entries_allocationOf : (allocationOf localeCompare totalAmount weights).entries.Perm
      ((couponShares localeCompare totalAmount weights).map fun share =>
        (share.key, (share.floorUnits : ℚ) / moneyScale totalAmount)) := by
  have hperm : ((couponShares localeCompare totalAmount weights).insertionSort
      fun left right => localeCompare left.key right.key ≤ 0).Perm
        (couponShares localeCompare totalAmount weights) := perm_insertionSort _ _
  unfold allocationOf
  rw [OrderedMap.entries_ofList]
  · exact hperm.map _
  · rw [map_map]
    refine ((hperm.map (·.key)).nodup_iff).mpr ?_
    rw [keys_couponShares]
    exact nodup_weightEntries localeCompare weights

theorem keys_allocationOf : (allocationOf localeCompare totalAmount weights).keys.Perm weights.keys := by
  refine ((perm_entries_allocationOf localeCompare totalAmount weights).map (·.1)).trans ?_
  rw [map_map]
  refine Perm.trans (Perm.of_eq ?_) (keys_weightEntries localeCompare weights)
  exact keys_couponShares localeCompare totalAmount weights

end

/-- **The shares of an amount with at most two decimals add up to it.** -/
theorem sum_allocationOf (h2 : AtMostTwoDecimals totalAmount) (hw : 0 < totalWeightOf weights) :
    (allocationOf localeCompare totalAmount weights).values.sum = totalAmount := by
  have hunits := unitsOf_largestRemainder
    (fun left right => compareRemainders localeCompare left right ≤ 0) (unitsIn totalAmount)
    (nodup_weightEntries localeCompare weights) (by rwa [sum_weightEntries])
  have hsum : ∀ l : List (Share String ℚ),
      (l.map fun share => (share.floorUnits : ℚ) / moneyScale totalAmount).sum =
        (unitsOf l : ℚ) / moneyScale totalAmount := by
    intro l
    induction l with
    | nil => simp [unitsOf]
    | cons s rest ih =>
      rw [map_cons, sum_cons, ih, ← add_div]
      simp [unitsOf]
  calc (allocationOf localeCompare totalAmount weights).values.sum
      = (((couponShares localeCompare totalAmount weights).map fun share =>
          (share.key, (share.floorUnits : ℚ) / moneyScale totalAmount)).map (·.2)).sum :=
        ((perm_entries_allocationOf localeCompare totalAmount weights).map _).sum_eq
    _ = (unitsOf (couponShares localeCompare totalAmount weights) : ℚ) / moneyScale totalAmount := by
        rw [map_map, ← hsum]
        rfl
    _ = (unitsIn totalAmount : ℚ) / moneyScale totalAmount := by rw [couponShares, hunits]
    _ = totalAmount := by
        rw [cast_unitsIn h2, mul_div_assoc, div_self (moneyScale_pos totalAmount).ne', mul_one]

/-! ## 5. Fairness -/

/-- What a fair division is. -/
structure FairShares (totalAmount : ℚ) (weights : OrderedMap String (Option ℚ))
    (shares : OrderedMap String ℚ) : Prop where
  keys : shares.keys.Perm weights.keys
  sum : shares.values.sum = totalAmount
  share : ∀ key weight, weights.get key = some weight → ∃ amount, shares.get key = some amount ∧
    0 ≤ amount ∧ (∃ n : Nat, amount = n * unitOf totalAmount) ∧
    |amount - totalAmount * clampWeight weight / totalWeightOf weights| < unitOf totalAmount ∧
    (clampWeight weight = 0 → amount = 0)

theorem fairShares_allocationOf (h2 : AtMostTwoDecimals totalAmount) (h : CanAllocate totalAmount weights) :
    FairShares totalAmount weights (allocationOf localeCompare totalAmount weights) where
  keys := keys_allocationOf localeCompare totalAmount weights
  sum := sum_allocationOf localeCompare h2 h.weight
  share key weight hget := by
    have he : (key, clampWeight weight) ∈ weightEntries localeCompare weights :=
      (perm_weightEntries localeCompare weights).symm.subset
        (mem_map.mpr ⟨(key, weight), OrderedMap.get_eq_some_iff.mp hget, rfl⟩)
    have hw : 0 < ((weightEntries localeCompare weights).map (·.2)).sum := by
      rw [sum_weightEntries]
      exact h.weight
    obtain ⟨share, hs, hkey, hnonneg, hnear, hzero⟩ := mem_largestRemainder
      (refinesRank_compareRemainders localeCompare) h.units (nodup_weightEntries localeCompare weights)
      (weightEntries_nonneg localeCompare weights) hw he
    have hscale := moneyScale_pos totalAmount
    have hunits := cast_unitsIn h2
    rw [sum_weightEntries] at hnear
    refine ⟨(share.floorUnits : ℚ) / moneyScale totalAmount, ?_, ?_, ⟨share.floorUnits.toNat, ?_⟩, ?_,
      fun h0 => ?_⟩
    · refine OrderedMap.get_eq_some_iff.mpr
        ((perm_entries_allocationOf localeCompare totalAmount weights).symm.subset ?_)
      refine mem_map.mpr ⟨share, hs, ?_⟩
      rw [hkey]
    · exact div_nonneg (by exact_mod_cast hnonneg) hscale.le
    · have hcast : ((share.floorUnits.toNat : Int) : ℚ) = share.floorUnits := by
        rw [Int.toNat_of_nonneg hnonneg]
      rw [unitOf, mul_one_div, ← hcast]
      rfl
    · have hsplit : (share.floorUnits : ℚ) / moneyScale totalAmount -
          totalAmount * clampWeight weight / totalWeightOf weights =
          ((share.floorUnits : ℚ) - unitsIn totalAmount * clampWeight weight / totalWeightOf weights) /
            moneyScale totalAmount := by
        rw [hunits]
        field_simp
      rw [hsplit, abs_div, abs_of_pos hscale]
      exact div_lt_div_of_pos_right hnear hscale
    · rw [hzero h0]
      simp

/-! ## 6. The order of the weights -/

/-- `localeCompare` orders the texts and tells the keys apart. -/
structure OrdersKeys (keys : List String) : Prop extends IsComparator localeCompare where
  tellsApart : ∀ a ∈ keys, ∀ b ∈ keys, localeCompare a b ≤ 0 → localeCompare b a ≤ 0 → a = b

section

variable {weights' : OrderedMap String (Option ℚ)} (h : OrdersKeys localeCompare weights.keys)
  (hperm : weights.entries.Perm weights'.entries)
include h hperm

theorem weightEntries_perm :
    weightEntries localeCompare weights = weightEntries localeCompare weights' := by
  refine h.toIsComparator.insertionSort_eq (fun a ha b hb hab hba => ?_) (hperm.map _)
  obtain ⟨e, he, rfl⟩ := mem_map.mp ha
  obtain ⟨e', he', rfl⟩ := mem_map.mp hb
  have hkey : e.1 = e'.1 :=
    h.tellsApart _ (mem_map_of_mem he) _ (mem_map_of_mem he') hab hba
  rw [inj_on_of_nodup_map weights.nodup he he' hkey]

/-- The map does not depend on the order of the weights. -/
theorem allocateNonNegativeByWeight_perm
    (totalAmount : Option ℚ) : allocateNonNegativeByWeight localeCompare totalAmount weights' =
      allocateNonNegativeByWeight localeCompare totalAmount weights := by
  unfold allocateNonNegativeByWeight
  rw [weightEntries_perm localeCompare h hperm, hperm.length_eq]

end

/-- **A fair and exact division.** For an amount with at most two decimals whose units are a safe
    integer, and weights one of which is positive, the shares are multiples of the unit that add up
    to the amount, each within one unit of its exact share; a weight that does not count gets
    nothing; and where `localeCompare` tells the keys apart, the order of the weights plays no
    part. -/
theorem allocateNonNegativeByWeight_fair {totalAmount : ℚ} (h0 : 0 ≤ totalAmount)
    (h2 : AtMostTwoDecimals totalAmount)
    (hsafe : totalAmount * moneyScale totalAmount ≤ maxSafeInteger)
    {weights : OrderedMap String (Option ℚ)} (hpos : ∃ w, some w ∈ weights.values ∧ 0 < w) :
    ∃ shares, allocateNonNegativeByWeight localeCompare (some totalAmount) weights = some shares ∧
      FairShares totalAmount weights shares ∧
      ∀ weights', weights.entries.Perm weights'.entries → OrdersKeys localeCompare weights.keys →
        allocateNonNegativeByWeight localeCompare (some totalAmount) weights' = some shares := by
  obtain ⟨w, hw, hwpos⟩ := hpos
  have hunits := cast_unitsIn h2
  have hnonneg : 0 ≤ unitsIn totalAmount := by
    have : (0 : ℚ) ≤ unitsIn totalAmount := by
      rw [hunits]
      exact mul_nonneg h0 (moneyScale_pos totalAmount).le
    exact_mod_cast this
  have hle : unitsIn totalAmount ≤ maxSafeInteger := by
    rw [← hunits] at hsafe
    exact_mod_cast hsafe
  have hcan : CanAllocate totalAmount weights :=
    ⟨h0, totalWeightOf_pos hw hwpos, by omega, hnonneg⟩
  have hrun := (allocateNonNegativeByWeight_eq_some_iff localeCompare).mpr ⟨hcan, rfl⟩
  refine ⟨_, hrun, fairShares_allocationOf localeCompare h2 hcan, fun weights' hperm hkeys => ?_⟩
  rw [allocateNonNegativeByWeight_perm localeCompare hkeys hperm, hrun]

end Spec

/-- A negative weight and one that is no number count for nothing. -/
def mixedWeights : OrderedMap String (Option ℚ) :=
  OrderedMap.ofList [("product-a", some 5), ("product-b", some (-10)), ("product-c", none),
    ("product-d", some 5)]

theorem fair_ten_won_and_one : ∃ shares,
    allocateNonNegativeByWeight asciiCompare (some (1001 / 100)) mixedWeights = some shares ∧
      FairShares (1001 / 100) mixedWeights shares := by
  have h0 : (0 : ℚ) ≤ 1001 / 100 := by norm_num
  have hpos : ∃ w, some w ∈ mixedWeights.values ∧ 0 < w := ⟨5, by decide +kernel, by norm_num⟩
  obtain ⟨shares, hrun, hfair, _⟩ := allocateNonNegativeByWeight_fair asciiCompare h0
    (by decide +kernel) (by decide +kernel) hpos
  exact ⟨shares, hrun, hfair⟩

/-- An amount in whole won is divided in whole won: a share of 100 won among three is 34 won, two
    thirds of a won more than the exact share. -/
theorem hundred_won_among_three :
    (allocateNonNegativeByWeight asciiCompare (some 100) (OrderedMap.ofList
      [("a", some 1), ("b", some 1), ("c", some 1)])).map OrderedMap.entries =
        some [("a", 34), ("b", 33), ("c", 33)] ∧
      (1 / 100 : ℚ) ≤ |34 - 100 * 1 / 3| := by
  decide +kernel

end AdsManagement.Cafe24
