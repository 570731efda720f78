/-
  File:      Lib/LargestRemainder.lean
  Subject:   LARGEST REMAINDERS: a whole number of units is shared out in proportion to weights;
             every holder gets the floor of its share, and what is left over is handed out one by
             one, round and round, in the order of the remainders.

  The holders are told apart by their keys, so the order of the handing out is a list of keys.

  * `unitsOf_handOut` -- every unit that is handed out arrives at one holder;
  * `unitsOf_largestRemainder` -- the shares add up to the units, whatever the order is;
  * `mem_largestRemainder` -- where the order is that of the remainders, every share is within one
    unit of the exact one, and a holder without weight gets nothing.
-/
import Mathlib.Algebra.Order.Floor.Ring
import Mathlib.Algebra.BigOperators.Ring.List
import Mathlib.Algebra.Order.BigOperators.Group.List
import AdsManagement.Lib.RankedChoice

namespace AdsManagement.Lib

open List

/-- What a holder gets, and the fraction of a unit that the floor cut off. -/
structure Share (κ K : Type) where
  key : κ
  floorUnits : ℤ
  remainder : K

variable {κ K : Type}

def unitsOf (shares : List (Share κ K)) : ℤ := (shares.map (·.floorUnits)).sum

section HandOut

variable [DecidableEq κ]

/-- One more unit for the holder `k`. -/
def addUnit (k : κ) (shares : List (Share κ K)) : List (Share κ K) :=
  shares.map fun s => if s.key = k then { s with floorUnits := s.floorUnits + 1 } else s

/-- `n` units, the `i`-th for the holder at place `i % order.length`. -/
def handOut (order : List κ) (n : Nat) (shares : List (Share κ K)) : List (Share κ K) :=
  (range n).foldl (fun shares i =>
    match order[i % order.length]? with
    | some k => addUnit k shares
    | none => shares) shares

theorem keys_addUnit (k : κ) (shares : List (Share κ K)) :
    (addUnit k shares).map (·.key) = shares.map (·.key) := by
  unfold addUnit
  rw [map_map]
  refine map_congr_left fun s _ => ?_
  show (if s.key = k then _ else s : Share κ K).key = s.key
  split <;> rfl

variable {shares : List (Share κ K)}

theorem addUnit_of_notMem {k : κ} (h : k ∉ shares.map (·.key)) : addUnit k shares = shares := by
  conv_rhs => rw [← map_id shares]
  refine map_congr_left fun s hs => if_neg fun e => h ?_
  exact mem_map.mpr ⟨s, hs, e⟩

/-- **One holder gets one unit.** -/
theorem unitsOf_addUnit {k : κ} (hn : (shares.map (·.key)).Nodup) (h : k ∈ shares.map (·.key)) :
    unitsOf (addUnit k shares) = unitsOf shares + 1 := by
  induction shares with
  | nil => cases h
  | cons s rest ih =>
    obtain ⟨hs, hr⟩ := nodup_cons.mp hn
    by_cases e : s.key = k
    · subst e
      have hrest : addUnit s.key rest = rest := addUnit_of_notMem hs
      have hcons : addUnit s.key (s :: rest) =
          { s with floorUnits := s.floorUnits + 1 } :: addUnit s.key rest := by
        simp [addUnit]
      rw [hcons, hrest]
      simp only [unitsOf, map_cons, sum_cons]
      omega
    · have hk : k ∈ rest.map (·.key) := by
        rcases mem_cons.mp h with h1 | h1
        · exact absurd h1.symm e
        · exact h1
      have hcons : addUnit k (s :: rest) = s :: addUnit k rest := by simp [addUnit, e]
      have hi := ih hr hk
      rw [hcons]
      simp only [unitsOf, map_cons, sum_cons] at hi ⊢
      omega

theorem keys_handOut (order : List κ) (n : Nat) (shares : List (Share κ K)) :
    (handOut order n shares).map (·.key) = shares.map (·.key) := by
  induction n with
  | zero => rfl
  | succ n ih =>
    unfold handOut at ih ⊢
    rw [range_succ, foldl_append, foldl_cons, foldl_nil]
    split
    · rw [keys_addUnit, ih]
    · exact ih

variable {order : List κ}

/-- **Every unit that is handed out arrives.** -/
theorem unitsOf_handOut (ho : order ≠ []) (n : Nat) (hn : (shares.map (·.key)).Nodup)
    (hk : ∀ k ∈ order, k ∈ shares.map (·.key)) :
    unitsOf (handOut order n shares) = unitsOf shares + n := by
  induction n with
  | zero => simp [handOut]
  | succ n ih =>
    have hlt : n % order.length < order.length := Nat.mod_lt _ (length_pos_of_ne_nil ho)
    have hkeys := keys_handOut order n shares
    unfold handOut at ih hkeys ⊢
    rw [range_succ, foldl_append, foldl_cons, foldl_nil, getElem?_eq_getElem hlt]
    rw [unitsOf_addUnit (hkeys ▸ hn) (hkeys ▸ hk _ (getElem_mem hlt))]
    omega

/-- **Handing out no more units than there are holders**: the first ones in the order get one
    each. -/
theorem handOut_eq (hn : order.Nodup) {n : Nat} (h : n ≤ order.length) (shares : List (Share κ K)) :
    handOut order n shares =
      shares.map fun s => if s.key ∈ order.take n then { s with floorUnits := s.floorUnits + 1 }
        else s := by
  induction n with
  | zero => simp [handOut]
  | succ n ih =>
    have hlt : n < order.length := h
    have hi := ih (by omega)
    have hnew : order[n] ∉ order.take n := by
      intro hm
      obtain ⟨i, hin, e⟩ := getElem_of_mem hm
      rw [getElem_take] at e
      rw [length_take] at hin
      have := (Nodup.getElem_inj_iff hn).mp e
      omega
    unfold handOut at hi ⊢
    rw [range_succ, foldl_append, foldl_cons, Nat.mod_eq_of_lt hlt, getElem?_eq_getElem hlt, hi]
    show addUnit _ _ = _
    unfold addUnit
    have hmem : ∀ k, k ∈ order.take (n + 1) ↔ k ∈ order.take n ∨ k = order[n] := fun k => by
      rw [take_succ_eq_append_getElem hlt, mem_append, mem_singleton]
    rw [map_map]
    refine map_congr_left fun s _ => ?_
    rw [Function.comp_apply]
    by_cases hs : s.key ∈ order.take n
    · have hne : s.key ≠ order[n] := fun e => hnew (e ▸ hs)
      rw [if_pos hs, if_pos ((hmem _).mpr (.inl hs))]
      exact if_neg hne
    · rw [if_neg hs]
      by_cases e : s.key = order[n]
      · rw [if_pos e, if_pos ((hmem _).mpr (.inr e))]
      · rw [if_neg e, if_neg fun h => ((hmem _).mp h).elim hs e]

end HandOut

section Floors

variable [Field K] [LinearOrder K] [FloorRing K]

def floorShare (units : ℤ) (totalWeight : K) (entry : κ × K) : Share κ K :=
  let exactUnits := units * entry.2 / totalWeight
  ⟨entry.1, ⌊exactUnits⌋, exactUnits - ⌊exactUnits⌋⟩

/-- The shares of the entries, `le` being the order of the handing out. -/
def largestRemainder [DecidableEq κ] (le : Share κ K → Share κ K → Prop) [DecidableRel le] (units : ℤ)
    (totalWeight : K) (entries : List (κ × K)) : List (Share κ K) :=
  let shares := entries.map (floorShare units totalWeight)
  let remainingUnits := units - unitsOf shares
  handOut ((shares.insertionSort le).map (·.key)) remainingUnits.toNat shares

theorem keys_floorShares (units : ℤ) (totalWeight : K) (entries : List (κ × K)) :
    (entries.map (floorShare units totalWeight)).map (·.key) = entries.map (·.1) := by
  rw [map_map]
  rfl

theorem keys_largestRemainder [DecidableEq κ] (le : Share κ K → Share κ K → Prop) [DecidableRel le]
    (units : ℤ) (totalWeight : K) (entries : List (κ × K)) :
    (largestRemainder le units totalWeight entries).map (·.key) = entries.map (·.1) := by
  unfold largestRemainder
  rw [keys_handOut, keys_floorShares]

variable [IsStrictOrderedRing K]
variable {entries : List (κ × K)}

omit [IsStrictOrderedRing K] in
/-- What the floors leave over is the sum of the fractions they cut off. -/
theorem sum_remainders (units : ℤ) (hw : (entries.map (·.2)).sum ≠ 0) :
    ((entries.map (floorShare units (entries.map (·.2)).sum)).map (·.remainder)).sum =
      ((units - unitsOf (entries.map (floorShare units (entries.map (·.2)).sum)) : ℤ) : K) := by
  set W := (entries.map (·.2)).sum with hW
  have hsum : ∀ l : List (κ × K), ((l.map (floorShare units W)).map (·.remainder)).sum +
      ((unitsOf (l.map (floorShare units W)) : ℤ) : K) = units * (l.map (·.2)).sum / W := by
    intro l
    induction l with
    | nil => simp [unitsOf]
    | cons e rest ih =>
      have hone : (floorShare units W e).remainder + ((floorShare units W e).floorUnits : K) =
          units * e.2 / W := by
        exact sub_add_cancel _ _
      simp only [unitsOf, map_cons, sum_cons, Int.cast_add] at ih ⊢
      calc _ = ((floorShare units W e).remainder + ((floorShare units W e).floorUnits : K)) +
            (units * (rest.map (·.2)).sum / W) := by rw [← ih, add_add_add_comm]
        _ = units * (e.2 + (rest.map (·.2)).sum) / W := by rw [hone, ← add_div, ← mul_add]
  have h := hsum entries
  rw [mul_div_assoc, div_self hw, mul_one] at h
  rw [Int.cast_sub, ← h]
  exact (add_sub_cancel_right _ _).symm

/-- The floors never take more than there is. -/
theorem unitsOf_floorShares_le (units : ℤ) (hw : 0 < (entries.map (·.2)).sum) :
    unitsOf (entries.map (floorShare units (entries.map (·.2)).sum)) ≤ units := by
  have hsum := sum_remainders units hw.ne'
  have hnonneg : 0 ≤ ((entries.map (floorShare units (entries.map (·.2)).sum)).map (·.remainder)).sum := by
    refine sum_nonneg fun x hx => ?_
    obtain ⟨e, he, rfl⟩ := mem_map.mp hx
    obtain ⟨e, -, rfl⟩ := mem_map.mp he
    exact sub_nonneg.mpr (Int.floor_le _)
  rw [hsum] at hnonneg
  exact sub_nonneg.mp (by exact_mod_cast hnonneg)

/-- **The shares add up to the units.** -/
theorem unitsOf_largestRemainder [DecidableEq κ] (le : Share κ K → Share κ K → Prop) [DecidableRel le]
    (units : ℤ) (hn : (entries.map (·.1)).Nodup) (hw : 0 < (entries.map (·.2)).sum) :
    unitsOf (largestRemainder le units (entries.map (·.2)).sum entries) = units := by
  have hfloors := unitsOf_floorShares_le units hw
  have hne : entries ≠ [] := by
    rintro rfl
    simp at hw
  unfold largestRemainder
  rw [unitsOf_handOut]
  · omega
  · intro h
    have hl := congrArg length h
    simp [length_insertionSort] at hl
    exact hne hl
  · rwa [keys_floorShares]
  · intro k hk
    obtain ⟨s, hs, rfl⟩ := mem_map.mp hk
    exact mem_map_of_mem ((mem_insertionSort le).mp hs)

/-! ### How far a share is from the exact one -/

theorem remainder_nonneg (units : ℤ) (totalWeight : K) (entry : κ × K) :
    0 ≤ (floorShare units totalWeight entry).remainder :=
  sub_nonneg.mpr (Int.floor_le _)

theorem remainder_lt_one (units : ℤ) (totalWeight : K) (entry : κ × K) :
    (floorShare units totalWeight entry).remainder < 1 := by
  have h := Int.lt_floor_add_one ((units : K) * entry.2 / totalWeight)
  show (units : K) * entry.2 / totalWeight - ⌊(units : K) * entry.2 / totalWeight⌋ < 1
  linarith

variable {l : List (Share κ K)}

omit [FloorRing K] [IsStrictOrderedRing K] in
/-- In a list sorted by falling remainders, the first ones are the ones with a remainder. -/
theorem remainder_pos_of_mem_take (hs : l.Pairwise fun a b => b.remainder ≤ a.remainder) {n : Nat}
    (hn : n ≤ (l.filter fun s => decide (0 < s.remainder)).length) :
    ∀ s ∈ l.take n, 0 < s.remainder := by
  induction l generalizing n with
  | nil => simp
  | cons a rest ih =>
    obtain ⟨ha, hrest⟩ := pairwise_cons.mp hs
    cases n with
    | zero => simp
    | succ n =>
      by_cases hpos : 0 < a.remainder
      · rw [filter_cons_of_pos (by simpa using hpos), length_cons] at hn
        intro s hs
        rcases mem_cons.mp hs with rfl | hs
        · exact hpos
        · exact ih hrest (by omega) s hs
      · have hnil : (a :: rest).filter (fun s => decide (0 < s.remainder)) = [] := by
          rw [filter_eq_nil_iff]
          intro s hs h
          have hle : s.remainder ≤ a.remainder := by
            rcases mem_cons.mp hs with rfl | hs
            · exact le_rfl
            · exact ha s hs
          exact hpos (lt_of_lt_of_le (of_decide_eq_true h) hle)
        rw [hnil] at hn
        exact absurd hn (by simp)

omit [FloorRing K] in
/-- What is left over is no more than one unit for every holder with a remainder. -/
theorem sum_remainders_le_length (h : ∀ s ∈ l, s.remainder ≤ 1) :
    (l.map (·.remainder)).sum ≤ ((l.filter fun s => decide (0 < s.remainder)).length : K) := by
  induction l with
  | nil => simp
  | cons a rest ih =>
    have hrest := ih fun s hs => h s (mem_cons_of_mem _ hs)
    rw [map_cons, sum_cons]
    by_cases hpos : 0 < a.remainder
    · rw [filter_cons_of_pos (by simpa using hpos), length_cons, Nat.cast_succ]
      linarith [h a mem_cons_self]
    · rw [filter_cons_of_neg (by simpa using hpos)]
      linarith [not_lt.mp hpos]

variable {le : Share κ K → Share κ K → Prop}

/-- Who gets a unit more than the floor has a remainder. -/
theorem remainder_pos_of_handed [DecidableEq κ] [DecidableRel le]
    (hle : RefinesRank (fun s : Share κ K => -s.remainder) le) (units : ℤ) (hn : (entries.map (·.1)).Nodup)
    (hw : (entries.map (·.2)).sum ≠ 0) {remaining : Nat}
    (hr : (remaining : ℤ) = units - unitsOf (entries.map (floorShare units (entries.map (·.2)).sum))) :
    remaining ≤ entries.length ∧ ∀ e ∈ entries,
      e.1 ∈ (((entries.map (floorShare units (entries.map (·.2)).sum)).insertionSort le).map
        (·.key)).take remaining → 0 < (floorShare units (entries.map (·.2)).sum e).remainder := by
  set W := (entries.map (·.2)).sum with hW
  set shares := entries.map (floorShare units W) with hshares
  have hsorted : (shares.insertionSort le).Pairwise fun a b => b.remainder ≤ a.remainder :=
    (hle.pairwise_insertionSort shares).imp fun h => neg_le_neg_iff.mp h
  have hperm : (shares.insertionSort le).Perm shares := perm_insertionSort le shares
  have hsmall : ∀ s ∈ shares, s.remainder ≤ 1 := by
    intro s hs
    obtain ⟨e, _, rfl⟩ := mem_map.mp hs
    exact (remainder_lt_one units W e).le
  have hcount : remaining ≤
      ((shares.insertionSort le).filter fun s => decide (0 < s.remainder)).length := by
    rw [(hperm.filter _).length_eq]
    have hsum := sum_remainders_le_length hsmall
    rw [sum_remainders units hw, ← hr] at hsum
    exact_mod_cast hsum
  constructor
  · calc remaining
        ≤ ((shares.insertionSort le).filter fun s => decide (0 < s.remainder)).length := hcount
      _ ≤ (shares.insertionSort le).length := length_filter_le _ _
      _ = entries.length := by rw [length_insertionSort, length_map]
  · intro e he hm
    rw [← map_take] at hm
    obtain ⟨s, hs, hkey⟩ := mem_map.mp hm
    have hs' : s ∈ shares := hperm.subset (mem_of_mem_take hs)
    obtain ⟨e', he', rfl⟩ := mem_map.mp hs'
    have heq : e' = e := inj_on_of_nodup_map hn he' he hkey
    exact heq ▸ remainder_pos_of_mem_take hsorted hcount _ hs

/-- **A share is within one unit of the exact one**, it is nonnegative, and a holder without weight
    gets nothing. -/
theorem mem_largestRemainder [DecidableEq κ] [DecidableRel le]
    (hle : RefinesRank (fun s : Share κ K => -s.remainder) le) {units : ℤ} (hu : 0 ≤ units)
    (hn : (entries.map (·.1)).Nodup) (hpos : ∀ e ∈ entries, 0 ≤ e.2) (hw : 0 < (entries.map (·.2)).sum)
    {e : κ × K} (he : e ∈ entries) :
    ∃ s ∈ largestRemainder le units (entries.map (·.2)).sum entries, s.key = e.1 ∧
      0 ≤ s.floorUnits ∧ |(s.floorUnits : K) - units * e.2 / (entries.map (·.2)).sum| < 1 ∧
      (e.2 = 0 → s.floorUnits = 0) := by
  set W := (entries.map (·.2)).sum with hW
  set shares := entries.map (floorShare units W) with hshares
  have hfloors : unitsOf shares ≤ units := unitsOf_floorShares_le units hw
  obtain ⟨hlen, hbonus⟩ := remainder_pos_of_handed hle units hn hw.ne'
    (Int.toNat_of_nonneg (sub_nonneg.mpr hfloors))
  have horder : (((shares.insertionSort le).map (·.key))).Nodup := by
    rw [((perm_insertionSort le shares).map _).nodup_iff, keys_floorShares]
    exact hn
  have hall : largestRemainder le units W entries = shares.map fun s =>
      if s.key ∈ ((shares.insertionSort le).map (·.key)).take (units - unitsOf shares).toNat then
        { s with floorUnits := s.floorUnits + 1 } else s := by
    refine handOut_eq horder ?_ shares
    rw [length_map, length_insertionSort, length_map]
    exact hlen
  have hexact : 0 ≤ (units : K) * e.2 / W := by
    have := hpos e he
    positivity
  have hfloor : 0 ≤ ⌊(units : K) * e.2 / W⌋ := Int.floor_nonneg.mpr hexact
  have hrem : (units : K) * e.2 / W - ⌊(units : K) * e.2 / W⌋ =
      (floorShare units W e).remainder := rfl
  have hlt := remainder_lt_one units W e
  have hnonneg := remainder_nonneg units W e
  refine ⟨_, hall ▸ mem_map_of_mem (mem_map_of_mem he), ?_⟩
  by_cases hm : (floorShare units W e).key ∈
      ((shares.insertionSort le).map (·.key)).take (units - unitsOf shares).toNat
  · have hposr := hbonus e he hm
    rw [if_pos hm]
    refine ⟨rfl, by show 0 ≤ ⌊_⌋ + 1; omega, ?_, fun h0 => ?_⟩
    · show |((⌊(units : K) * e.2 / W⌋ + 1 : ℤ) : K) - _| < 1
      push_cast
      rw [abs_lt]
      constructor
      · linarith
      · linarith
    · have hzero : (floorShare units W e).remainder = 0 := by
        show (units : K) * e.2 / W - ⌊(units : K) * e.2 / W⌋ = 0
        simp [h0]
      exact absurd hzero hposr.ne'
  · rw [if_neg hm]
    refine ⟨rfl, hfloor, ?_, fun h0 => ?_⟩
    · show |((⌊(units : K) * e.2 / W⌋ : ℤ) : K) - _| < 1
      rw [abs_lt]
      constructor
      · linarith
      · linarith
    · show ⌊(units : K) * e.2 / W⌋ = 0
      simp [h0]

end Floors

end AdsManagement.Lib
