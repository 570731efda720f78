/-
  File:      Lib/CappedShares.lean
  Subject:   CAPPED SHARES: an amount is shared out in proportion to weights, no share above what
             its holder has; what is cut off goes to the holders with something to spare, and
             what nobody can take stays with the last one.

  * `sum_cappedShares` -- the shares add up to the amount, whatever the holders have;
  * `cappedShares_le` -- no holder gives more than it has, when together they have the amount.
-/
import Mathlib.Algebra.Order.Field.Basic
import Mathlib.Algebra.BigOperators.Group.List.Basic
import Mathlib.Tactic.Linarith
import Mathlib.Tactic.LinearCombination
import Mathlib.Tactic.Ring

namespace AdsManagement.Lib

open List

variable {K : Type} [Field K] [LinearOrder K]

/-- `values[values.length - 1] += amount`. -/
def addToLast (amount : K) : List K → List K
  | [] => []
  | [x] => [x + amount]
  | x :: y :: rest => x :: addToLast amount (y :: rest)

/-- The proportional shares; the last one takes the remainder of the division. -/
def proportional (total : K) (weights : List K) : List K :=
  let shares := weights.map fun w => total * (w / weights.sum)
  addToLast (total - shares.sum) shares

/-- Cuts each `(available, share)` down to what is available; the cuts add to `shortfall`. -/
def capShares : List (K × K) → K → List K × K
  | [], shortfall => ([], shortfall)
  | (available, share) :: rest, shortfall =>
    if available < share then
      let capped := capShares rest (shortfall + (share - available))
      (available :: capped.1, capped.2)
    else
      let capped := capShares rest shortfall
      (share :: capped.1, capped.2)

/-- Hands the shortfall to the holders in order, as far as each can take more. -/
def redistribute : List (K × K) → K → List K × K
  | [], shortfall => ([], shortfall)
  | (available, share) :: rest, shortfall =>
    if 0 < shortfall then
      let extra := min (max 0 (available - share)) shortfall
      let spread := redistribute rest (shortfall - extra)
      ((share + extra) :: spread.1, spread.2)
    else (share :: rest.map (·.2), shortfall)

def cappedShares (total : K) (weights available : List K) : List K :=
  let capped := capShares (available.zip (proportional total weights)) 0
  let spread := redistribute (available.zip capped.1) capped.2
  if 0 < spread.2 then addToLast spread.2 spread.1 else spread.1

section

omit [LinearOrder K]

theorem sum_addToLast (amount : K) {l : List K} (h : l ≠ []) :
    (addToLast amount l).sum = l.sum + amount := by
  induction l with
  | nil => exact absurd rfl h
  | cons x rest ih =>
    cases rest with
    | nil => simp [addToLast]
    | cons y rest =>
      rw [addToLast, sum_cons, ih (cons_ne_nil y rest), sum_cons (a := x)]
      ring

theorem length_addToLast (amount : K) (l : List K) : (addToLast amount l).length = l.length := by
  induction l with
  | nil => rfl
  | cons x rest ih =>
    cases rest with
    | nil => rfl
    | cons y rest => rw [addToLast, length_cons, ih, length_cons (a := x)]

theorem length_proportional (total : K) (weights : List K) :
    (proportional total weights).length = weights.length := by
  simp [proportional, length_addToLast]

theorem sum_proportional (total : K) {weights : List K} (h : weights ≠ []) :
    (proportional total weights).sum = total := by
  have hne : weights.map (fun w => total * (w / weights.sum)) ≠ [] := by simpa using h
  unfold proportional
  rw [sum_addToLast _ hne]
  ring

end

theorem length_capShares (l : List (K × K)) (s : K) : (capShares l s).1.length = l.length := by
  induction l generalizing s with
  | nil => rfl
  | cons p rest ih =>
    unfold capShares
    split <;> simp [ih]

theorem length_redistribute (l : List (K × K)) (s : K) :
    (redistribute l s).1.length = l.length := by
  induction l generalizing s with
  | nil => rfl
  | cons p rest ih =>
    unfold redistribute
    split <;> simp [ih]

theorem length_cappedShares (total : K) {weights available : List K}
    (h : available.length = weights.length) :
    (cappedShares total weights available).length = weights.length := by
  have hl : (redistribute (available.zip (capShares (available.zip (proportional total weights))
      0).1) (capShares (available.zip (proportional total weights)) 0).2).1.length =
      weights.length := by
    rw [length_redistribute, length_zip, length_capShares, length_zip,
      length_proportional, h, Nat.min_self, Nat.min_self]
  unfold cappedShares
  simp only
  split
  · rw [length_addToLast, hl]
  · exact hl

theorem sum_capShares (l : List (K × K)) (s : K) :
    (capShares l s).1.sum + (capShares l s).2 = (l.map (·.2)).sum + s := by
  induction l generalizing s with
  | nil => rfl
  | cons p rest ih =>
    obtain ⟨a, d⟩ := p
    unfold capShares
    split
    · have := ih (s + (d - a))
      simp only [sum_cons, map_cons]
      linear_combination this
    · have := ih s
      simp only [sum_cons, map_cons]
      linear_combination this

theorem sum_redistribute (l : List (K × K)) (s : K) :
    (redistribute l s).1.sum + (redistribute l s).2 = (l.map (·.2)).sum + s := by
  induction l generalizing s with
  | nil => rfl
  | cons p rest ih =>
    obtain ⟨a, d⟩ := p
    unfold redistribute
    split
    · have := ih (s - min (max 0 (a - d)) s)
      simp only [sum_cons, map_cons]
      linear_combination this
    · simp only [map_cons]

variable [IsStrictOrderedRing K]

theorem capShares_nonneg (l : List (K × K)) {s : K} (h : 0 ≤ s) : 0 ≤ (capShares l s).2 := by
  induction l generalizing s with
  | nil => exact h
  | cons p rest ih =>
    unfold capShares
    split
    · next hlt => exact ih (by linarith)
    · exact ih h

theorem redistribute_nonneg (l : List (K × K)) {s : K} (h : 0 ≤ s) : 0 ≤ (redistribute l s).2 := by
  induction l generalizing s with
  | nil => exact h
  | cons p rest ih =>
    unfold redistribute
    split
    · exact ih (sub_nonneg.mpr (min_le_right _ _))
    · exact h

/-- **Nothing of the amount is lost.** -/
theorem sum_cappedShares (total : K) {weights available : List K} (hw : weights ≠ [])
    (h : available.length = weights.length) : (cappedShares total weights available).sum = total := by
  have hprop := sum_proportional total hw
  have hlen := length_proportional total weights
  unfold cappedShares
  simp only
  generalize proportional total weights = shares at hprop hlen
  have hcap := sum_capShares (available.zip shares) 0
  have hcap0 := capShares_nonneg (available.zip shares) (le_refl (0 : K))
  have hcapl := length_capShares (available.zip shares) 0
  rw [map_snd_zip (by omega)] at hcap
  rw [length_zip, hlen, h] at hcapl
  generalize capShares (available.zip shares) 0 = capped at hcap hcap0 hcapl
  have hred := sum_redistribute (available.zip capped.1) capped.2
  have hred0 := redistribute_nonneg (available.zip capped.1) hcap0
  have hredl := length_redistribute (available.zip capped.1) capped.2
  rw [map_snd_zip (by omega)] at hred
  rw [length_zip, hcapl, h] at hredl
  generalize redistribute (available.zip capped.1) capped.2 = spread at hred hred0 hredl
  split
  · have hne : spread.1 ≠ [] := fun e => hw (by simpa [e, eq_comm] using hredl)
    rw [sum_addToLast _ hne]
    linear_combination hred + hcap + hprop
  · rename_i hs
    have h0 : spread.2 = 0 := le_antisymm (not_lt.mp hs) hred0
    rw [h0] at hred
    linear_combination hred + hcap + hprop

/-! ## Nobody overdraws -/

omit [IsStrictOrderedRing K] in
theorem capShares_le (l : List (K × K)) (s : K) :
    Forall₂ (· ≤ ·) (capShares l s).1 (l.map (·.1)) := by
  induction l generalizing s with
  | nil => exact Forall₂.nil
  | cons p rest ih =>
    unfold capShares
    split
    · exact Forall₂.cons le_rfl (ih _)
    · next hle => exact Forall₂.cons (not_lt.mp hle) (ih _)

theorem redistribute_le {l : List (K × K)} (h : ∀ p ∈ l, p.2 ≤ p.1) (s : K) :
    Forall₂ (· ≤ ·) (redistribute l s).1 (l.map (·.1)) := by
  induction l generalizing s with
  | nil => exact Forall₂.nil
  | cons p rest ih =>
    obtain ⟨a, d⟩ := p
    have hd : d ≤ a := h (a, d) mem_cons_self
    have hrest : ∀ p ∈ rest, p.2 ≤ p.1 := fun p hp => h p (mem_cons_of_mem _ hp)
    unfold redistribute
    split
    · refine Forall₂.cons ?_ (ih hrest _)
      have hextra : min (max 0 (a - d)) s ≤ a - d :=
        (min_le_left _ _).trans (max_le (sub_nonneg.mpr hd) le_rfl)
      linarith
    · refine Forall₂.cons hd ?_
      rw [forall₂_map_left_iff, forall₂_map_right_iff, forall₂_same]
      exact hrest

/-- What nobody can take is left only where everybody gave all it had. -/
theorem redistribute_eq_of_left {l : List (K × K)} (h : ∀ p ∈ l, p.2 ≤ p.1) {s : K}
    (hleft : 0 < (redistribute l s).2) : (redistribute l s).1 = l.map (·.1) := by
  induction l generalizing s with
  | nil => rfl
  | cons p rest ih =>
    obtain ⟨a, d⟩ := p
    have hd : d ≤ a := h (a, d) mem_cons_self
    have hrest : ∀ p ∈ rest, p.2 ≤ p.1 := fun p hp => h p (mem_cons_of_mem _ hp)
    unfold redistribute at hleft ⊢
    by_cases hs : 0 < s
    · simp only [if_pos hs, map_cons] at hleft ⊢
      rw [max_eq_right (sub_nonneg.mpr hd)] at hleft ⊢
      rw [ih hrest hleft]
      rcases le_total (a - d) s with hle | hle
      · rw [min_eq_left hle, add_sub_cancel]
      · -- the shortfall ended here, so nothing was left over
        rw [min_eq_right hle, sub_self] at hleft
        have hnone : ∀ l : List (K × K), (redistribute l 0).2 = 0 := by
          intro l
          cases l with
          | nil => rfl
          | cons p rest =>
            unfold redistribute
            rw [if_neg (lt_irrefl 0)]
        rw [hnone] at hleft
        exact absurd hleft (lt_irrefl 0)
    · simp only [if_neg hs] at hleft
      exact absurd hleft hs

/-- **No holder gives more than it has**, when together they have the amount. -/
theorem cappedShares_le {total : K} {weights available : List K} (hw : weights ≠ [])
    (hlen : available.length = weights.length) (henough : total ≤ available.sum) :
    Forall₂ (· ≤ ·) (cappedShares total weights available) available := by
  have hsum := sum_cappedShares total hw hlen
  have hprop := length_proportional total weights
  unfold cappedShares at hsum ⊢
  simp only at hsum ⊢
  have hcap := capShares_le (available.zip (proportional total weights)) 0
  have hcapl := length_capShares (available.zip (proportional total weights)) 0
  rw [map_fst_zip (by omega)] at hcap
  rw [length_zip, hprop, hlen] at hcapl
  generalize capShares (available.zip (proportional total weights)) 0 = capped at hsum hcap hcapl ⊢
  have hle : ∀ p ∈ available.zip capped.1, p.2 ≤ p.1 := by
    rintro ⟨a, d⟩ hp
    exact (forall₂_iff_zip.mp hcap.flip).2 hp
  have hspread := redistribute_le hle capped.2
  have hfull := redistribute_eq_of_left hle (s := capped.2)
  rw [map_fst_zip (by omega)] at hspread hfull
  split at hsum
  · rename_i hleft
    -- an overdraft would share out more than the amount
    have hne : available ≠ [] := fun e => hw (length_eq_zero_iff.mp (by rw [← hlen, e]; rfl))
    rw [hfull hleft, sum_addToLast _ hne] at hsum
    linarith
  · rename_i hleft
    rw [if_neg hleft]
    exact hspread

end AdsManagement.Lib
