/-
  File:      Web/AuthCoordinator.lean
  Subject:   THE REFRESH GENERATION that the tabs of a browser share (auth-coordination.ts).

  A successful refresh raises the generation in `localStorage` and tells the other tabs. A tab sees
  the greater of what it was told and of what is stored; a stored text that is no safe integer
  counts as 0. Numbers are doubles: beyond the greatest safe integer adding one changes nothing.

  * `generation`, `nextGeneration`;
  * `readGeneration_generationText` -- what is stored is read back while it is a safe integer.
-/
import AdsManagement.Common.Json

namespace AdsManagement.Web

open Common

/-- `String(generation)`. -/
def generationText (generation : Nat) : String := String.ofList (natText generation)

/-- The part of `generation` that comes from the storage. -/
def readGeneration (stored : Option String) : Nat :=
  match stored.elim (some 0) textNumber with
  | some q => if q.den = 1 ∧ q ≤ maxSafeInteger ∧ 0 ≤ q then q.num.toNat else 0
  | none => 0

/-- `generation()`. -/
def generation (observed : Nat) (stored : Option String) : Nat := max observed (readGeneration stored)

/-- `generation() + 1`. -/
def nextGeneration (generation : Nat) : Nat := if generation ≤ maxSafeInteger then generation + 1 else generation

theorem readGeneration_generationText (n : Nat) :
    readGeneration (some (generationText n)) = if n ≤ maxSafeInteger then n else 0 := by
  unfold readGeneration generationText
  rw [Option.elim_some, textNumber_natText]
  simp

theorem readGeneration_le (stored : Option String) : readGeneration stored ≤ maxSafeInteger := by
  unfold readGeneration
  split
  · rename_i q hq
    split
    · rename_i hsafe
      obtain ⟨hden, hle, hnonneg⟩ := hsafe
      have hnum : (q.num : ℚ) = q := Rat.coe_int_num_of_den_eq_one hden
      rw [← hnum] at hle
      have hint : q.num ≤ (maxSafeInteger : Int) := by exact_mod_cast hle
      omega
    · exact Nat.zero_le _
  · exact Nat.zero_le _

theorem readGeneration_next {n : Nat} (h : n < maxSafeInteger) :
    readGeneration (some (generationText (nextGeneration n))) = n + 1 := by
  unfold nextGeneration
  rw [if_pos (Nat.le_of_lt h), readGeneration_generationText, if_pos (Nat.succ_le_of_lt h)]

end AdsManagement.Web
