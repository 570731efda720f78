/-
  File:      Lib/Chunks.lean
  Subject:   CHUNKS: `for (offset = 0; offset < length; offset += size)` over `slice(offset,
             offset + size)`.

  * `flatten_chunks` -- the chunks put together are the list.
-/
import Mathlib.Data.List.Basic

namespace AdsManagement.Lib

open List

variable {α β : Type}

/-- The slices the loop takes, in order. -/
def chunks (size : Nat) (data : List α) : List (List α) :=
  (range ((data.length + size - 1) / size)).map fun i => (data.drop (i * size)).take size

theorem chunks_map (size : Nat) (f : α → β) (data : List α) :
    chunks size (data.map f) = (chunks size data).map (map f) := by
  unfold chunks
  rw [length_map, map_map]
  refine map_congr_left fun i _ => ?_
  rw [Function.comp_apply, map_take, map_drop]

theorem flatten_slices (size : Nat) (data : List α) (n : Nat) :
    ((range n).map fun i => (data.drop (i * size)).take size).flatten = data.take (n * size) := by
  induction n with
  | zero => simp
  | succ n ih =>
    rw [range_succ, map_append, flatten_append, ih, map_singleton,
      flatten_singleton, Nat.succ_mul, take_add]

theorem length_le_slices {size : Nat} (hsize : 0 < size) (length : Nat) :
    length ≤ (length + size - 1) / size * size := by
  have hdiv := Nat.div_add_mod (length + size - 1) size
  have hmod := Nat.mod_lt (length + size - 1) hsize
  rw [Nat.mul_comm] at hdiv
  generalize (length + size - 1) / size * size = covered at hdiv ⊢
  omega

/-- **The chunks put together are the list.** -/
theorem flatten_chunks {size : Nat} (hsize : 0 < size) (data : List α) :
    (chunks size data).flatten = data := by
  unfold chunks
  rw [flatten_slices, take_of_length_le (length_le_slices hsize data.length)]

/-- A loop over the chunks that appends each of them appends the list. -/
theorem foldl_chunks_append {size : Nat} (hsize : 0 < size) (table data : List α) :
    (chunks size data).foldl (fun table chunk => table ++ chunk) table = table ++ data := by
  have h : ∀ (l : List (List α)) (t : List α),
      l.foldl (fun table chunk => table ++ chunk) t = t ++ l.flatten := by
    intro l
    induction l with
    | nil => intro t; simp
    | cons c l ih => intro t; rw [foldl_cons, ih, flatten_cons, append_assoc]
  rw [h, flatten_chunks hsize]

end AdsManagement.Lib
