/-
  File:      Lib/NullableSum.lean
  Subject:   SUMS OF AMOUNTS THAT MAY BE MISSING: a sum is known when each summand is.

  * `strictSum_eq_none_iff` -- unknown exactly when a summand is;
  * `strictSum_perm`, `strictSum_flatten` -- the order and the grouping of the summands play no
    part.
-/
import Mathlib.Algebra.BigOperators.Group.List.Basic

namespace AdsManagement.Lib

open List

variable {α ι : Type} [AddCommMonoid α]

/-- `if (values.some(missing)) return null; return values.reduce((sum, value) => sum + value, 0)`. -/
def strictSum (values : List (Option α)) : Option α :=
  if values.any Option.isNone then none
  else some (values.foldl (fun sum value => sum + value.getD 0) 0)

variable {values : List (Option α)}

omit [AddCommMonoid α] in
theorem any_isNone_iff :
    values.any Option.isNone = true ↔ none ∈ values := by
  rw [any_eq_true]
  refine ⟨fun ⟨v, hv, h⟩ => ?_, fun h => ⟨none, h, rfl⟩⟩
  rw [Option.isNone_iff_eq_none] at h
  exact h ▸ hv

theorem foldl_getD (values : List (Option α)) (s : α) :
    values.foldl (fun sum value => sum + value.getD 0) s = s + (values.map (·.getD 0)).sum := by
  induction values generalizing s with
  | nil => simp
  | cons v rest ih => simp [ih, add_assoc]

theorem strictSum_of_all_some (h : ∀ v ∈ values, v ≠ none) :
    strictSum values = some (values.map (·.getD 0)).sum := by
  unfold strictSum
  rw [if_neg fun hn => h none (any_isNone_iff.mp hn) rfl, foldl_getD, zero_add]

/-- **Unknown exactly when a summand is.** -/
theorem strictSum_eq_none_iff :
    strictSum values = none ↔ none ∈ values := by
  refine ⟨fun h => ?_, fun h => if_pos (any_isNone_iff.mpr h)⟩
  by_contra hn
  rw [strictSum_of_all_some fun v hv e => hn (e ▸ hv)] at h
  exact (nomatch h)

@[simp] theorem strictSum_singleton (v : Option α) : strictSum [v] = v := by
  cases v with
  | none => rfl
  | some x => simp [strictSum]

theorem strictSum_map_some (values : List α) : strictSum (values.map some) = some values.sum := by
  rw [strictSum_of_all_some, map_map]
  · exact congrArg some (congrArg List.sum (map_id values))
  · intro v hv
    obtain ⟨x, -, rfl⟩ := mem_map.mp hv
    exact Option.some_ne_none x

theorem getD_strictSum (h : none ∉ values) :
    (strictSum values).getD 0 = (values.map (·.getD 0)).sum := by
  rw [strictSum_of_all_some fun v hv e => h (e ▸ hv), Option.getD_some]

variable {l' l : List (Option α)}

/-- Two sums agree when they are unknown together and, when known, of one value. -/
theorem strictSum_congr (hn : none ∈ l ↔ none ∈ l')
    (hs : none ∉ l → (l.map (·.getD 0)).sum = (l'.map (·.getD 0)).sum) :
    strictSum l = strictSum l' := by
  by_cases h : none ∈ l
  · rw [strictSum_eq_none_iff.mpr h, strictSum_eq_none_iff.mpr (hn.mp h)]
  · have h' : none ∉ l' := fun e => h (hn.mpr e)
    rw [strictSum_of_all_some fun v hv e => h (e ▸ hv),
      strictSum_of_all_some fun v hv e => h' (e ▸ hv), hs h]

theorem strictSum_perm (h : l.Perm l') : strictSum l = strictSum l' :=
  strictSum_congr h.mem_iff fun _ => (h.map _).sum_eq

/-- **Regrouping**: the sum of the sums of the groups. -/
theorem strictSum_flatten (groups : List (List (Option α))) :
    strictSum groups.flatten = strictSum (groups.map strictSum) := by
  refine strictSum_congr ?_ fun h => ?_
  · simp only [mem_flatten, mem_map, strictSum_eq_none_iff]
  · induction groups with
    | nil => rfl
    | cons g rest ih =>
      rw [flatten_cons, mem_append, not_or] at h
      rw [flatten_cons, map_append, sum_append, ih h.2, map_cons,
        map_cons, sum_cons, getD_strictSum h.1]

/-- `values.reduce((sum, value) => sum + value, 0)`. -/
def plainSum (values : List α) : α := values.foldl (· + ·) 0

theorem plainSum_eq_sum (values : List α) : plainSum values = values.sum := by
  unfold plainSum
  rw [sum_eq_foldl]

theorem plainSum_perm {l l' : List α} (h : l.Perm l') : plainSum l = plainSum l' := by
  rw [plainSum_eq_sum, plainSum_eq_sum, h.sum_eq]

theorem plainSum_append (l l' : List α) : plainSum (l ++ l') = plainSum l + plainSum l' := by
  rw [plainSum_eq_sum, plainSum_eq_sum, plainSum_eq_sum, sum_append]

theorem plainSum_flatten (groups : List (List α)) :
    plainSum groups.flatten = plainSum (groups.map plainSum) := by
  induction groups with
  | nil => rfl
  | cons g rest ih =>
    rw [flatten_cons, plainSum_append, ih, plainSum_eq_sum ((g :: rest).map plainSum)]
    rw [map_cons, sum_cons, plainSum_eq_sum (rest.map plainSum)]

end AdsManagement.Lib
