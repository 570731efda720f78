/-
  File:      Lib/LastOfKey.lean
  Subject:   THE LAST OF EACH KEY: a list in which a key may repeat, split into the entries that
             no later entry of the same key follows and those that one does.

  Reading the list from the end instead gives the first of each key, so one definition serves
  both rules "the last one wins" and "the first one wins".

  * `lastOfKey_append_singleton` -- what one more entry does;
  * `sum_lastOfKey_add_sum_withLater` -- the two parts add up to the list;
  * `withLater_eq_nil_iff` -- the second part is empty exactly when no key repeats.
-/
import Mathlib.Algebra.BigOperators.Group.List.Basic
import Mathlib.Data.List.Nodup

namespace AdsManagement.Lib

open List

variable {α κ M : Type} [DecidableEq κ] (key : α → κ)

/-- The entries that no later entry of the same key follows. -/
def lastOfKey : List α → List α
  | [] => []
  | a :: l => if key a ∈ l.map key then lastOfKey l else a :: lastOfKey l

/-- The entries that a later entry of the same key follows. -/
def withLater : List α → List α
  | [] => []
  | a :: l => if key a ∈ l.map key then a :: withLater l else withLater l

theorem lastOfKey_sublist (l : List α) : (lastOfKey key l).Sublist l := by
  induction l with
  | nil => exact List.Sublist.slnil
  | cons a l ih =>
    rw [lastOfKey]
    split
    · exact ih.cons a
    · exact ih.cons_cons a

/-- One more entry takes the place of the earlier ones of its key. -/
theorem lastOfKey_append_singleton (l : List α) (b : α) :
    lastOfKey key (l ++ [b]) = (lastOfKey key l).filter (fun a => key a ≠ key b) ++ [b] := by
  induction l with
  | nil => rfl
  | cons a l ih =>
    have hmem : key a ∈ (l ++ [b]).map key ↔ key a ∈ l.map key ∨ key a = key b := by
      rw [map_append, mem_append, map_singleton, mem_singleton]
    rw [cons_append, lastOfKey, lastOfKey, ih]
    by_cases hl : key a ∈ l.map key
    · rw [if_pos (hmem.mpr (.inl hl)), if_pos hl]
    · by_cases hb : key a = key b
      · rw [if_pos (hmem.mpr (.inr hb)), if_neg hl, filter_cons, if_neg (by simp [hb])]
      · rw [if_neg (fun h => (hmem.mp h).elim hl hb), if_neg hl, filter_cons,
          if_pos (by simp [hb]), cons_append]

theorem nodup_lastOfKey (l : List α) : ((lastOfKey key l).map key).Nodup := by
  induction l with
  | nil => exact nodup_nil
  | cons a l ih =>
    rw [lastOfKey]
    split
    · exact ih
    · rename_i h
      rw [map_cons, nodup_cons]
      exact ⟨fun hm => h (((lastOfKey_sublist key l).map key).subset hm), ih⟩

theorem lastOfKey_map {β : Type} (g : β → α) (l : List β) :
    lastOfKey key (l.map g) = (lastOfKey (fun b => key (g b)) l).map g := by
  induction l with
  | nil => rfl
  | cons b l ih =>
    rw [map_cons, lastOfKey, lastOfKey, map_map, ih]
    show (if key (g b) ∈ l.map (fun b => key (g b)) then _ else _) = _
    split <;> rfl

theorem withLater_map {β : Type} (g : β → α) (l : List β) :
    withLater key (l.map g) = (withLater (fun b => key (g b)) l).map g := by
  induction l with
  | nil => rfl
  | cons b l ih =>
    rw [map_cons, withLater, withLater, map_map, ih]
    show (if key (g b) ∈ l.map (fun b => key (g b)) then _ else _) = _
    split <;> rfl

/-- **The two parts of a list add up to the list.** -/
theorem sum_lastOfKey_add_sum_withLater [AddCommMonoid M] (f : α → M) (l : List α) :
    ((lastOfKey key l).map f).sum + ((withLater key l).map f).sum = (l.map f).sum := by
  induction l with
  | nil => exact add_zero 0
  | cons a l ih =>
    rw [lastOfKey, withLater, map_cons, sum_cons, ← ih]
    split
    · rw [map_cons, sum_cons, add_left_comm]
    · rw [map_cons, sum_cons, add_assoc]

/-- **No entry is followed by one of its key exactly when no key repeats.** -/
theorem withLater_eq_nil_iff (l : List α) : withLater key l = [] ↔ (l.map key).Nodup := by
  induction l with
  | nil => exact ⟨fun _ => nodup_nil, fun _ => rfl⟩
  | cons a l ih =>
    rw [withLater, map_cons, nodup_cons, ← ih]
    split
    · next h => exact ⟨fun e => absurd e (cons_ne_nil _ _), fun e => absurd h e.1⟩
    · next h => exact ⟨fun e => ⟨h, e⟩, fun e => e.2⟩

/-- No entry is lost exactly when no key repeats. -/
theorem length_lastOfKey_eq_iff (l : List α) :
    (lastOfKey key l).length = l.length ↔ (l.map key).Nodup := by
  have hsum := sum_lastOfKey_add_sum_withLater key (fun _ => 1) l
  simp only [map_const', sum_replicate_nat] at hsum
  rw [← withLater_eq_nil_iff, ← length_eq_zero_iff]
  omega

end AdsManagement.Lib
