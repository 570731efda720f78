/-
  File:      Lib/LastOfKind.lean
  Subject:   A TABLE THAT IS NEVER WITHOUT A ROW OF ONE KIND: rows under unique keys, a kind of
             row, and writes that either keep every row of the kind or count before they take one.

  * `Keeps key kind rows rows'` -- every row of the kind is one still, under its key;
  * `Spares key kind k rows rows'` -- all but the one of the key `k`, and there is another;
  * `keeps_replace`, `spares_replace`, `keeps_append` -- what a write has to check for that;
  * `Keeps.exists`, `Spares.exists` -- so one is always left.
-/
import Mathlib.Data.List.Nodup
import Mathlib.Data.List.Count

namespace AdsManagement.Lib

open List

variable {ρ κ : Type*} {key : ρ → κ} {kind : ρ → Bool} {rows rows' : List ρ}

/-- Every row of the kind is one still. -/
def Keeps (key : ρ → κ) (kind : ρ → Bool) (rows rows' : List ρ) : Prop :=
  ∀ r ∈ rows, kind r = true → ∃ r' ∈ rows', key r' = key r ∧ kind r' = true

/-- Every row of the kind with another key is one still, and there is such a row. -/
structure Spares (key : ρ → κ) (kind : ρ → Bool) (k : κ) (rows rows' : List ρ) : Prop where
  others : ∀ r ∈ rows, key r ≠ k → kind r = true → ∃ r' ∈ rows', key r' = key r ∧ kind r' = true
  another : ∃ r ∈ rows, key r ≠ k ∧ kind r = true

theorem Keeps.exists (h : Keeps key kind rows rows') (he : ∃ r ∈ rows, kind r = true) :
    ∃ r ∈ rows', kind r = true := by
  obtain ⟨r, hr, hk⟩ := he
  obtain ⟨r', hr', -, hk'⟩ := h r hr hk
  exact ⟨r', hr', hk'⟩

theorem Spares.exists {k : κ} (h : Spares key kind k rows rows') : ∃ r ∈ rows', kind r = true := by
  obtain ⟨r, hr, hne, hk⟩ := h.another
  obtain ⟨r', hr', -, hk'⟩ := h.others r hr hne hk
  exact ⟨r', hr', hk'⟩

theorem Keeps.of_subset (h : ∀ r ∈ rows, kind r = true → r ∈ rows') : Keeps key kind rows rows' :=
  fun r hr hk => ⟨r, h r hr hk, rfl, hk⟩

theorem keeps_append (new : List ρ) : Keeps key kind rows (rows ++ new) :=
  .of_subset fun _ hr _ => mem_append_left _ hr

theorem nodup_map_concat {new : ρ} (hn : (rows.map key).Nodup) (h : ∀ r ∈ rows, key r ≠ key new) :
    ((rows ++ [new]).map key).Nodup := by
  rw [map_append, nodup_append]
  refine ⟨hn, nodup_singleton _, fun i hi j hj => ?_⟩
  obtain ⟨r, hr, rfl⟩ := mem_map.mp hi
  rw [mem_singleton.mp hj]
  exact h r hr

/-- **Two of the kind**: one has another key, whatever the key. -/
theorem exists_other_of_two_le_countP (hn : (rows.map key).Nodup) (h : 2 ≤ rows.countP kind) (k : κ) :
    ∃ r ∈ rows, key r ≠ k ∧ kind r = true := by
  by_contra hnone
  have hall : ∀ x ∈ (rows.filter kind).map key, x = k := by
    intro x hx
    obtain ⟨r, hr, rfl⟩ := mem_map.mp hx
    obtain ⟨hr, hk⟩ := mem_filter.mp hr
    by_contra hne
    exact hnone ⟨r, hr, hne, hk⟩
  have hsub : ((rows.filter kind).map key).Nodup := hn.sublist (filter_sublist.map key)
  rw [eq_replicate_of_mem hall, nodup_replicate, length_map, ← countP_eq_length_filter] at hsub
  omega

/-- A unique column that may be empty: a value is in one row. -/
theorem eq_of_nodup_filterMap {column : ρ → Option κ} {a b : ρ} {x : κ} :
    ∀ {rows : List ρ}, (rows.filterMap column).Nodup → a ∈ rows → b ∈ rows → column a = some x →
      column b = some x → a = b
  | [], _, ha, _, _, _ => nomatch ha
  | r :: rows, hn, ha, hb, hax, hbx => by
    have hrest : (rows.filterMap column).Nodup :=
      hn.sublist ((sublist_cons_self r rows).filterMap column)
    -- the value of the first row is in no other
    have hfirst : ∀ c ∈ rows, column r = some x → column c = some x → False := by
      intro c hc hr hcx
      rw [filterMap_cons_some hr] at hn
      exact (nodup_cons.mp hn).1 (mem_filterMap.mpr ⟨c, hc, hcx⟩)
    rcases mem_cons.mp ha with rfl | ha' <;> rcases mem_cons.mp hb with rfl | hb'
    · rfl
    · exact (hfirst b hb' hax hbx).elim
    · exact (hfirst a ha' hbx hax).elim
    · exact eq_of_nodup_filterMap hrest ha' hb' hax hbx

section Replace

variable [DecidableEq κ]

/-- The table with one row written. -/
def replaceRow (key : ρ → κ) (row : ρ) (rows : List ρ) : List ρ :=
  rows.map fun r => if key r = key row then row else r

theorem mem_replaceRow_of_ne {row r : ρ} (hr : r ∈ rows) (hne : key r ≠ key row) :
    r ∈ replaceRow key row rows :=
  mem_map.mpr ⟨r, hr, if_neg hne⟩

theorem mem_replaceRow_self {row r : ρ} (hr : r ∈ rows) (he : key r = key row) :
    row ∈ replaceRow key row rows :=
  mem_map.mpr ⟨r, hr, if_pos he⟩

@[simp] theorem replaceRow_keys (row : ρ) (rows : List ρ) :
    (replaceRow key row rows).map key = rows.map key := by
  unfold replaceRow
  rw [map_map]
  refine map_congr_left fun r _ => ?_
  by_cases h : key r = key row <;> simp [h]

/-- A column that a write leaves as it is. -/
theorem filterMap_replaceRow {β : Type*} {column : ρ → Option β} {row before : ρ}
    (hn : (rows.map key).Nodup) (hb : before ∈ rows) (hkey : key row = key before)
    (hc : column row = column before) : (replaceRow key row rows).filterMap column = rows.filterMap column := by
  unfold replaceRow
  rw [filterMap_map]
  refine filterMap_congr fun r hr => ?_
  rw [Function.comp_apply]
  split
  · next he => rw [inj_on_of_nodup_map hn hr hb (he.trans hkey), hc]
  · rfl

/-- A row is written that is of the kind still, or was not of it. -/
theorem keeps_replace {row before : ρ} (hn : (rows.map key).Nodup) (hb : before ∈ rows)
    (hkey : key row = key before) (hk : kind before = true → kind row = true) :
    Keeps key kind rows (replaceRow key row rows) := by
  intro r hr hkr
  by_cases he : key r = key row
  · have hrb : r = before := inj_on_of_nodup_map hn hr hb (he.trans hkey)
    exact ⟨row, mem_replaceRow_self hr he, he.symm, hk (hrb ▸ hkr)⟩
  · exact ⟨r, mem_replaceRow_of_ne hr he, rfl, hkr⟩

/-- Any row is written where there are two of the kind. -/
theorem spares_replace {row : ρ} {k : κ} (hn : (rows.map key).Nodup) (hc : 2 ≤ rows.countP kind)
    (hkey : key row = k) : Spares key kind k rows (replaceRow key row rows) where
  others r hr hne hk := ⟨r, mem_replaceRow_of_ne hr (hkey ▸ hne), rfl, hk⟩
  another := exists_other_of_two_le_countP hn hc k

end Replace

end AdsManagement.Lib
