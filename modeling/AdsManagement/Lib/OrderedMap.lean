/-
  File:      Lib/OrderedMap.lean
  Subject:   ORDERED MAPS: the `Map` of the source, its keys in the order of their first
             insertion, and the two loops that fill one.

  * `aggregateBy` -- `m.set(key, step(m.get(key) ?? init, row))` for every row; the value at a
    key is the fold over the rows of that key alone (`get_aggregateBy`);
  * `groupBy` -- the rows of each key; the groups are a partition (`flatten_values_groupBy`).
-/
import Mathlib.Algebra.BigOperators.Group.List.Basic
import Mathlib.Data.List.Nodup

namespace AdsManagement.Lib

open List

variable {κ ν ρ : Type} [DecidableEq κ]

def assocGet (k : κ) : List (κ × ν) → Option ν
  | [] => none
  | (j, w) :: rest => if j = k then some w else assocGet k rest

def assocSet (k : κ) (v : ν) : List (κ × ν) → List (κ × ν)
  | [] => [(k, v)]
  | (j, w) :: rest => if j = k then (j, v) :: rest else (j, w) :: assocSet k v rest

theorem mem_keys_assocSet (k j : κ) (v : ν) (l : List (κ × ν)) :
    j ∈ (assocSet k v l).map (·.1) ↔ j = k ∨ j ∈ l.map (·.1) := by
  induction l with
  | nil => simp [assocSet]
  | cons p rest ih =>
    obtain ⟨i, w⟩ := p
    unfold assocSet
    by_cases h : i = k
    · rw [if_pos h]
      simp only [map_cons, mem_cons, h]
      tauto
    · rw [if_neg h]
      simp only [map_cons, mem_cons]
      tauto

variable {l : List (κ × ν)}

theorem nodup_assocSet (k : κ) (v : ν) (h : (l.map (·.1)).Nodup) :
    ((assocSet k v l).map (·.1)).Nodup := by
  induction l with
  | nil => simp [assocSet]
  | cons p rest ih =>
    obtain ⟨i, w⟩ := p
    obtain ⟨hi, hr⟩ := nodup_cons.mp h
    unfold assocSet
    by_cases e : i = k
    · rw [if_pos e]
      exact h
    · rw [if_neg e]
      refine nodup_cons.mpr ⟨fun hm => ?_, ih hr⟩
      rcases (mem_keys_assocSet k i v rest).mp hm with h1 | h1
      · exact e h1
      · exact hi h1

theorem assocGet_assocSet (k j : κ) (v : ν) (l : List (κ × ν)) :
    assocGet j (assocSet k v l) = if j = k then some v else assocGet j l := by
  induction l with
  | nil => simp [assocSet, assocGet, eq_comm]
  | cons p rest ih =>
    obtain ⟨i, w⟩ := p
    unfold assocSet
    by_cases h : i = k
    · subst h
      by_cases e : j = i
      · simp [assocGet, e]
      · simp [assocGet, e, Ne.symm e]
    · rw [if_neg h]
      by_cases e : i = j
      · subst e
        simp [assocGet, h]
      · simp only [assocGet, if_neg e, ih]

variable {k : κ} {v : ν}

theorem assocGet_eq_some_iff (h : (l.map (·.1)).Nodup) : assocGet k l = some v ↔ (k, v) ∈ l := by
  induction l with
  | nil => simp [assocGet]
  | cons p rest ih =>
    obtain ⟨i, w⟩ := p
    obtain ⟨hi, hr⟩ := nodup_cons.mp h
    by_cases e : i = k
    · subst e
      simp only [assocGet, if_true, mem_cons, Prod.mk.injEq, true_and]
      refine ⟨fun h1 => Or.inl (Option.some.inj h1).symm, fun h1 => ?_⟩
      rcases h1 with h1 | h1
      · rw [h1]
      · exact absurd (mem_map_of_mem h1) hi
    · simp [assocGet, e, ih hr, Ne.symm e]

/-- A sum that picks one of some different keys. -/
theorem sum_ite_key {μ : Type} [AddCommMonoid μ] {keys : List κ} (hnd : keys.Nodup) (hk : k ∈ keys) (x : μ) :
    (keys.map fun j => if k = j then x else 0).sum = x := by
  have hperm := (perm_cons_erase hk).map fun j => if k = j then x else 0
  have hzero : ∀ y ∈ (keys.erase k).map fun j => if k = j then x else 0, y = 0 := by
    intro y hy
    obtain ⟨j, hj, rfl⟩ := mem_map.mp hy
    exact if_neg (Ne.symm (hnd.mem_erase_iff.mp hj).1)
  rw [hperm.sum_eq, map_cons, sum_cons, if_pos rfl, sum_eq_zero hzero, add_zero]

/-- A map with its keys in insertion order, each key once. -/
structure OrderedMap (κ ν : Type) where
  entries : List (κ × ν)
  nodup : (entries.map (·.1)).Nodup

namespace OrderedMap

def empty : OrderedMap κ ν := ⟨[], nodup_nil⟩

def get (m : OrderedMap κ ν) (k : κ) : Option ν := assocGet k m.entries

/-- A key that is present keeps its place; a new one goes to the end. -/
def set (m : OrderedMap κ ν) (k : κ) (v : ν) : OrderedMap κ ν :=
  ⟨assocSet k v m.entries, nodup_assocSet k v m.nodup⟩

def keys (m : OrderedMap κ ν) : List κ := m.entries.map (·.1)

def values (m : OrderedMap κ ν) : List ν := m.entries.map (·.2)

/-- `new Map(pairs)`: of two pairs with one key the later value stays. -/
def ofList (pairs : List (κ × ν)) : OrderedMap κ ν :=
  pairs.foldl (fun m p => m.set p.1 p.2) empty

omit [DecidableEq κ] in
theorem nodup_keys (m : OrderedMap κ ν) : m.keys.Nodup := m.nodup

@[simp] theorem get_empty (k : κ) : (empty : OrderedMap κ ν).get k = none := rfl

theorem get_set (m : OrderedMap κ ν) (k j : κ) (v : ν) :
    (m.set k v).get j = if j = k then some v else m.get j := assocGet_assocSet k j v m.entries

variable {m : OrderedMap κ ν}

theorem get_eq_some_iff : m.get k = some v ↔ (k, v) ∈ m.entries := assocGet_eq_some_iff m.nodup

/-- Two maps that hold the same values have the same entries. -/
theorem perm_entries_of_get_eq {m' : OrderedMap κ ν} (h : ∀ k, m.get k = m'.get k) :
    m.entries.Perm m'.entries := by
  rw [perm_ext_iff_of_nodup (Nodup.of_map _ m.nodup) (Nodup.of_map _ m'.nodup)]
  intro ⟨k, v⟩
  rw [← get_eq_some_iff, ← get_eq_some_iff, h]

theorem mem_keys_iff : k ∈ m.keys ↔ ∃ v, m.get k = some v := by
  refine ⟨fun h => ?_, fun ⟨v, h⟩ => mem_map_of_mem (get_eq_some_iff.mp h)⟩
  obtain ⟨⟨j, v⟩, hp, e⟩ := mem_map.mp h
  have e' : j = k := e
  subst e'
  exact ⟨v, get_eq_some_iff.mpr hp⟩

theorem mem_values_iff : v ∈ m.values ↔ ∃ k, m.get k = some v := by
  refine ⟨fun h => ?_, fun ⟨k, h⟩ => mem_map.mpr ⟨(k, v), get_eq_some_iff.mp h, rfl⟩⟩
  obtain ⟨⟨k, w⟩, hp, e⟩ := mem_map.mp h
  have e' : w = v := e
  subst e'
  exact ⟨k, get_eq_some_iff.mpr hp⟩

theorem get_foldl_set (pairs : List (κ × ν)) (m : OrderedMap κ ν) (k : κ) :
    (pairs.foldl (fun m p => m.set p.1 p.2) m).get k =
      ((pairs.filter (·.1 = k)).getLast?.map (·.2)).or (m.get k) := by
  induction pairs generalizing m with
  | nil => rfl
  | cons p rest ih =>
    rw [foldl_cons, ih, get_set]
    by_cases h : p.1 = k
    · rw [if_pos h.symm, filter_cons_of_pos (by simpa using h), getLast?_cons]
      cases (rest.filter (·.1 = k)).getLast? with
      | none | some q => rfl
    · rw [if_neg (Ne.symm h), filter_cons_of_neg (by simpa using h)]

theorem get_ofList (pairs : List (κ × ν)) (k : κ) :
    (ofList pairs).get k = (pairs.filter (·.1 = k)).getLast?.map (·.2) := by
  rw [ofList, get_foldl_set, get_empty, Option.or_none]

theorem assocSet_of_notMem (h : k ∉ l.map (·.1)) : assocSet k v l = l ++ [(k, v)] := by
  induction l with
  | nil => rfl
  | cons p rest ih =>
    rw [map_cons, mem_cons, not_or] at h
    rw [assocSet, if_neg (Ne.symm h.1), ih h.2]
    rfl

theorem entries_foldl_set {pairs : List (κ × ν)} (h : (m.keys ++ pairs.map (·.1)).Nodup) :
    (pairs.foldl (fun m p => m.set p.1 p.2) m).entries = m.entries ++ pairs := by
  induction pairs generalizing m with
  | nil => simp
  | cons p rest ih =>
    have hp : p.1 ∉ m.entries.map (·.1) := by
      rw [nodup_append] at h
      intro hm
      exact h.2.2 _ hm _ mem_cons_self rfl
    have hset : (m.set p.1 p.2).entries = m.entries ++ [p] := assocSet_of_notMem hp
    have hkeys : (m.set p.1 p.2).keys = m.keys ++ [p.1] := by
      unfold keys
      rw [hset, map_append]
      rfl
    rw [foldl_cons, ih, hset, append_assoc]
    · rfl
    · rwa [hkeys, append_assoc]

/-- A list of pairs without a key twice is its own map. -/
theorem entries_ofList {pairs : List (κ × ν)} (h : (pairs.map (·.1)).Nodup) :
    (ofList pairs).entries = pairs := by
  rw [ofList, entries_foldl_set (by simpa [keys, empty] using h)]
  rfl

/-- A map from texts that tell the values apart holds exactly these values. -/
theorem mem_values_ofList {f : ν → κ} {vs : List ν} (hf : ∀ v ∈ vs, ∀ w ∈ vs, f v = f w → v = w) :
    v ∈ (ofList (vs.map fun v => (f v, v))).values ↔ v ∈ vs := by
  have hlast : ∀ k w, (ofList (vs.map fun v => (f v, v))).get k = some w → w ∈ vs ∧ f w = k := by
    intro k w h
    rw [get_ofList, Option.map_eq_some_iff] at h
    obtain ⟨p, hp, rfl⟩ := h
    obtain ⟨hm, hk⟩ := mem_filter.mp (mem_of_getLast? hp)
    obtain ⟨u, hu, rfl⟩ := mem_map.mp hm
    exact ⟨hu, of_decide_eq_true hk⟩
  rw [mem_values_iff]
  constructor
  · rintro ⟨k, h⟩
    exact (hlast k v h).1
  · intro hv
    refine ⟨f v, ?_⟩
    cases h : (ofList (vs.map fun v => (f v, v))).get (f v) with
    | some w =>
      obtain ⟨hw, e⟩ := hlast _ w h
      rw [hf w hw v hv e]
    | none =>
      rw [get_ofList, Option.map_eq_none_iff, getLast?_eq_none_iff, filter_eq_nil_iff] at h
      exact absurd (decide_eq_true rfl) (h (f v, v) (mem_map.mpr ⟨v, hv, rfl⟩))

/-- A second pass over the entries of a map, which may drop some. -/
theorem get_ofList_filterMap {μ : Type} (m : OrderedMap κ ν) (f : ν → Option μ) (k : κ) :
    (ofList (m.entries.filterMap fun e => (f e.2).map fun w => (e.1, w))).get k =
      (m.get k).bind f := by
  obtain ⟨entries, nodup⟩ := m
  rw [get_ofList]
  show _ = (assocGet k entries).bind f
  induction entries with
  | nil => rfl
  | cons p rest ih =>
    obtain ⟨i, v⟩ := p
    obtain ⟨hi, hr⟩ := nodup_cons.mp nodup
    by_cases h : i = k
    · subst h
      have hrest : (rest.filterMap fun e => (f e.2).map fun w => (e.1, w)).filter
          (fun p => p.1 = i) = [] := by
        rw [filter_eq_nil_iff]
        intro q hq
        obtain ⟨e, he, hf⟩ := mem_filterMap.mp hq
        obtain ⟨w, _, hw⟩ := Option.map_eq_some_iff.mp hf
        have hne : e.1 ≠ i := fun h1 => hi (mem_map.mpr ⟨e, he, h1⟩)
        simpa [← hw] using hne
      cases hv : f v with
      | none | some w => simp [assocGet, hv, hrest]
    · rw [assocGet, if_neg h, ← ih hr]
      cases hv : f v with
      | none => simp [hv]
      | some w => simp [hv, h]

end OrderedMap

open OrderedMap

/-- The loop `m.set(key(row), step(m.get(key(row)) ?? init(row), row))`. -/
def aggregateBy (key : ρ → κ) (init : ρ → ν) (step : ν → ρ → ν) (rows : List ρ) :
    OrderedMap κ ν :=
  rows.foldl (fun m row => m.set (key row) (step ((m.get (key row)).getD (init row)) row)) empty

/-- What the loop leaves at one key, from what was there. -/
def foldFrom (init : ρ → ν) (step : ν → ρ → ν) : Option ν → List ρ → Option ν
  | none, [] => none
  | none, row :: rest => some (rest.foldl step (step (init row) row))
  | some v, rows => some (rows.foldl step v)

section

variable (key : ρ → κ) (init : ρ → ν) (step : ν → ρ → ν) (rows : List ρ)

theorem get_foldl_aggregate (m : OrderedMap κ ν) (k : κ) :
    (rows.foldl (fun m row => m.set (key row) (step ((m.get (key row)).getD (init row)) row))
      m).get k = foldFrom init step (m.get k) (rows.filter (key · = k)) := by
  induction rows generalizing m with
  | nil =>
    cases e : m.get k with
    | none | some v => simpa [foldFrom] using e
  | cons row rest ih =>
    rw [foldl_cons, ih, get_set]
    by_cases h : key row = k
    · rw [if_pos h.symm, filter_cons_of_pos (by simpa using h), h]
      cases m.get k with
      | none | some v => rfl
    · rw [if_neg (Ne.symm h), filter_cons_of_neg (by simpa using h)]

/-- **One key sees its own rows only.** -/
theorem get_aggregateBy (k : κ) :
    (aggregateBy key init step rows).get k = foldFrom init step none (rows.filter (key · = k)) :=
  get_foldl_aggregate key init step rows empty k

end

variable {rows : List ρ} {key : ρ → κ} {step : ν → ρ → ν} {init : ρ → ν}

theorem get_aggregateBy_eq_none_iff :
    (aggregateBy key init step rows).get k = none ↔ rows.filter (key · = k) = [] := by
  rw [get_aggregateBy]
  cases rows.filter (key · = k) with
  | nil => exact ⟨fun _ => rfl, fun _ => rfl⟩
  | cons row rest => exact ⟨nofun, nofun⟩

theorem mem_keys_aggregateBy : k ∈ (aggregateBy key init step rows).keys ↔ ∃ row ∈ rows, key row = k := by
  rw [mem_keys_iff, ← Option.isSome_iff_exists, Option.isSome_iff_ne_none, ne_eq,
    get_aggregateBy_eq_none_iff]
  simp

/-- A property of the value under the loop: `init` has it and `step` keeps it, both on the rows of
    the key. -/
theorem aggregateBy_inv (I : ν → Prop) (hinit : ∀ row ∈ rows, key row = k → I (step (init row) row))
    (hstep : ∀ w, I w → ∀ row ∈ rows, key row = k → I (step w row))
    (h : (aggregateBy key init step rows).get k = some v) : I v := by
  have hall : ∀ row ∈ rows.filter (key · = k), row ∈ rows ∧ key row = k := fun row hr => by
    simpa using mem_filter.mp hr
  rw [get_aggregateBy] at h
  generalize rows.filter (key · = k) = l at h hall
  cases l with
  | nil => exact (nomatch h)
  | cons row rest =>
    obtain ⟨hr, hk⟩ := hall row (mem_cons_self ..)
    cases h
    have hrest : ∀ r ∈ rest, r ∈ rows ∧ key r = k := fun r hm =>
      hall r (mem_cons_of_mem _ hm)
    clear hall
    generalize hw : step (init row) row = w
    have hI : I w := hw ▸ hinit row hr hk
    clear hw
    induction rest generalizing w with
    | nil => exact hI
    | cons r rs ih =>
      have h1 := hrest r (mem_cons_self ..)
      exact ih (fun x hx => hrest x (mem_cons_of_mem _ hx)) (step w r) (hstep w hI r h1.1 h1.2)

section Projection

variable {μ : Type} (π : ν → μ)

theorem assocGet_project (k : κ) (l : List (κ × ν)) :
    assocGet k (l.map fun e => (e.1, π e.2)) = (assocGet k l).map π := by
  induction l with
  | nil => rfl
  | cons p rest ih =>
    obtain ⟨i, v⟩ := p
    by_cases h : i = k
    · simp [assocGet, h]
    · simp [assocGet, h, ih]

theorem assocSet_project (k : κ) (v : ν) (l : List (κ × ν)) :
    assocSet k (π v) (l.map fun e => (e.1, π e.2)) =
      (assocSet k v l).map fun e => (e.1, π e.2) := by
  induction l with
  | nil => rfl
  | cons p rest ih =>
    obtain ⟨i, w⟩ := p
    by_cases h : i = k
    · simp [assocSet, h]
    · simp [assocSet, h, ih]

/-- **A projection that respects the loop can be taken before or after it.** -/
theorem project_aggregateBy {init' : ρ → μ} {step' : μ → ρ → μ} (hinit : ∀ row, π (init row) = init' row)
    (hstep : ∀ v row, π (step v row) = step' (π v) row) (rows : List ρ) :
    (aggregateBy key init step rows).entries.map (fun e => (e.1, π e.2)) =
      (aggregateBy key init' step' rows).entries := by
  have run : ∀ (rows : List ρ) (m : OrderedMap κ ν) (m' : OrderedMap κ μ),
      m.entries.map (fun e => (e.1, π e.2)) = m'.entries →
      (rows.foldl (fun m row => m.set (key row) (step ((m.get (key row)).getD (init row)) row))
        m).entries.map (fun e => (e.1, π e.2)) =
      (rows.foldl (fun m row => m.set (key row) (step' ((m.get (key row)).getD (init' row)) row))
        m').entries := by
    intro rows
    induction rows with
    | nil => intro m m' h; exact h
    | cons row rest ih =>
      intro m m' h
      refine ih _ _ ?_
      have hget : (m'.get (key row)).getD (init' row) = π ((m.get (key row)).getD (init row)) := by
        show (assocGet (key row) m'.entries).getD (init' row) = _
        rw [← h, assocGet_project, ← hinit, Option.getD_map]
        rfl
      show (assocSet (key row) _ m.entries).map _ = assocSet (key row) _ m'.entries
      rw [hget, ← hstep, ← h, assocSet_project]
  exact run rows empty empty rfl

end Projection

/-- The rows of each key, in their order. -/
def groupBy (key : ρ → κ) (rows : List ρ) : OrderedMap κ (List ρ) :=
  aggregateBy key (fun _ => []) (fun group row => group ++ [row]) rows

omit [DecidableEq κ] in
theorem foldl_append_singleton (rows group : List ρ) :
    rows.foldl (fun group row => group ++ [row]) group = group ++ rows := by
  induction rows generalizing group with
  | nil => simp
  | cons row rest ih => rw [foldl_cons, ih, append_assoc]; rfl

theorem get_groupBy (key : ρ → κ) (rows : List ρ) (k : κ) :
    (groupBy key rows).get k =
      if rows.filter (key · = k) = [] then none else some (rows.filter (key · = k)) := by
  rw [groupBy, get_aggregateBy]
  cases rows.filter (key · = k) with
  | nil => rfl
  | cons row rest =>
    exact congrArg some (foldl_append_singleton rest [row])

theorem get_groupBy_eq_some {group : List ρ} (h : (groupBy key rows).get k = some group) :
    group = rows.filter (key · = k) ∧ group ≠ [] := by
  rw [get_groupBy] at h
  split at h
  · exact (nomatch h)
  · next hne => cases h; exact ⟨rfl, hne⟩

theorem getD_get_groupBy (key : ρ → κ) (rows : List ρ) (k : κ) :
    ((groupBy key rows).get k).getD [] = rows.filter (key · = k) := by
  rw [get_groupBy]
  split
  · next h => rw [h]; rfl
  · rfl

theorem flatten_assocSet (k : κ) (row : ρ) (l : List (κ × List ρ)) :
    ((assocSet k ((assocGet k l).getD [] ++ [row]) l).map (·.2)).flatten.Perm
      (row :: (l.map (·.2)).flatten) := by
  induction l with
  | nil => simp [assocSet, assocGet]
  | cons p rest ih =>
    obtain ⟨i, group⟩ := p
    by_cases h : i = k
    · simp only [assocSet, assocGet, if_pos h, map_cons, flatten_cons, append_assoc]
      exact perm_middle
    · simp only [assocSet, assocGet, if_neg h]
      exact (ih.append_left group).trans perm_middle

/-- **The groups are a partition of the rows.** -/
theorem flatten_values_groupBy (key : ρ → κ) (rows : List ρ) :
    (groupBy key rows).values.flatten.Perm rows := by
  have run : ∀ (rows : List ρ) (m : OrderedMap κ (List ρ)),
      (rows.foldl (fun m row => m.set (key row) (((m.get (key row)).getD []) ++ [row]))
        m).values.flatten.Perm (m.values.flatten ++ rows) := by
    intro rows
    induction rows with
    | nil => intro m; simp
    | cons row rest ih =>
      intro m
      refine (ih _).trans ?_
      refine ((flatten_assocSet (key row) row m.entries).append_right rest).trans ?_
      exact perm_middle.symm
  exact run rows empty

theorem mem_entries_groupBy {e : κ × List ρ} :
    e ∈ (groupBy key rows).entries ↔ e.2 = rows.filter (key · = e.1) ∧ e.2 ≠ [] := by
  obtain ⟨k, group⟩ := e
  rw [← get_eq_some_iff]
  constructor
  · exact get_groupBy_eq_some
  · intro ⟨h, hne⟩
    have hgroup : group = rows.filter (key · = k) := h
    subst hgroup
    rw [get_groupBy, if_neg hne]

/-- **A row is in one group.** -/
theorem existsUnique_mem_groupBy (key : ρ → κ) {row : ρ} (h : row ∈ rows) :
    ∃! e, e ∈ (groupBy key rows).entries ∧ row ∈ e.2 := by
  have hmem : row ∈ rows.filter (key · = key row) := mem_filter.mpr ⟨h, decide_eq_true rfl⟩
  refine ⟨(key row, rows.filter (key · = key row)), ⟨?_, hmem⟩, ?_⟩
  · exact mem_entries_groupBy.mpr ⟨rfl, ne_nil_of_mem hmem⟩
  · intro ⟨k, group⟩ ⟨he, hrow⟩
    have hgroup : group = rows.filter (key · = k) := (mem_entries_groupBy.mp he).1
    rw [hgroup] at hrow
    have hk : key row = k := of_decide_eq_true (mem_filter.mp hrow).2
    rw [hgroup, hk]

/-- **A sum over rows is summed key by key**, over any list that has their keys once. -/
theorem sum_rows_of_keys {μ : Type} [AddCommMonoid μ] {keys : List κ} (hnd : keys.Nodup) (key : ρ → κ)
    (f : ρ → μ) (hk : ∀ row ∈ rows, key row ∈ keys) :
    (keys.map fun k => ((rows.filter (key · = k)).map f).sum).sum = (rows.map f).sum := by
  induction rows with
  | nil =>
    refine sum_eq_zero fun x hx => ?_
    obtain ⟨k, -, rfl⟩ := mem_map.mp hx
    rfl
  | cons row rest ih =>
    have hsplit : ∀ k, (((row :: rest).filter (key · = k)).map f).sum =
        (if key row = k then f row else 0) + ((rest.filter (key · = k)).map f).sum := by
      intro k
      by_cases h : key row = k
      · rw [filter_cons_of_pos (by simpa using h), map_cons, sum_cons, if_pos h]
      · rw [filter_cons_of_neg (by simpa using h), if_neg h, zero_add]
    rw [map_congr_left fun k _ => hsplit k, sum_map_add,
      sum_ite_key hnd (hk row mem_cons_self), ih fun r hr => hk r (mem_cons_of_mem _ hr),
      map_cons, sum_cons]

end AdsManagement.Lib
