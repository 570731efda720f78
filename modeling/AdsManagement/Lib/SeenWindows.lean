/-
  File:      Lib/SeenWindows.lean
  Subject:   RECORDS THAT NOTE WHEN THEY WERE SEEN: tables whose rows carry a first and a last date,
             and what these dates are after a log of mentions.

  A writer that finds the row of a key widens its window by the new date, or it keeps the first
  date it saw and takes the new date as the last. The first way leaves the extremes of the dates
  (`extremes_concat`), the second their ends (`ends_concat`); both agree exactly when the dates
  begin with their least and end with their greatest (`ends_eq_extremes_iff`).

  * `logAlong`, `logAlong_inv` -- what a run notes, and invariants that speak of it;
  * `upsertBy` -- update the row of a unique key, or create it;
  * `Tracks` -- the rows are those of the mentioned keys, with the summary of their dates;
  * `Tracks.change`, `Tracks.append`, `Tracks.upsertBy` -- one mention;
  * `KeyedIds.upsertBy` -- a table whose rows have an id and a unique key;
  * `Tracks.map` -- changes that leave keys and windows alone.
-/
import Mathlib.Data.List.Lattice
import Mathlib.Order.MinMax

namespace AdsManagement.Lib

open List

/-! ## 1. Windows and dates -/

structure Window (δ : Type) where
  first : Option δ
  last : Option δ
deriving DecidableEq

section Dates

variable {δ : Type} [LinearOrder δ]

/-- Both dates give way to an earlier and a later one. -/
def Window.widen (w : Window δ) (d : δ) : Window δ where
  first := some (w.first.elim d fun a => min a d)
  last := some (w.last.elim d fun b => max b d)

omit [LinearOrder δ] in
/-- The first date stays, the last is replaced. -/
def Window.push (w : Window δ) (d : δ) : Window δ where
  first := some (w.first.getD d)
  last := some d

def extremes (ds : List δ) : Window δ := ⟨ds.min?, ds.max?⟩

omit [LinearOrder δ] in
def ends (ds : List δ) : Window δ := ⟨ds.head?, ds.getLast?⟩

theorem extremes_concat (ds : List δ) (d : δ) : extremes (ds ++ [d]) = (extremes ds).widen d := by
  cases ds with
  | nil => rfl
  | cons a ds =>
    unfold extremes Window.widen
    simp only [cons_append, min?_cons', max?_cons', foldl_append, foldl_cons,
      foldl_nil, Option.elim_some]

omit [LinearOrder δ] in
theorem ends_concat (ds : List δ) (d : δ) : ends (ds ++ [d]) = (ends ds).push d := by
  unfold ends
  rw [getLast?_concat, head?_append]
  cases ds.head? with
  | none | some a => rfl

/-- The dates begin with their least and end with their greatest. -/
def InOrder (ds : List δ) : Prop :=
  ∀ d ∈ ds, (∀ a ∈ ds.head?, a ≤ d) ∧ ∀ b ∈ ds.getLast?, d ≤ b

instance (ds : List δ) : Decidable (InOrder ds) :=
  inferInstanceAs (Decidable (∀ d ∈ ds, (∀ a ∈ ds.head?, a ≤ d) ∧ ∀ b ∈ ds.getLast?, d ≤ b))

/-- **The ends are the extremes exactly for dates in order.** -/
theorem ends_eq_extremes_iff (ds : List δ) : ends ds = extremes ds ↔ InOrder ds := by
  unfold ends extremes InOrder
  rw [Window.mk.injEq]
  cases hf : ds.head? with
  | none =>
    rw [head?_eq_none_iff] at hf
    subst hf
    simp
  | some a =>
    have ha : a ∈ ds := mem_of_mem_head? hf
    obtain ⟨b, hb⟩ : ∃ b, ds.getLast? = some b :=
      ⟨_, getLast?_eq_some_getLast (ne_nil_of_mem ha)⟩
    have hbm : b ∈ ds := mem_of_getLast? hb
    rw [hb, eq_comm, min?_eq_some_iff, @eq_comm _ (some b), max?_eq_some_iff]
    constructor
    · rintro ⟨⟨-, hmin⟩, -, hmax⟩ d hd
      refine ⟨fun x hx => ?_, fun x hx => ?_⟩
      · cases hx
        exact hmin d hd
      · cases hx
        exact hmax d hd
    · intro h
      exact ⟨⟨ha, fun d hd => (h d hd).1 a rfl⟩, hbm, fun d hd => (h d hd).2 b rfl⟩

theorem InOrder.of_sorted {ds : List δ} (h : ds.Pairwise (· ≤ ·)) : InOrder ds := by
  intro d hd
  constructor
  · intro a ha
    cases ds with
    | nil => cases hd
    | cons x rest =>
      cases ha
      rcases mem_cons.mp hd with rfl | hd
      · exact le_refl _
      · exact rel_of_pairwise_cons h hd
  · intro b hb
    obtain ⟨front, rfl⟩ := getLast?_eq_some_iff.mp hb
    rcases mem_append.mp hd with hd | hd
    · exact (pairwise_append.mp h).2.2 d hd b (mem_singleton.mpr rfl)
    · exact le_of_eq (mem_singleton.mp hd)

/-- Extremes do not depend on the order of the dates. -/
theorem extremes_perm {ds ds' : List δ} (h : ds.Perm ds') : extremes ds = extremes ds' := by
  unfold extremes
  rw [Window.mk.injEq]
  constructor
  · refine Option.ext fun a => ?_
    rw [min?_eq_some_iff, min?_eq_some_iff]
    simp only [h.mem_iff]
  · refine Option.ext fun a => ?_
    rw [max?_eq_some_iff, max?_eq_some_iff]
    simp only [h.mem_iff]

end Dates

/-! ## 2. Mentions -/

section Mentions

variable {μ κ δ : Type} [DecidableEq κ]

/-- The dates at which a log mentions a key. -/
def datesOf (keyOf : μ → Option κ) (date : μ → δ) (log : List μ) (k : κ) : List δ :=
  (log.filter fun m => keyOf m = some k).map date

/-- One more mention, of the key `k`. -/
def noted (dates : κ → List δ) (k : κ) (d : δ) (j : κ) : List δ :=
  if j = k then dates j ++ [d] else dates j

variable {keyOf : μ → Option κ} {date : μ → δ} {log : List μ} {m : μ}

theorem datesOf_concat {k : κ} {d : δ} (h : keyOf m = some k) (hd : date m = d) :
    datesOf keyOf date (log ++ [m]) = noted (datesOf keyOf date log) k d := by
  subst hd
  funext j
  unfold datesOf noted
  rw [filter_append, map_append]
  by_cases hj : j = k
  · subst hj
    rw [if_pos rfl, filter_cons_of_pos (by simp [h])]
    rfl
  · rw [if_neg hj, filter_cons_of_neg (by simp [h, Ne.symm hj])]
    exact append_nil _

theorem datesOf_concat_none (h : keyOf m = none) :
    datesOf keyOf date (log ++ [m]) = datesOf keyOf date log := by
  funext j
  unfold datesOf
  rw [filter_append, map_append, filter_cons_of_neg (by simp [h])]
  exact append_nil _

/-- What the steps of a run note, in order. -/
def logAlong {σ α : Type} (step : σ → α → σ) (note : σ → α → List μ) : σ → List α → List μ
  | _, [] => []
  | s, a :: rest => note s a ++ logAlong step note (step s a) rest

omit [DecidableEq κ] in
/-- **A statement about log and state that every step keeps holds after a run.** -/
theorem logAlong_inv {σ α : Type} {step : σ → α → σ} {note : σ → α → List μ} {I : List μ → σ → Prop}
    (hstep : ∀ log s a, I log s → I (log ++ note s a) (step s a)) (entries : List α) (log : List μ) (s : σ)
    (h : I log s) : I (log ++ logAlong step note s entries) (entries.foldl step s) := by
  induction entries generalizing log s with
  | nil => exact (append_nil log).symm ▸ h
  | cons a rest ih =>
    have hrest := ih (log ++ note s a) (step s a) (hstep log s a h)
    rw [append_assoc] at hrest
    exact hrest

end Mentions

/-! ## 3. Tables -/

section Tables

/-- Update the row of a unique key, or create it; the row comes with the table. -/
def upsertBy {ρ : Type} (hit : ρ → Bool) (change : ρ → ρ) (new : ρ) (rows : List ρ) : List ρ × ρ :=
  match rows.find? hit with
  | some existing => (rows.map fun row => if hit row then change row else row, change existing)
  | none => (rows ++ [new], new)

/-- A row after an upsert has the key of an old row or of the new one. -/
theorem key_of_mem_upsertBy {ρ κ : Type} (key : ρ → κ) {hit : ρ → Bool} {edit : ρ → ρ} {new : ρ}
    {rows : List ρ} (hedit : ∀ r, key (edit r) = key r) {r : ρ} (hr : r ∈ (upsertBy hit edit new rows).1) :
    (∃ s ∈ rows, key r = key s) ∨ key r = key new := by
  unfold upsertBy at hr
  split at hr
  · obtain ⟨s, hs, rfl⟩ := mem_map.mp hr
    refine .inl ⟨s, hs, ?_⟩
    split
    · exact hedit s
    · rfl
  · rcases mem_append.mp hr with hr | hr
    · exact .inl ⟨r, hr, rfl⟩
    · exact .inr (by rw [mem_singleton.mp hr])

variable {ρ κ δ : Type} [DecidableEq κ]

/-- The rows are those of the mentioned keys, and their windows the summary of the dates. -/
def Tracks (summary : List δ → Window δ) (key : ρ → κ) (window : ρ → Window δ) (dates : κ → List δ)
    (rows : List ρ) : Prop :=
  ∀ k w, (∃ r ∈ rows, key r = k ∧ window r = w) ↔ dates k ≠ [] ∧ w = summary (dates k)

variable {summary : List δ → Window δ} {key : ρ → κ} {window : ρ → Window δ} {dates : κ → List δ}
  {rows : List ρ}

section

omit [DecidableEq κ]

theorem Tracks.nil : Tracks summary key window (fun _ => []) [] :=
  fun _ _ => ⟨fun ⟨_, hr, _⟩ => (nomatch hr), fun h => absurd rfl h.1⟩

section

variable (h : Tracks summary key window dates rows)
include h

theorem Tracks.window_eq {r : ρ} (hr : r ∈ rows) :
    dates (key r) ≠ [] ∧ window r = summary (dates (key r)) :=
  (h (key r) (window r)).mp ⟨r, hr, rfl, rfl⟩

theorem Tracks.exists_row {k : κ} (hk : dates k ≠ []) : ∃ r ∈ rows, key r = k :=
  let ⟨r, hr, e, _⟩ := (h k _).mpr ⟨hk, rfl⟩
  ⟨r, hr, e⟩

/-- Changes that leave keys and windows alone. -/
theorem Tracks.map {f : ρ → ρ} (hf : ∀ r ∈ rows, key (f r) = key r ∧ window (f r) = window r) :
    Tracks summary key window dates (rows.map f) := by
  intro k w
  rw [← h k w]
  constructor
  · rintro ⟨_, hm, rfl, rfl⟩
    obtain ⟨r, hr, rfl⟩ := mem_map.mp hm
    exact ⟨r, hr, (hf r hr).1.symm, (hf r hr).2.symm⟩
  · rintro ⟨r, hr, rfl, rfl⟩
    exact ⟨f r, mem_map_of_mem hr, (hf r hr).1, (hf r hr).2⟩

end

end

variable {grow : Window δ → δ → Window δ} {k : κ} {d : δ} {hit : ρ → Bool} {edit : ρ → ρ}

section

variable (h : Tracks summary key window dates rows)
include h

/-- A mention of a key that has a row. -/
theorem Tracks.change (hsummary : ∀ ds d, summary (ds ++ [d]) = grow (summary ds) d) (hk : dates k ≠ [])
    (hhit : ∀ r, hit r = true ↔ key r = k) (hkey : ∀ r ∈ rows, key r = k → key (edit r) = k)
    (hwindow : ∀ r ∈ rows, key r = k → window (edit r) = grow (window r) d) :
    Tracks summary key window (noted dates k d) (rows.map fun row => if hit row then edit row else row) := by
  intro j w
  unfold noted
  by_cases hj : j = k
  · subst hj
    rw [if_pos rfl, hsummary]
    constructor
    · rintro ⟨_, hm, e, rfl⟩
      obtain ⟨r, hr, rfl⟩ := mem_map.mp hm
      by_cases hr' : key r = j
      · rw [if_pos ((hhit r).mpr hr'), hwindow r hr hr', (h.window_eq hr).2, hr']
        exact ⟨fun e => by simp at e, rfl⟩
      · rw [if_neg fun e => hr' ((hhit r).mp e)] at e
        exact absurd e hr'
    · rintro ⟨-, rfl⟩
      obtain ⟨r, hr, e⟩ := h.exists_row hk
      refine ⟨edit r, mem_map.mpr ⟨r, hr, if_pos ((hhit r).mpr e)⟩, hkey r hr e, ?_⟩
      rw [hwindow r hr e, (h.window_eq hr).2, e]
  · rw [if_neg hj, ← h j w]
    constructor
    · rintro ⟨_, hm, e, rfl⟩
      obtain ⟨r, hr, rfl⟩ := mem_map.mp hm
      by_cases hr' : key r = k
      · rw [if_pos ((hhit r).mpr hr'), hkey r hr hr'] at e
        exact absurd e.symm hj
      · rw [if_neg fun e => hr' ((hhit r).mp e)] at e ⊢
        exact ⟨r, hr, e, rfl⟩
    · rintro ⟨r, hr, rfl, rfl⟩
      have hn : ¬ hit r = true := fun e => hj ((hhit r).mp e)
      exact ⟨r, mem_map.mpr ⟨r, hr, if_neg hn⟩, rfl, rfl⟩

/-- The first mention of a key. -/
theorem Tracks.append {new : ρ} (hk : dates k = [])
    (hkey : key new = k) (hwindow : window new = summary [d]) :
    Tracks summary key window (noted dates k d) (rows ++ [new]) := by
  intro j w
  unfold noted
  by_cases hj : j = k
  · subst hj
    rw [if_pos rfl, hk]
    constructor
    · rintro ⟨r, hr, e, rfl⟩
      rcases mem_append.mp hr with hr | hr
      · exact absurd (e ▸ hk) (h.window_eq hr).1
      · rw [mem_singleton.mp hr]
        exact ⟨cons_ne_nil _ _, hwindow⟩
    · rintro ⟨-, rfl⟩
      exact ⟨new, mem_append_right _ (mem_singleton.mpr rfl), hkey, hwindow⟩
  · rw [if_neg hj, ← h j w]
    constructor
    · rintro ⟨r, hr, e, rfl⟩
      rcases mem_append.mp hr with hr | hr
      · exact ⟨r, hr, e, rfl⟩
      · rw [mem_singleton.mp hr, hkey] at e
        exact absurd e.symm hj
    · rintro ⟨r, hr, e⟩
      exact ⟨r, mem_append_left _ hr, e⟩

/-- **One mention, as a writer of the table notes it.** -/
theorem Tracks.upsertBy {new : ρ} (hsummary : ∀ ds d, summary (ds ++ [d]) = grow (summary ds) d)
    (hhit : ∀ r, hit r = true ↔ key r = k) (hkey : ∀ r, key r = k → key (edit r) = k)
    (hwindow : ∀ r, window (edit r) = grow (window r) d) (hnew : key new = k)
    (hseen : window new = summary [d]) :
    Tracks summary key window (noted dates k d) (upsertBy hit edit new rows).1 := by
  unfold Lib.upsertBy
  split
  · rename_i existing e
    have he : key existing = k := (hhit existing).mp (find?_some e)
    exact h.change hsummary (he ▸ (h.window_eq (mem_of_find?_eq_some e)).1) hhit
      (fun r _ => hkey r) (fun r _ _ => hwindow r)
  · rename_i e
    have hnone : dates k = [] := by
      by_contra hne
      obtain ⟨r, hr, er⟩ := h.exists_row hne
      exact find?_eq_none.mp e r hr ((hhit r).mpr er)
    exact h.append hnone hnew hseen

end

end Tables

/-! ## 4. Rows with an id and a key -/

section Ids

variable {ρ κ : Type}

/-- Rows are known by their id as well as by their key, and ids below `nextId` are used up. -/
structure KeyedIds (id : ρ → Nat) (key : ρ → κ) (nextId : Nat) (rows : List ρ) : Prop where
  fresh : ∀ r ∈ rows, id r < nextId
  ids : ∀ r ∈ rows, ∀ s ∈ rows, id r = id s ↔ key r = key s

/-- A row with the id `i` and the key `k`. -/
def HasId (id : ρ → Nat) (key : ρ → κ) (rows : List ρ) (i : Nat) (k : κ) : Prop :=
  ∃ r ∈ rows, id r = i ∧ key r = k

variable {id : ρ → Nat} {key : ρ → κ} {nextId : Nat} {rows : List ρ}

theorem KeyedIds.nil : KeyedIds id key nextId [] :=
  ⟨nofun, nofun⟩

section

variable (h : KeyedIds id key nextId rows)
include h

theorem KeyedIds.eq_id {i j : Nat} {k : κ} (hi : HasId id key rows i k)
    (hj : HasId id key rows j k) : i = j := by
  obtain ⟨r, hr, rfl, er⟩ := hi
  obtain ⟨s, hs, rfl, es⟩ := hj
  exact (h.ids r hr s hs).mpr (er.trans es.symm)

theorem KeyedIds.eq_key {i : Nat} {k l : κ} (hk : HasId id key rows i k)
    (hl : HasId id key rows i l) : k = l := by
  obtain ⟨r, hr, er, rfl⟩ := hk
  obtain ⟨s, hs, es, rfl⟩ := hl
  exact (h.ids r hr s hs).mp (er.trans es.symm)

theorem KeyedIds.filter (p : ρ → Bool) : KeyedIds id key nextId (rows.filter p) where
  fresh := fun r hr => h.fresh r (mem_filter.mp hr).1
  ids := fun r hr s hs => h.ids r (mem_filter.mp hr).1 s (mem_filter.mp hs).1

theorem KeyedIds.map {f : ρ → ρ}
    (hf : ∀ r, id (f r) = id r ∧ key (f r) = key r) : KeyedIds id key nextId (rows.map f) where
  fresh := by
    intro _ hm
    obtain ⟨r, hr, rfl⟩ := mem_map.mp hm
    rw [(hf r).1]
    exact h.fresh r hr
  ids := by
    intro _ hm _ hm'
    obtain ⟨r, hr, rfl⟩ := mem_map.mp hm
    obtain ⟨s, hs, rfl⟩ := mem_map.mp hm'
    rw [(hf r).1, (hf r).2, (hf s).1, (hf s).2]
    exact h.ids r hr s hs

end

variable {hit : ρ → Bool} {edit : ρ → ρ} {new : ρ} {k : κ}

/-- **The row of the key is found or created, and every other row keeps id and key.** -/
theorem KeyedIds.upsertBy (h : KeyedIds id key nextId rows) (hhit : ∀ r, hit r = true ↔ key r = k)
    (hedit : ∀ r, id (edit r) = id r ∧ key (edit r) = key r) (hid : id new = nextId) (hnew : key new = k) :
    KeyedIds id key (nextId + 1) (upsertBy hit edit new rows).1 ∧
      (∀ i j, HasId id key rows i j → HasId id key (upsertBy hit edit new rows).1 i j) ∧
      HasId id key (upsertBy hit edit new rows).1 (id (upsertBy hit edit new rows).2) k ∧
      ∀ i j, HasId id key (upsertBy hit edit new rows).1 i j → HasId id key rows i j ∨ j = k := by
  have hf : ∀ r, id (if hit r then edit r else r) = id r ∧ key (if hit r then edit r else r) = key r := by
    intro r
    split
    · exact hedit r
    · exact ⟨rfl, rfl⟩
  unfold Lib.upsertBy
  split
  · rename_i existing e
    have hm := mem_of_find?_eq_some e
    have hk := (hhit existing).mp (find?_some e)
    have hmap := h.map hf
    refine ⟨⟨fun r hr => Nat.lt_succ_of_lt (hmap.fresh r hr), hmap.ids⟩, ?_, ?_, ?_⟩
    · rintro i j ⟨r, hr, rfl, rfl⟩
      exact ⟨_, mem_map_of_mem hr, hf r⟩
    · refine ⟨_, mem_map_of_mem hm, ?_, (hf existing).2.trans hk⟩
      rw [(hf existing).1]
      exact (hedit existing).1.symm
    · rintro i j ⟨_, hm', rfl, rfl⟩
      obtain ⟨r, hr, rfl⟩ := mem_map.mp hm'
      exact .inl ⟨r, hr, (hf r).1.symm, (hf r).2.symm⟩
  · rename_i e
    have hnone : ∀ r ∈ rows, key r ≠ k := fun r hr hk =>
      find?_eq_none.mp e r hr ((hhit r).mpr hk)
    have hlast : new ∈ rows ++ [new] := mem_append_right _ (mem_singleton.mpr rfl)
    refine ⟨⟨fun r hr => ?_, fun r hr s hs => ?_⟩, ?_, ⟨new, hlast, rfl, hnew⟩, ?_⟩
    · rcases mem_append.mp hr with hr | hr
      · exact Nat.lt_succ_of_lt (h.fresh r hr)
      · rw [mem_singleton.mp hr, hid]
        exact Nat.lt_succ_self _
    · rcases mem_append.mp hr with hr | hr <;> rcases mem_append.mp hs with hs | hs
      · exact h.ids r hr s hs
      · rw [mem_singleton.mp hs, hid, hnew]
        exact iff_of_false (Nat.ne_of_lt (h.fresh r hr)) (hnone r hr)
      · rw [mem_singleton.mp hr, hid, hnew]
        exact iff_of_false (Nat.ne_of_gt (h.fresh s hs)) (Ne.symm (hnone s hs))
      · rw [mem_singleton.mp hr, mem_singleton.mp hs]
        exact iff_of_true rfl rfl
    · rintro i j ⟨r, hr, er⟩
      exact ⟨r, mem_append_left _ hr, er⟩
    · rintro i j ⟨r, hr, rfl, rfl⟩
      rcases mem_append.mp hr with hr | hr
      · exact .inl ⟨r, hr, rfl, rfl⟩
      · rw [mem_singleton.mp hr]
        exact .inr hnew

end Ids

end AdsManagement.Lib
