/-
  File:      Lib/RuleHistory.lean
  Subject:   RULE HISTORIES: rules that hold from a start day to an end day, the end always
             being the day before the next start.

  A history is kept in a table whose rows are updated by id. `normalizeRanges` is the loop
  that rewrites the ends: it walks the rules in the order of their starts, refuses two equal
  starts and updates every end that differs.

  * `normalizeRanges_eq`, `normalizeRanges_selection` -- the loop in closed form;
  * `Contiguous.covers_iff` -- in a contiguous history the rule whose range holds a day is the
    last one that starts at or before it;
  * `Contiguous.chained` -- the history read in the order of the starts;
  * `Overlaid.search_eq` -- what a write at one day changes.
-/
import AdsManagement.Lib.LastOfKind
import Mathlib.Data.List.Sort
import Mathlib.Data.List.MinMax
import Mathlib.Tactic.Linarith

namespace AdsManagement.Lib

open List

/-- How a rule is read, and how its end is written. -/
structure DatedRule (ρ ι : Type) where
  id : ρ → ι
  start : ρ → Int
  stop : ρ → Option Int
  setStop : ρ → Option Int → ρ
  id_setStop : ∀ r e, id (setStop r e) = id r := by intros; rfl
  start_setStop : ∀ r e, start (setStop r e) = start r := by intros; rfl
  stop_setStop : ∀ r e, stop (setStop r e) = e := by intros; rfl
  setStop_stop : ∀ r, setStop r (stop r) = r := by intros; rfl
  setStop_setStop : ∀ r e e', setStop (setStop r e) e' = setStop r e' := by intros; rfl

variable {ρ ι ε : Type} (D : DatedRule ρ ι)

/-- The first start after a day. -/
def nextStart (rules : List ρ) (d : Int) : Option Int :=
  ((rules.map D.start).filter fun s => d < s).min?

/-- The end a rule has in a history. -/
def closedStop (rules : List ρ) (r : ρ) : Option Int :=
  (nextStart D rules (D.start r)).map (· - 1)

def close (rules : List ρ) (r : ρ) : ρ := D.setStop r (closedStop D rules r)

/-- Starts are distinct and every end is the day before the next start. -/
structure Contiguous (rules : List ρ) : Prop where
  distinct : (rules.map D.start).Nodup
  closed : ∀ r ∈ rules, D.stop r = closedStop D rules r

variable {D} {rules : List ρ}

/-! ## 1. The next start -/

variable {d : Int}

theorem nextStart_eq_some_iff {m : Int} : nextStart D rules d = some m ↔
    (∃ r ∈ rules, D.start r = m ∧ d < m) ∧ ∀ r ∈ rules, d < D.start r → m ≤ D.start r := by
  unfold nextStart
  rw [min?_eq_some_iff]
  simp only [mem_filter, mem_map, decide_eq_true_eq]
  constructor
  · rintro ⟨⟨⟨r, hr, rfl⟩, hd⟩, hmin⟩
    exact ⟨⟨r, hr, rfl, hd⟩, fun s hs hds => hmin _ ⟨⟨s, hs, rfl⟩, hds⟩⟩
  · rintro ⟨⟨r, hr, rfl, hd⟩, hmin⟩
    refine ⟨⟨⟨r, hr, rfl⟩, hd⟩, ?_⟩
    rintro _ ⟨⟨s, hs, rfl⟩, hds⟩
    exact hmin s hs hds

theorem nextStart_eq_none_iff :
    nextStart D rules d = none ↔ ∀ r ∈ rules, D.start r ≤ d := by
  unfold nextStart
  rw [min?_eq_none_iff, filter_eq_nil_iff]
  simp only [mem_map, decide_eq_true_eq, not_lt]
  constructor
  · intro h r hr
    exact h _ ⟨r, hr, rfl⟩
  · rintro h _ ⟨r, hr, rfl⟩
    exact h r hr

variable {l m : List ρ}

section

variable (h : ∀ s, s ∈ l.map D.start ↔ s ∈ m.map D.start)
include h

/-- The next start depends only on which starts there are. -/
theorem nextStart_congr (d : Int) : nextStart D l d = nextStart D m d := by
  have h1 : ∀ r ∈ l, ∃ s ∈ m, D.start s = D.start r :=
    fun r hr => mem_map.mp ((h _).mp (mem_map_of_mem hr))
  have h2 : ∀ r ∈ m, ∃ s ∈ l, D.start s = D.start r :=
    fun r hr => mem_map.mp ((h _).mpr (mem_map_of_mem hr))
  cases e : nextStart D m d with
  | none =>
    rw [nextStart_eq_none_iff] at e ⊢
    intro r hr
    obtain ⟨s, hs, es⟩ := h1 r hr
    rw [← es]
    exact e s hs
  | some x =>
    rw [nextStart_eq_some_iff] at e ⊢
    obtain ⟨⟨r, hr, rfl, hd⟩, hmin⟩ := e
    obtain ⟨s, hs, es⟩ := h2 r hr
    refine ⟨⟨s, hs, es, hd⟩, fun t ht hdt => ?_⟩
    obtain ⟨u, hu, eu⟩ := h1 t ht
    rw [← eu]
    exact hmin u hu (by rw [eu]; exact hdt)

theorem closedStop_congr (r : ρ) : closedStop D l r = closedStop D m r := by
  unfold closedStop
  rw [nextStart_congr h]

theorem close_congr (r : ρ) : close D l r = close D m r := by
  unfold close
  rw [closedStop_congr h]

end

variable {r : ρ}

theorem closedStop_of_start (rules : List ρ) {s : ρ} (h : D.start r = D.start s) :
    closedStop D rules r = closedStop D rules s := by
  unfold closedStop
  rw [h]

theorem nextStart_cons_of_le (h : D.start r ≤ d) :
    nextStart D (r :: rules) d = nextStart D rules d := by
  unfold nextStart
  rw [map_cons, filter_cons_of_neg]
  simpa using h

/-- In the order of the starts, the next start after the first rule is that of the second. -/
theorem nextStart_head (h : (r :: rules).Pairwise fun a b => D.start a < D.start b) :
    nextStart D (r :: rules) (D.start r) = rules.head?.map D.start := by
  rw [nextStart_cons_of_le (le_refl _)]
  obtain ⟨hr, hs⟩ := pairwise_cons.mp h
  cases rules with
  | nil => rfl
  | cons s rest =>
    rw [head?_cons, Option.map_some, nextStart_eq_some_iff]
    refine ⟨⟨s, mem_cons_self, rfl, hr s mem_cons_self⟩, fun t ht _ => ?_⟩
    rcases mem_cons.mp ht with rfl | ht
    · exact le_refl _
    · exact (rel_of_pairwise_cons hs ht).le

variable {rest : List ρ} {current : ρ}

/-- A sorted list whose second start differs from the first ascends strictly from its head. -/
theorem head_lt_of_ne (hs : (current :: rest).Pairwise fun a b => D.start a ≤ D.start b)
    (hne : ∀ n ∈ rest.head?, D.start n ≠ D.start current) :
    ∀ r ∈ rest, D.start current < D.start r := by
  obtain ⟨hle, hs'⟩ := pairwise_cons.mp hs
  intro r hr
  cases rest with
  | nil => cases hr
  | cons n rest =>
    have hn : D.start current < D.start n :=
      lt_of_le_of_ne (hle n mem_cons_self) (hne n rfl).symm
    rcases mem_cons.mp hr with rfl | hr
    · exact hn
    · exact lt_of_lt_of_le hn (rel_of_pairwise_cons hs' hr)

/-! ## 2. The loop -/

section Loop

variable [DecidableEq ι]

/-- `update({ where: { id }, data: { effectiveTo } })`. -/
def updateStop (D : DatedRule ρ ι) (i : ι) (e : Option Int) (table : List ρ) : List ρ :=
  table.map fun r => if D.id r = i then D.setStop r e else r

/-- The loop over the rules in the order of their starts, as they were read. -/
def normalizeRanges (D : DatedRule ρ ι) (duplicate : ε) : List ρ → List ρ → Except ε (List ρ)
  | [], table => .ok table
  | current :: rest, table =>
    let next := rest.head?
    if next.any fun n => D.start n = D.start current then .error duplicate
    else
      let effectiveTo := next.map fun n => D.start n - 1
      normalizeRanges D duplicate rest
        (if D.stop current ≠ effectiveTo then updateStop D (D.id current) effectiveTo table
         else table)

/-- The same loop where the starts were checked before it. -/
def endRanges (D : DatedRule ρ ι) : List ρ → List ρ → List ρ
  | [], table => table
  | current :: rest, table =>
    let effectiveTo := rest.head?.map fun n => D.start n - 1
    endRanges D rest
      (if D.stop current ≠ effectiveTo then updateStop D (D.id current) effectiveTo table else table)

variable {sorted : List ρ}

/-- Distinct starts pass the check of the loop. -/
theorem normalizeRanges_eq_endRanges (duplicate : ε) :
    ∀ table : List ρ, (sorted.map D.start).Nodup →
      normalizeRanges D duplicate sorted table = .ok (endRanges D sorted table) := by
  induction sorted with
  | nil => exact fun _ _ => rfl
  | cons current rest ih =>
    intro table hnd
    obtain ⟨hcur, hrest⟩ := nodup_cons.mp hnd
    have hnext : ¬ (rest.head?.any fun n => D.start n = D.start current) = true := by
      intro h
      cases rest with
      | nil => cases h
      | cons n rest =>
        have e : D.start n = D.start current := of_decide_eq_true h
        rw [← e] at hcur
        exact hcur mem_cons_self
    unfold normalizeRanges
    rw [if_neg hnext]
    exact ih _ hrest

/-- The table once every listed rule has its end. -/
def closeListed (D : DatedRule ρ ι) (sorted table : List ρ) : List ρ :=
  table.map fun r => if D.id r ∈ sorted.map D.id then close D sorted r else r

variable {table : List ρ}

theorem updateStop_self (hids : (table.map D.id).Nodup) {c : ρ} (hc : c ∈ table) :
    updateStop D (D.id c) (D.stop c) table = table := by
  refine (map_congr_left fun r hr => ?_).trans (map_id' table)
  split
  · next e => rw [inj_on_of_nodup_map hids hr hc e, D.setStop_stop]
  · rfl

theorem map_id_updateStop (i : ι) (e : Option Int) (table : List ρ) :
    (updateStop D i e table).map D.id = table.map D.id := by
  unfold updateStop
  rw [map_map]
  refine map_congr_left fun r _ => ?_
  simp only [Function.comp_apply]
  split
  · exact D.id_setStop r e
  · rfl

/-- One turn of the loop, on the closed form. -/
theorem closeListed_cons (hids : (table.map D.id).Nodup) (hmem : ∀ r ∈ current :: rest, r ∈ table)
    (hcur : D.id current ∉ rest.map D.id)
    (hlt : (current :: rest).Pairwise fun a b => D.start a < D.start b) :
    closeListed D rest (updateStop D (D.id current) (rest.head?.map fun n => D.start n - 1) table) =
      closeListed D (current :: rest) table := by
  unfold closeListed updateStop
  rw [map_map]
  refine map_congr_left fun r hr => ?_
  simp only [Function.comp_apply, map_cons, mem_cons]
  by_cases hi : D.id r = D.id current
  · have e : r = current := inj_on_of_nodup_map hids hr (hmem current mem_cons_self) hi
    rw [if_pos hi, D.id_setStop, if_neg (by rw [hi]; exact hcur), if_pos (.inl hi)]
    unfold close closedStop
    rw [e, nextStart_head hlt, Option.map_map]
    rfl
  · rw [if_neg hi]
    by_cases hm : D.id r ∈ rest.map D.id
    · obtain ⟨s, hs, es⟩ := mem_map.mp hm
      have e : s = r := inj_on_of_nodup_map hids (hmem s (mem_cons_of_mem _ hs)) hr es
      rw [if_pos hm, if_pos (.inr hm)]
      unfold close closedStop
      rw [nextStart_cons_of_le]
      rw [← e]
      exact (rel_of_pairwise_cons hlt hs).le
    · rw [if_neg hm, if_neg (not_or.mpr ⟨hi, hm⟩)]

theorem normalizeRanges_cons (duplicate : ε) (hids : (table.map D.id).Nodup) (hc : current ∈ table) :
    normalizeRanges D duplicate (current :: rest) table =
      if rest.head?.any (fun n => D.start n = D.start current) then .error duplicate
      else normalizeRanges D duplicate rest
        (updateStop D (D.id current) (rest.head?.map fun n => D.start n - 1) table) := by
  conv_lhs => unfold normalizeRanges
  simp only
  congr 2
  split
  · rfl
  · next e => rw [← not_not.mp e, updateStop_self hids hc]

/-- **The loop in closed form**: it succeeds exactly when the starts are distinct, and then gives
    every listed rule the end it has in the list. -/
theorem normalizeRanges_eq (duplicate : ε) (sorted : List ρ) : ∀ table : List ρ,
    sorted.Pairwise (fun a b => D.start a ≤ D.start b) → (table.map D.id).Nodup →
    (∀ r ∈ sorted, r ∈ table) → (sorted.map D.id).Nodup →
    normalizeRanges D duplicate sorted table =
      if (sorted.map D.start).Nodup then .ok (closeListed D sorted table) else .error duplicate := by
  induction sorted with
  | nil =>
    intro table _ _ _ _
    unfold closeListed
    have e : (fun r : ρ => if D.id r ∈ map D.id [] then close D [] r else r) = fun r => r := by
      funext r
      exact if_neg not_mem_nil
    rw [e, map_id']
    rfl
  | cons current rest ih =>
    intro table hs hids hmem hnd
    obtain ⟨hcur, hnd'⟩ := nodup_cons.mp hnd
    rw [normalizeRanges_cons duplicate hids (hmem current mem_cons_self)]
    by_cases hdup : rest.head?.any (fun n => D.start n = D.start current) = true
    · rw [if_pos hdup, if_neg]
      cases rest with
      | nil => cases hdup
      | cons n rest =>
        intro hnodup
        refine (nodup_cons.mp hnodup).1 ?_
        rw [← of_decide_eq_true (show decide (D.start n = D.start current) = true from hdup)]
        exact mem_cons_self
    · rw [if_neg hdup]
      have hlt : ∀ r ∈ rest, D.start current < D.start r := by
        refine head_lt_of_ne hs fun n hn e => hdup ?_
        rw [Option.mem_def.mp hn]
        exact decide_eq_true e
      have hnot : D.start current ∉ rest.map D.start := by
        intro h
        obtain ⟨r, hr, e⟩ := mem_map.mp h
        exact absurd e (ne_of_gt (hlt r hr))
      -- the rows of the rest were read before the loop and are not touched at this turn
      have hmem' : ∀ r ∈ rest, r ∈ updateStop D (D.id current)
          (rest.head?.map fun n => D.start n - 1) table := by
        intro r hr
        refine mem_map.mpr ⟨r, hmem r (mem_cons_of_mem _ hr), ?_⟩
        rw [if_neg]
        exact fun e => hcur (mem_map.mpr ⟨r, hr, e⟩)
      have hids' : ((updateStop D (D.id current) (rest.head?.map fun n => D.start n - 1)
          table).map D.id).Nodup := by
        rw [map_id_updateStop]
        exact hids
      rw [ih _ (pairwise_cons.mp hs).2 hids' hmem' hnd']
      rw [map_cons]
      by_cases hrest : (rest.map D.start).Nodup
      · have hstrict : (current :: rest).Pairwise fun a b => D.start a < D.start b := by
          refine pairwise_cons.mpr ⟨hlt, ?_⟩
          have hne := pairwise_map.mp hrest
          exact ((pairwise_cons.mp hs).2.and hne).imp fun h => lt_of_le_of_ne h.1 h.2
        rw [if_pos hrest, if_pos (nodup_cons.mpr ⟨hnot, hrest⟩),
          closeListed_cons hids hmem hcur hstrict]
      · rw [if_neg hrest, if_neg fun h => hrest (nodup_cons.mp h).2]

/-- **The loop over a selection of the table.** -/
theorem normalizeRanges_selection (duplicate : ε) (sel : ρ → Bool) (hids : (table.map D.id).Nodup)
    (hperm : sorted.Perm (table.filter sel)) (hs : sorted.Pairwise fun a b => D.start a ≤ D.start b) :
    normalizeRanges D duplicate sorted table =
      if ((table.filter sel).map D.start).Nodup then
        .ok (table.map fun r => if sel r then close D (table.filter sel) r else r)
      else .error duplicate := by
  have hsub : (table.filter sel).Sublist table := filter_sublist
  have hnd : (sorted.map D.id).Nodup :=
    (hperm.map _).nodup_iff.mpr (Nodup.sublist (hsub.map _) hids)
  rw [normalizeRanges_eq _ sorted table hs hids (fun r hr => hsub.subset (hperm.subset hr)) hnd]
  have hclose : closeListed D sorted table =
      table.map fun r => if sel r then close D (table.filter sel) r else r := by
    refine map_congr_left fun r hr => ?_
    have hmem : D.id r ∈ sorted.map D.id ↔ sel r = true := by
      rw [(hperm.map _).mem_iff, mem_map]
      constructor
      · rintro ⟨s, hs, e⟩
        obtain ⟨hs, hsel⟩ := mem_filter.mp hs
        rw [← inj_on_of_nodup_map hids hs hr e]
        exact hsel
      · intro h
        exact ⟨r, mem_filter.mpr ⟨hr, h⟩, rfl⟩
    simp only [hmem]
    congr 1
    exact close_congr (fun s => (hperm.map _).mem_iff) r
  simp only [(hperm.map D.start).nodup_iff, hclose]

end Loop

/-! ## 3. Contiguous histories -/

/-- Closing every rule of a list with distinct starts makes it contiguous. -/
theorem contiguous_map_close (h : (rules.map D.start).Nodup) :
    Contiguous D (rules.map (close D rules)) := by
  have hstart : (rules.map (close D rules)).map D.start = rules.map D.start := by
    rw [map_map]
    exact map_congr_left fun r _ => D.start_setStop r _
  refine ⟨by rw [hstart]; exact h, fun r hr => ?_⟩
  obtain ⟨s, hs, rfl⟩ := mem_map.mp hr
  have e : closedStop D (rules.map (close D rules)) (close D rules s) = closedStop D rules s := by
    rw [closedStop_congr (m := rules) (fun x => by rw [hstart])]
    exact closedStop_of_start rules (D.start_setStop s _)
  rw [e]
  exact D.stop_setStop s _

/-- In a contiguous history every rule is closed already. -/
theorem Contiguous.close_eq (h : Contiguous D rules) (hr : r ∈ rules) :
    close D rules r = r := by
  unfold close
  rw [← h.closed r hr, D.setStop_stop]

/-- A change that leaves the days alone. -/
theorem Contiguous.map {f : ρ → ρ} (h : Contiguous D rules)
    (hstart : ∀ r ∈ rules, D.start (f r) = D.start r) (hstop : ∀ r ∈ rules, D.stop (f r) = D.stop r) :
    Contiguous D (rules.map f) := by
  have e : (rules.map f).map D.start = rules.map D.start := by
    rw [map_map]
    exact map_congr_left hstart
  refine ⟨by rw [e]; exact h.distinct, fun r hr => ?_⟩
  obtain ⟨s, hs, rfl⟩ := mem_map.mp hr
  rw [hstop s hs, h.closed s hs, closedStop_of_start rules (hstart s hs).symm]
  exact closedStop_congr (fun x => by rw [e]) (f s)

variable {e : Int}

/-- In a contiguous history no rule ends before it starts. -/
theorem Contiguous.start_le_stop (h : Contiguous D rules) (hr : r ∈ rules) (he : D.stop r = some e) :
    D.start r ≤ e ∧ ∃ s ∈ rules, D.start s = e + 1 := by
  rw [h.closed r hr] at he
  obtain ⟨m, hm, rfl⟩ := Option.map_eq_some_iff.mp he
  obtain ⟨⟨s, hs, rfl, hlt⟩, -⟩ := nextStart_eq_some_iff.mp hm
  exact ⟨by omega, s, hs, by omega⟩

theorem Contiguous.perm (h : Contiguous D rules) (hp : l.Perm rules) :
    Contiguous D l where
  distinct := (hp.map D.start).nodup_iff.mpr h.distinct
  closed r hr := by
    rw [h.closed r (hp.mem_iff.mp hr)]
    exact closedStop_congr (fun s => ((hp.map D.start).mem_iff).symm) r

/-- The range of a rule holds a day. -/
def Covers (D : DatedRule ρ ι) (r : ρ) (d : Int) : Prop := D.start r ≤ d ∧ ∀ e ∈ D.stop r, d ≤ e

/-- The rule is the last one that starts at or before a day. -/
structure LatestAt (D : DatedRule ρ ι) (rules : List ρ) (d : Int) (r : ρ) : Prop where
  mem : r ∈ rules
  le : D.start r ≤ d
  latest : ∀ s ∈ rules, D.start s ≤ d → D.start s ≤ D.start r

/-- **Ranges and starts agree**: in a contiguous history a rule's range holds a day exactly when
    it is the last rule that starts at or before it. -/
theorem Contiguous.covers_iff (h : Contiguous D rules) (hr : r ∈ rules) (d : Int) :
    Covers D r d ↔ LatestAt D rules d r := by
  have hstop := h.closed r hr
  unfold closedStop at hstop
  constructor
  · rintro ⟨hle, hcov⟩
    refine ⟨hr, hle, fun s hs hsd => ?_⟩
    by_contra hlt
    cases e : nextStart D rules (D.start r) with
    | none => exact hlt (nextStart_eq_none_iff.mp e s hs)
    | some m =>
      rw [e] at hstop
      have hm := (nextStart_eq_some_iff.mp e).2 s hs (not_le.mp hlt)
      have hd := hcov (m - 1) hstop
      omega
  · intro hl
    refine ⟨hl.le, fun e he => ?_⟩
    rw [hstop] at he
    obtain ⟨m, hm, rfl⟩ := Option.map_eq_some_iff.mp he
    obtain ⟨⟨s, hs, rfl, hlt⟩, -⟩ := nextStart_eq_some_iff.mp hm
    by_contra hd
    have := hl.latest s hs (by omega)
    omega

/-- Two rules that are last at a day are the same. -/
theorem Contiguous.latest_unique (h : Contiguous D rules) {s : ρ} (hr : LatestAt D rules d r)
    (hs : LatestAt D rules d s) : r = s :=
  inj_on_of_nodup_map h.distinct hr.mem hs.mem
    (le_antisymm (hs.latest r hr.mem hr.le) (hr.latest s hs.mem hs.le))

theorem exists_latestAt (hr : r ∈ rules) (hd : D.start r ≤ d) :
    ∃ s, LatestAt D rules d s := by
  have hr' : r ∈ rules.filter fun s => D.start s ≤ d := mem_filter.mpr ⟨hr, decide_eq_true hd⟩
  cases e : (rules.filter fun s => D.start s ≤ d).argmax D.start with
  | none =>
    rw [argmax_eq_none.mp e] at hr'
    cases hr'
  | some s =>
    obtain ⟨hs, hsd⟩ := mem_filter.mp (argmax_mem e)
    refine ⟨s, hs, of_decide_eq_true hsd, fun t ht htd => ?_⟩
    exact le_of_mem_argmax (mem_filter.mpr ⟨ht, decide_eq_true htd⟩) e

variable {α : Type}

/-- The first of a sorted list stands before every other. -/
theorem head?_insertionSort_le (le : α → α → Prop) [DecidableRel le] [Std.Total le] [IsTrans α le]
    {l : List α} {a : α} (h : (l.insertionSort le).head? = some a) :
    a ∈ l ∧ ∀ b ∈ l, le a b := by
  have hsorted := pairwise_insertionSort le l
  have hmem : ∀ b, b ∈ l.insertionSort le ↔ b ∈ l := fun b => mem_insertionSort le
  cases e : l.insertionSort le with
  | nil =>
    rw [e] at h
    cases h
  | cons b rest =>
    rw [e] at h hsorted hmem
    cases h
    refine ⟨(hmem a).mp mem_cons_self, fun c hc => ?_⟩
    rcases mem_cons.mp ((hmem c).mpr hc) with rfl | hc
    · exact (Std.Total.total (r := le) c c).elim id id
    · exact rel_of_pairwise_cons hsorted hc

theorem head?_insertionSort_eq_none (le : α → α → Prop) [DecidableRel le] {l : List α}
    (h : (l.insertionSort le).head? = none) : l = [] := by
  have hp := perm_insertionSort le l
  rw [head?_eq_none_iff.mp h] at hp
  exact hp.symm.eq_nil

/-- The first of a sorted list, where nothing else ranks as it does. -/
theorem head?_insertionSort_eq_some_iff (le : α → α → Prop) [DecidableRel le] [Std.Total le] [IsTrans α le]
    {l : List α} (hanti : ∀ a ∈ l, ∀ b ∈ l, le a b → le b a → a = b) (a : α) :
    (l.insertionSort le).head? = some a ↔ a ∈ l ∧ ∀ b ∈ l, le a b := by
  refine ⟨head?_insertionSort_le le, fun ⟨ha, hle⟩ => ?_⟩
  cases e : (l.insertionSort le).head? with
  | none =>
    rw [head?_insertionSort_eq_none le e] at ha
    cases ha
  | some b =>
    obtain ⟨hb, hbl⟩ := head?_insertionSort_le le e
    rw [hanti a ha b hb (hle b hb) (hbl a ha)]

/-- The first element, when all are the same. -/
theorem head?_eq_some_iff_mem {l : List α} (h : ∀ a ∈ l, ∀ b ∈ l, a = b) (a : α) :
    l.head? = some a ↔ a ∈ l := by
  cases l with
  | nil => simp
  | cons b l =>
    rw [head?_cons, Option.some.injEq]
    constructor
    · rintro rfl
      exact mem_cons_self
    · exact h b mem_cons_self a

/-- **The search by ranges** finds the last rule that starts at or before a day, in whatever
    order the candidates are tried. -/
theorem Contiguous.search_eq_some_iff (h : Contiguous D rules) (le : ρ → ρ → Prop) [DecidableRel le]
    (d : Int) (r : ρ) :
    ((rules.filter fun r => D.start r ≤ d && (D.stop r).all (d ≤ ·)).insertionSort le).head? =
      some r ↔ LatestAt D rules d r := by
  have hmem : ∀ s, s ∈ (rules.filter fun r => D.start r ≤ d && (D.stop r).all (d ≤ ·)).insertionSort le ↔
      LatestAt D rules d s := by
    intro s
    rw [mem_insertionSort, mem_filter, Bool.and_eq_true, Option.all_eq_true]
    simp only [decide_eq_true_eq]
    constructor
    · rintro ⟨hs, hcov⟩
      exact (h.covers_iff hs d).mp hcov
    · intro hs
      exact ⟨hs.mem, (h.covers_iff hs.mem d).mpr hs⟩
  rw [head?_eq_some_iff_mem, hmem]
  intro a ha b hb
  exact h.latest_unique ((hmem a).mp ha) ((hmem b).mp hb)

/-- **The search by starts**: the first of the rules started by a day, latest start first. -/
theorem Contiguous.searchStarts_eq_some_iff (h : Contiguous D rules) (le : ρ → ρ → Prop)
    [DecidableRel le] [Std.Total le] [IsTrans ρ le] (hle : ∀ a b, le a b → D.start b ≤ D.start a)
    (d : Int) (r : ρ) :
    ((rules.filter fun r => D.start r ≤ d).insertionSort le).head? = some r ↔
      LatestAt D rules d r := by
  have hmem : ∀ s, s ∈ (rules.filter fun r => D.start r ≤ d).insertionSort le ↔
      s ∈ rules ∧ D.start s ≤ d := by
    intro s
    rw [mem_insertionSort, mem_filter, decide_eq_true_eq]
  have hsorted := pairwise_insertionSort le (rules.filter fun r => D.start r ≤ d)
  have hfirst : ∀ s, ((rules.filter fun r => D.start r ≤ d).insertionSort le).head? = some s →
      LatestAt D rules d s := by
    intro s hs
    cases e : (rules.filter fun r => D.start r ≤ d).insertionSort le with
    | nil =>
      rw [e] at hs
      cases hs
    | cons t rest =>
      rw [e] at hs hsorted hmem
      cases hs
      obtain ⟨hs, hsd⟩ := (hmem s).mp mem_cons_self
      refine ⟨hs, hsd, fun u hu hud => ?_⟩
      rcases mem_cons.mp ((hmem u).mpr ⟨hu, hud⟩) with rfl | hu
      · exact le_refl _
      · exact hle s u (rel_of_pairwise_cons hsorted hu)
  constructor
  · exact hfirst r
  · intro hr
    cases e : ((rules.filter fun r => D.start r ≤ d).insertionSort le).head? with
    | none =>
      have hr' := (hmem r).mpr ⟨hr.mem, hr.le⟩
      rw [head?_eq_none_iff.mp e] at hr'
      cases hr'
    | some s => rw [h.latest_unique (hfirst s e) hr]

/-- The history in the order of the starts: every end is the day before the next start, the last
    rule has none. -/
def Chained (D : DatedRule ρ ι) : List ρ → Prop
  | [] => True
  | [r] => D.stop r = none
  | r :: s :: rest =>
    D.start r < D.start s ∧ D.stop r = some (D.start s - 1) ∧ Chained D (s :: rest)

theorem chained_of_closed : ∀ {rules : List ρ},
    (rules.Pairwise fun a b => D.start a < D.start b) →
    (∀ r ∈ rules, D.stop r = closedStop D rules r) → Chained D rules
  | [], _, _ => trivial
  | [r], hs, hc => by
    show D.stop r = none
    rw [hc r mem_cons_self]
    unfold closedStop
    rw [nextStart_head hs]
    rfl
  | r :: s :: rest, hs, hc => by
    obtain ⟨hr, hs'⟩ := pairwise_cons.mp hs
    refine ⟨hr s mem_cons_self, ?_, chained_of_closed hs' fun t ht => ?_⟩
    · rw [hc r mem_cons_self]
      unfold closedStop
      rw [nextStart_head hs]
      rfl
    · rw [hc t (mem_cons_of_mem _ ht)]
      unfold closedStop
      rw [nextStart_cons_of_le (hr t ht).le]

/-- **A contiguous history, sorted by start, is chained.** -/
theorem Contiguous.chained (h : Contiguous D rules) (hp : l.Perm rules)
    (hs : l.Pairwise fun a b => D.start a ≤ D.start b) : Chained D l := by
  have hl := h.perm hp
  refine chained_of_closed ?_ hl.closed
  exact (hs.and (pairwise_map.mp hl.distinct)).imp fun h => lt_of_le_of_ne h.1 h.2

/-! ## 4. A write at one day -/

section Overlay

variable {ν : Type} {val : ρ → ν} {rules' : List ρ} {v : ν}

/-- The second history is the first with the value `v` placed at the day `d`. -/
structure Overlaid (D : DatedRule ρ ι) (val : ρ → ν) (rules rules' : List ρ) (d : Int) (v : ν) :
    Prop where
  placed : ∃ r ∈ rules', D.start r = d
  written : ∀ r ∈ rules', D.start r = d → val r = v
  kept : ∀ r ∈ rules, D.start r ≠ d → ∃ s ∈ rules', D.start s = D.start r ∧ val s = val r
  only : ∀ s ∈ rules', D.start s ≠ d → ∃ r ∈ rules, D.start s = D.start r

section

variable (h : Overlaid D val rules rules' d v)
include h

/-- Between the day and the next start the written rule is the last one. -/
theorem Overlaid.latest_inside (hd : d ≤ e)
    (hn : ∀ n ∈ nextStart D rules d, e < n) : ∃ r, LatestAt D rules' e r ∧ val r = v := by
  obtain ⟨r, hr, hstart⟩ := h.placed
  refine ⟨r, ⟨hr, by omega, fun s hs hse => ?_⟩, h.written r hr hstart⟩
  by_cases hsd : D.start s = d
  · omega
  · obtain ⟨t, ht, est⟩ := h.only s hs hsd
    by_contra hlt
    cases en : nextStart D rules d with
    | none =>
      have := nextStart_eq_none_iff.mp en t ht
      omega
    | some n =>
      have h1 := (nextStart_eq_some_iff.mp en).2 t ht (by omega)
      have h2 := hn n en
      omega

/-- On every other day the last rule is the one it was. -/
theorem Overlaid.latest_outside
    (hout : d ≤ e → ∃ n ∈ nextStart D rules d, n ≤ e) (hr : LatestAt D rules e r) :
    ∃ s, LatestAt D rules' e s ∧ val s = val r := by
  -- a start after `d` has been reached, so the last rule started after `d`
  have hafter : d ≤ e → d < D.start r := by
    intro hde
    obtain ⟨n, hn, hne⟩ := hout hde
    obtain ⟨⟨t, ht, rfl, hdt⟩, -⟩ := nextStart_eq_some_iff.mp hn
    exact lt_of_lt_of_le hdt (hr.latest t ht hne)
  have hrd : D.start r ≠ d := by
    intro e
    have := hr.le
    omega
  obtain ⟨s, hs, es, ev⟩ := h.kept r hr.mem hrd
  refine ⟨s, ⟨hs, by rw [es]; exact hr.le, fun t ht hte => ?_⟩, ev⟩
  rw [es]
  by_cases htd : D.start t = d
  · omega
  · obtain ⟨u, hu, eu⟩ := h.only t ht htd
    rw [eu]
    exact hr.latest u hu (by omega)

/-- **A write at one day changes what is found from that day to the day before the next start,
    and nothing else.** -/
theorem Overlaid.search_eq {search search' : Int → Option ρ}
    (hs : ∀ e r, search e = some r ↔ LatestAt D rules e r)
    (hs' : ∀ e r, search' e = some r ↔ LatestAt D rules' e r) (e : Int) :
    (search' e).map val =
      if d ≤ e ∧ ∀ n ∈ nextStart D rules d, e < n then some v else (search e).map val := by
  split
  · rename_i hin
    obtain ⟨r, hr, hv⟩ := h.latest_inside hin.1 hin.2
    rw [(hs' e r).mpr hr, Option.map_some, hv]
  · rename_i hin
    have hout : d ≤ e → ∃ n ∈ nextStart D rules d, n ≤ e := by
      intro hde
      by_contra hno
      exact hin ⟨hde, fun n hn => not_le.mp fun hle => hno ⟨n, hn, hle⟩⟩
    cases es : search e with
    | some r =>
      obtain ⟨s, hl, hv⟩ := h.latest_outside hout ((hs e r).mp es)
      rw [(hs' e s).mpr hl, Option.map_some, hv, Option.map_some]
    | none =>
      cases es' : search' e with
      | none => rfl
      | some s =>
        exfalso
        have hnone : ∀ r ∈ rules, e < D.start r := by
          intro r hr
          by_contra hle
          obtain ⟨t, ht⟩ := exists_latestAt hr (not_lt.mp hle)
          rw [(hs e t).mpr ht] at es
          cases es
        have hl := (hs' e s).mp es'
        have hle := hl.le
        by_cases hsd : D.start s = d
        · obtain ⟨n, hn, hne⟩ := hout (by omega)
          obtain ⟨⟨t, ht, rfl, -⟩, -⟩ := nextStart_eq_some_iff.mp hn
          have := hnone t ht
          omega
        · obtain ⟨t, ht, et⟩ := h.only s hl.mem hsd
          have := hnone t ht
          omega

end

end Overlay

/-- A history its readers can rely on: no two rules start together, in the order of the starts
    each one ends the day before the next, and the search finds the last rule started. -/
structure Reliable (D : DatedRule ρ ι) (rules : List ρ) (search : Int → Option ρ) : Prop where
  distinct : (rules.map D.start).Nodup
  chained : ∀ l : List ρ, l.Perm rules → (l.Pairwise fun a b => D.start a ≤ D.start b) → Chained D l
  found : ∀ d r, search d = some r ↔ LatestAt D rules d r
  nothing : ∀ d, search d = none ↔ ∀ r ∈ rules, d < D.start r

theorem Contiguous.reliable (h : Contiguous D rules) {search : Int → Option ρ}
    (hsearch : ∀ d r, search d = some r ↔ LatestAt D rules d r) : Reliable D rules search where
  distinct := h.distinct
  chained _ hp hs := h.chained hp hs
  found := hsearch
  nothing d := by
    constructor
    · intro hn r hr
      by_contra hd
      obtain ⟨s, hs⟩ := exists_latestAt hr (not_lt.mp hd)
      rw [(hsearch d s).mpr hs] at hn
      cases hn
    · intro hall
      cases e : search d with
      | none => rfl
      | some r =>
        have hr := (hsearch d r).mp e
        exact absurd hr.le (not_le.mpr (hall r hr.mem))

end AdsManagement.Lib
