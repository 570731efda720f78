/-
  File:      Web/PreviewedHistory.lean
  Subject:   WHAT THE PREVIEW OF A RULE HISTORY COMPUTES: the texts the browser compares stand in
             the order of the days, so its searches find what the searches of the service find.

  A browser rule shows a rule of the service when it carries its id and the texts of its days. A
  list of such pairs is read on one side by the browser and on the other by the service.

  * `ruleForDate_eq_some_iff`, `latestByPriority_eq_some_iff` -- the searches;
  * `closeRanges_shown` -- the ranges the browser computes are those of the service;
  * `previewed` -- the preview of a contiguous history.
-/
import AdsManagement.Common.Patterns
import AdsManagement.Web.RulePreview
import AdsManagement.Meta.ProductRuleWrites

namespace AdsManagement.Web

open Common Lib Meta List

variable {ν κ : Type}

/-! ## 1. Dates as texts -/

variable {d : Int}

/-- The first ten characters of a text that starts with a date. -/
theorem dateKey_format_append (h : ReadsBack d) (rest : String) :
    dateKey (some (formatDateOnly d ++ rest)) = formatDateOnly d := by
  unfold dateKey
  simp only
  rw [String.toList_append, take_left' (length_formatDateOnly h), String.ofList_toList]

theorem dateKey_format (h : ReadsBack d) :
    dateKey (some (formatDateOnly d)) = formatDateOnly d := by
  have e := dateKey_format_append h ""
  rwa [String.append_empty] at e

theorem dateKey_json (h : ReadsBack d) : dateKey (some (dateJson d)) = formatDateOnly d :=
  dateKey_format_append h _

theorem validDateKey_of_dateKey {value : Option String} (h : ReadsBack d)
    (hv : dateKey value = formatDateOnly d) : validDateKey value = some (formatDateOnly d) := by
  unfold validDateKey
  rw [hv, if_pos (isIsoShape_formatDateOnly h)]

theorem validDateKey_none : validDateKey none = none := by decide

theorem isoDay_format (h : ReadsBack d) : isoDay (formatDateOnly d) = some d := by
  obtain ⟨y, m, n, hc, hy, hm, hn, ef⟩ := formatDateOnly_eq h
  obtain ⟨hmonth, hday⟩ := bounds_of_civilFromDays hc
  have hdays := daysFromCivil_civilFromDays d
  rw [hc] at hdays
  have h4 : number4 (isoChars y m n) = some (y, '-' :: (pad2 m ++ '-' :: pad2 n)) := number4_pad4 hy _
  unfold isoDay
  rw [ef, String.toList_ofList, h4]
  simp only [Option.bind_eq_bind, Option.bind_some, skipChar, if_true, number2_pad2 hm, number2_pad2_nil hn]
  rw [if_pos ⟨trivial, by omega, by omega, by omega, by omega⟩, hdays]

theorem previousDateInput_format (h : ReadsBack d) :
    previousDateInput (formatDateOnly d) = some (formatDateOnly (d - 1)) := by
  unfold previousDateInput
  rw [isoDay_format h]
  rfl

theorem formatDateOnly_le_iff {e : Int} (hd : ReadsBack d) (he : ReadsBack e) :
    formatDateOnly d ≤ formatDateOnly e ↔ d ≤ e := by
  rw [← not_lt, ← not_lt, formatDateOnly_lt_iff he hd]

/-! ## 2. Rules on both sides -/

/-- A browser rule with the id and the start of a rule. -/
structure StartsAs (m : MetaProductRule κ) (r : ProductRule ν) : Prop where
  id : m.id = r.id
  reads : ReadsBack r.effectiveFrom
  start : dateKey (some m.effectiveFrom) = formatDateOnly r.effectiveFrom

/-- A browser rule with the id and the range of a rule. -/
structure Shows (m : MetaProductRule κ) (r : ProductRule ν) : Prop extends StartsAs m r where
  readsStop : ∀ e ∈ r.effectiveTo, ReadsBack e
  stop : validDateKey m.effectiveTo = r.effectiveTo.map formatDateOnly

variable {r : ProductRule ν} {m : MetaProductRule κ}

theorem StartsAs.lt_iff (h : StartsAs m r) (hd : ReadsBack d) :
    formatDateOnly d < dateKey (some m.effectiveFrom) ↔ d < r.effectiveFrom := by
  rw [h.start, formatDateOnly_lt_iff hd h.reads]

theorem StartsAs.le_iff (h : StartsAs m r) (hd : ReadsBack d) :
    dateKey (some m.effectiveFrom) ≤ formatDateOnly d ↔ r.effectiveFrom ≤ d := by
  rw [h.start, formatDateOnly_le_iff h.reads hd]

theorem StartsAs.eq_iff (h : StartsAs m r) (hd : ReadsBack d) :
    dateKey (some m.effectiveFrom) = formatDateOnly d ↔ r.effectiveFrom = d := by
  rw [h.start]
  exact ⟨formatDateOnly_inj h.reads hd, fun e => by rw [e]⟩

variable {t : Int}

theorem Shows.isInForce_iff (h : Shows m r) (ht : ReadsBack t) :
    isInForce (formatDateOnly t) m = true ↔ Covers ruleDated r t := by
  have hstart := validDateKey_of_dateKey h.reads h.start
  unfold isInForce
  rw [hstart, h.stop, Option.any_some, Bool.and_eq_true, decide_eq_true_eq,
    formatDateOnly_le_iff h.reads ht, Option.all_eq_true]
  refine and_congr_right fun _ => ?_
  constructor
  · intro hall e he
    have := hall _ (by rw [show r.effectiveTo = some e from he]; rfl)
    exact (formatDateOnly_le_iff ht (h.readsStop e he)).mp (of_decide_eq_true this)
  · intro hall text htext
    obtain ⟨e, he, rfl⟩ := Option.map_eq_some_iff.mp htext
    exact decide_eq_true ((formatDateOnly_le_iff ht (h.readsStop e he)).mpr (hall e he))

instance : Std.Total (@compareMetaProductRulePriority κ) := ⟨fun _ _ => le_total _ _⟩

instance : IsTrans (MetaProductRule κ) compareMetaProductRulePriority :=
  ⟨fun _ _ _ h1 h2 => le_trans h2 h1⟩

instance : Std.Total (@compareMetaProductRuleChronology κ) := ⟨fun _ _ => le_total _ _⟩

instance : IsTrans (MetaProductRule κ) compareMetaProductRuleChronology := ⟨fun _ _ _ => le_trans⟩

theorem dateKey_le_of_rank {a b : MetaProductRule κ} (h : metaRuleRank a ≤ metaRuleRank b) :
    dateKey (some a.effectiveFrom) ≤ dateKey (some b.effectiveFrom) := by
  rcases (Prod.Lex.le_iff).mp h with h | h
  · exact h.le
  · exact h.1.le

/-! ## 3. The searches -/

section Searches

variable {P : List (MetaProductRule κ × ProductRule ν)}

/-- With distinct starts a rule of the service is shown by one browser rule. -/
theorem shown_inj (hnd : ((P.map Prod.snd).map ruleDated.start).Nodup)
    {p q : MetaProductRule κ × ProductRule ν} (hp : p ∈ P) (hq : q ∈ P)
    (h : p.2.effectiveFrom = q.2.effectiveFrom) : p = q := by
  rw [map_map] at hnd
  exact inj_on_of_nodup_map hnd hp hq h

/-- **The rule in force**, by ranges. -/
theorem ruleForDate_eq_some_iff (hP : ∀ p ∈ P, Shows p.1 p.2)
    (hc : Contiguous ruleDated (P.map Prod.snd)) (hd : ReadsBack d) :
    ruleForDate (P.map Prod.fst) (formatDateOnly d) = some m ↔
      ∃ r, (m, r) ∈ P ∧ LatestAt ruleDated (P.map Prod.snd) d r := by
  have hmem : ∀ n, n ∈ ((P.map Prod.fst).filter (isInForce (formatDateOnly d))).insertionSort
      compareMetaProductRulePriority ↔ ∃ r, (n, r) ∈ P ∧ LatestAt ruleDated (P.map Prod.snd) d r := by
    intro n
    rw [mem_insertionSort, mem_filter]
    constructor
    · rintro ⟨hn, hforce⟩
      obtain ⟨⟨n, r⟩, hp, rfl⟩ := mem_map.mp hn
      refine ⟨r, hp, (hc.covers_iff (mem_map_of_mem hp) d).mp ?_⟩
      exact ((hP _ hp).isInForce_iff hd).mp hforce
    · rintro ⟨r, hp, hl⟩
      refine ⟨mem_map_of_mem hp, ((hP _ hp).isInForce_iff hd).mpr ?_⟩
      exact (hc.covers_iff (mem_map_of_mem hp) d).mpr hl
  unfold ruleForDate firstByPriority
  rw [head?_eq_some_iff_mem, hmem]
  intro a ha b hb
  obtain ⟨r, hr, hrl⟩ := (hmem a).mp ha
  obtain ⟨s, hs, hsl⟩ := (hmem b).mp hb
  have e : r = s := hc.latest_unique hrl hsl
  have := shown_inj hc.distinct hr hs (by rw [e])
  exact congrArg Prod.fst this

section

variable (hP : ∀ p ∈ P, StartsAs p.1 p.2) (hnd : ((P.map Prod.snd).map ruleDated.start).Nodup)
  (hd : ReadsBack d)
include hP hnd hd

/-- **The last rule started**, by starts alone. -/
theorem latestByPriority_eq_some_iff : firstByPriority ((P.map Prod.fst).filter fun rule =>
        dateKey (some rule.effectiveFrom) ≤ formatDateOnly d) = some m ↔
      ∃ r, (m, r) ∈ P ∧ LatestAt ruleDated (P.map Prod.snd) d r := by
  have hfirst : ∀ n, firstByPriority ((P.map Prod.fst).filter fun rule =>
      dateKey (some rule.effectiveFrom) ≤ formatDateOnly d) = some n →
        ∃ r, (n, r) ∈ P ∧ LatestAt ruleDated (P.map Prod.snd) d r := by
    intro n hn
    obtain ⟨hmem, hle⟩ := head?_insertionSort_le compareMetaProductRulePriority hn
    obtain ⟨hmem, hkey⟩ := mem_filter.mp hmem
    obtain ⟨⟨n, r⟩, hp, rfl⟩ := mem_map.mp hmem
    refine ⟨r, hp, mem_map_of_mem hp,
      ((hP _ hp).le_iff hd).mp (of_decide_eq_true hkey), fun s hs hsd => ?_⟩
    obtain ⟨⟨n', s⟩, hq, rfl⟩ := mem_map.mp hs
    have hfil : n' ∈ (P.map Prod.fst).filter fun rule =>
        decide (dateKey (some rule.effectiveFrom) ≤ formatDateOnly d) :=
      mem_filter.mpr ⟨mem_map_of_mem hq, decide_eq_true (((hP _ hq).le_iff hd).mpr hsd)⟩
    have hkeys := dateKey_le_of_rank (hle n' hfil)
    rw [(hP _ hq).start] at hkeys
    exact ((hP _ hp).start ▸ (formatDateOnly_le_iff (hP _ hq).reads (hP _ hp).reads)).mp hkeys
  constructor
  · exact hfirst m
  · rintro ⟨r, hp, hl⟩
    cases e : firstByPriority ((P.map Prod.fst).filter fun rule =>
        dateKey (some rule.effectiveFrom) ≤ formatDateOnly d) with
    | none =>
      have hnil := head?_insertionSort_eq_none _ e
      rw [filter_eq_nil_iff] at hnil
      exact absurd (decide_eq_true (((hP _ hp).le_iff hd).mpr hl.le)) (hnil m (mem_map_of_mem hp))
    | some n =>
      obtain ⟨s, hq, hsl⟩ := hfirst n e
      have hrs : r.effectiveFrom = s.effectiveFrom :=
        le_antisymm (hsl.latest r hl.mem hl.le) (hl.latest s hsl.mem hsl.le)
      have hpair := congrArg Prod.fst (shown_inj hnd hp hq hrs)
      rw [show n = m from hpair.symm]

/-- The rule of a day. -/
theorem sameDate_eq_some_iff : firstByPriority ((P.map Prod.fst).filter fun rule =>
        dateKey (some rule.effectiveFrom) = formatDateOnly d) = some m ↔
      ∃ r, (m, r) ∈ P ∧ r.effectiveFrom = d := by
  have hmem : ∀ n, n ∈ ((P.map Prod.fst).filter fun rule =>
      dateKey (some rule.effectiveFrom) = formatDateOnly d).insertionSort
        compareMetaProductRulePriority ↔ ∃ r, (n, r) ∈ P ∧ r.effectiveFrom = d := by
    intro n
    rw [mem_insertionSort, mem_filter, decide_eq_true_eq]
    constructor
    · rintro ⟨hn, hkey⟩
      obtain ⟨⟨n, r⟩, hp, rfl⟩ := mem_map.mp hn
      exact ⟨r, hp, ((hP _ hp).eq_iff hd).mp hkey⟩
    · rintro ⟨r, hp, hr⟩
      exact ⟨mem_map_of_mem hp, ((hP _ hp).eq_iff hd).mpr hr⟩
  unfold firstByPriority
  rw [head?_eq_some_iff_mem, hmem]
  intro a ha b hb
  obtain ⟨r, hr, hrd⟩ := (hmem a).mp ha
  obtain ⟨s, hs, hsd⟩ := (hmem b).mp hb
  exact congrArg Prod.fst (shown_inj hnd hr hs (hrd.trans hsd.symm))

end

/-- **The end a rule from a day gets**: the day before the next start. -/
theorem endBefore_next (hP : ∀ p ∈ P, StartsAs p.1 p.2) (hd : ReadsBack d) :
    endBefore (firstByChronology ((P.map Prod.fst).filter fun rule =>
        formatDateOnly d < dateKey (some rule.effectiveFrom))) =
      some ((nextStart ruleDated (P.map Prod.snd) d).map fun n => formatDateOnly (n - 1)) := by
  cases e : firstByChronology ((P.map Prod.fst).filter fun rule =>
      formatDateOnly d < dateKey (some rule.effectiveFrom)) with
  | none =>
    have hnil := head?_insertionSort_eq_none _ e
    rw [filter_eq_nil_iff] at hnil
    have hnone : nextStart ruleDated (P.map Prod.snd) d = none := by
      refine nextStart_eq_none_iff.mpr fun r hr => ?_
      obtain ⟨⟨m, r⟩, hp, rfl⟩ := mem_map.mp hr
      by_contra hlt
      exact hnil m (mem_map_of_mem hp) (decide_eq_true (((hP _ hp).lt_iff hd).mpr (not_le.mp hlt)))
    rw [hnone]
    rfl
  | some m =>
    obtain ⟨hmem, hle⟩ := head?_insertionSort_le compareMetaProductRuleChronology e
    obtain ⟨hmem, hkey⟩ := mem_filter.mp hmem
    obtain ⟨⟨m, r⟩, hp, rfl⟩ := mem_map.mp hmem
    have hnext : nextStart ruleDated (P.map Prod.snd) d = some r.effectiveFrom := by
      refine nextStart_eq_some_iff.mpr ⟨⟨r, mem_map_of_mem hp, rfl,
        ((hP _ hp).lt_iff hd).mp (of_decide_eq_true hkey)⟩, fun s hs hds => ?_⟩
      obtain ⟨⟨n, s⟩, hq, rfl⟩ := mem_map.mp hs
      have hfil : n ∈ (P.map Prod.fst).filter fun rule =>
          decide (formatDateOnly d < dateKey (some rule.effectiveFrom)) :=
        mem_filter.mpr ⟨mem_map_of_mem hq, decide_eq_true (((hP _ hq).lt_iff hd).mpr hds)⟩
      have hkeys := dateKey_le_of_rank (hle n hfil)
      rw [(hP _ hp).start, (hP _ hq).start] at hkeys
      exact (formatDateOnly_le_iff (hP _ hp).reads (hP _ hq).reads).mp hkeys
    unfold endBefore
    simp only
    rw [(hP _ hp).start, previousDateInput_format (hP _ hp).reads, hnext]
    rfl

end Searches

/-! ## 4. The ranges the browser computes -/

/-- A pair whose rules end where the next rule of a list starts. -/
def closedPair (rules : List (ProductRule ν)) (p : MetaProductRule κ × ProductRule ν) :
    MetaProductRule κ × ProductRule ν :=
  ({ p.1 with effectiveTo := (closedStop ruleDated rules p.2).map formatDateOnly },
    close ruleDated rules p.2)

variable {rules : List (ProductRule ν)}

theorem readsBack_closedStop (hr : ∀ r ∈ rules, ReadsBack r.effectiveFrom) (hmem : r ∈ rules) {e : Int}
    (he : e ∈ closedStop ruleDated rules r) :
    ReadsBack e := by
  obtain ⟨n, hn, rfl⟩ := Option.map_eq_some_iff.mp he
  obtain ⟨⟨s, hs, rfl, hlt⟩, -⟩ := nextStart_eq_some_iff.mp hn
  have hlt : r.effectiveFrom < s.effectiveFrom := hlt
  show ReadsBack (s.effectiveFrom - 1)
  exact (hr r hmem).between (hr s hs) (by omega) (by omega)

variable {P : List (MetaProductRule κ × ProductRule ν)}

theorem shows_closedPair (hP : ∀ p ∈ P, StartsAs p.1 p.2) {p : MetaProductRule κ × ProductRule ν}
    (hp : p ∈ P) :
    Shows (closedPair (P.map Prod.snd) p).1 (closedPair (P.map Prod.snd) p).2 := by
  have hreads : ∀ e ∈ closedStop ruleDated (P.map Prod.snd) p.2, ReadsBack e := by
    refine fun e he => readsBack_closedStop (fun r hr => ?_) (mem_map_of_mem hp) he
    obtain ⟨q, hq, rfl⟩ := mem_map.mp hr
    exact (hP q hq).reads
  have hstarts := hP p hp
  refine ⟨⟨hstarts.id, hstarts.reads, hstarts.start⟩, hreads, ?_⟩
  show validDateKey ((closedStop ruleDated (P.map Prod.snd) p.2).map formatDateOnly) =
    (closedStop ruleDated (P.map Prod.snd) p.2).map formatDateOnly
  cases e : closedStop ruleDated (P.map Prod.snd) p.2 with
  | none => exact validDateKey_none
  | some n =>
    have hn := hreads n e
    exact validDateKey_of_dateKey hn (dateKey_format hn)

/-- **The ranges of the browser are the ranges of the service**, rule by rule. -/
theorem closeRanges_shown {S : List (MetaProductRule κ × ProductRule ν)}
    (hS : ∀ p ∈ S, StartsAs p.1 p.2)
    (hlt : (S.map Prod.snd).Pairwise fun a b => a.effectiveFrom < b.effectiveFrom) :
    closeRanges (S.map Prod.fst) = some ((S.map (closedPair (S.map Prod.snd))).map Prod.fst) := by
  induction S with
  | nil => rfl
  | cons p rest ih =>
    obtain ⟨hp, hrest⟩ := pairwise_cons.mp hlt
    have hstop : closedStop ruleDated ((p :: rest).map Prod.snd) p.2 =
        (rest.head?.map fun q => q.2.effectiveFrom).map (· - 1) := by
      unfold closedStop
      rw [map_cons, nextStart_head hlt, head?_map, Option.map_map]
      rw [Option.map_map, Option.map_map]
      rfl
    -- a rule that comes later has the same next start with and without the first one
    have htail : ∀ q ∈ rest, closedPair ((p :: rest).map Prod.snd) q =
        closedPair (rest.map Prod.snd) q := by
      intro q hq
      have e : closedStop ruleDated ((p :: rest).map Prod.snd) q.2 =
          closedStop ruleDated (rest.map Prod.snd) q.2 := by
        unfold closedStop
        rw [map_cons, nextStart_cons_of_le]
        exact (hp q.2 (mem_map_of_mem hq)).le
      unfold closedPair close
      rw [e]
    have hend : endBefore (rest.map Prod.fst).head? =
          some ((closedStop ruleDated ((p :: rest).map Prod.snd) p.2).map formatDateOnly) := by
      rw [hstop]
      cases rest with
      | nil => rfl
      | cons q rest =>
        have hq := hS q (mem_cons_of_mem _ mem_cons_self)
        unfold endBefore
        simp only [map_cons, head?_cons]
        rw [hq.start, previousDateInput_format hq.reads]
        rfl
    rw [map_cons]
    unfold closeRanges
    rw [hend, ih (fun q hq => hS q (mem_cons_of_mem _ hq)) hrest]
    show some (_ :: _) = some (_ :: _)
    rw [map_map, map_map]
    congr 2
    exact map_congr_left fun q hq => congrArg Prod.fst (htail q hq).symm

/-- **Normalized candidates**: a contiguous history with the rows there were. -/
theorem normalize_shown {Q : List (MetaProductRule κ × ProductRule ν)}
    (hQ : ∀ p ∈ Q, StartsAs p.1 p.2) (hnd : ((Q.map Prod.snd).map ruleDated.start).Nodup) :
    ∃ P : List (MetaProductRule κ × ProductRule ν),
      normalizeMetaProductRuleRanges (Q.map Prod.fst) = some (P.map Prod.fst) ∧
      (∀ p ∈ P, Shows p.1 p.2) ∧ Contiguous ruleDated (P.map Prod.snd) ∧
      ∀ i s, HasRow (P.map Prod.snd) i s ↔ HasRow (Q.map Prod.snd) i s := by
  let le : MetaProductRule κ × ProductRule ν → MetaProductRule κ × ProductRule ν → Prop :=
    fun a b => compareMetaProductRuleChronology a.1 b.1
  let S := Q.insertionSort le
  have hperm : S.Perm Q := perm_insertionSort le Q
  have hS : ∀ p ∈ S, StartsAs p.1 p.2 := fun p hp => hQ p (hperm.mem_iff.mp hp)
  have hsort : (Q.map Prod.fst).insertionSort compareMetaProductRuleChronology = S.map Prod.fst :=
    (map_insertionSort le compareMetaProductRuleChronology Prod.fst Q fun _ _ _ _ => Iff.rfl).symm
  have hndS : ((S.map Prod.snd).map ruleDated.start).Nodup :=
    (((hperm.map Prod.snd).map ruleDated.start).nodup_iff).mpr hnd
  have hlt : (S.map Prod.snd).Pairwise fun a b => a.effectiveFrom < b.effectiveFrom := by
    have hle : (S.map Prod.snd).Pairwise fun a b => a.effectiveFrom ≤ b.effectiveFrom := by
      rw [pairwise_map]
      refine (pairwise_insertionSort le Q).imp_of_mem fun {a b} ha hb h => ?_
      have hkeys := dateKey_le_of_rank h
      rw [(hS a ha).start, (hS b hb).start] at hkeys
      exact (formatDateOnly_le_iff (hS a ha).reads (hS b hb).reads).mp hkeys
    exact (hle.and (pairwise_map.mp hndS)).imp fun h => lt_of_le_of_ne h.1 h.2
  have hsnd : (S.map (closedPair (S.map Prod.snd))).map Prod.snd =
      (S.map Prod.snd).map (close ruleDated (S.map Prod.snd)) := by
    rw [map_map, map_map]
    rfl
  refine ⟨S.map (closedPair (S.map Prod.snd)), ?_, fun p hp => ?_, ?_, fun i s => ?_⟩
  · unfold normalizeMetaProductRuleRanges
    rw [hsort, closeRanges_shown hS hlt]
  · obtain ⟨q, hq, rfl⟩ := mem_map.mp hp
    exact shows_closedPair hS hq
  · rw [hsnd]
    exact contiguous_map_close hndS
  · rw [hsnd]
    constructor
    · rintro ⟨r, hr, hi, hs⟩
      obtain ⟨q, hq, rfl⟩ := mem_map.mp hr
      exact ⟨q, (hperm.map Prod.snd).mem_iff.mp hq, hi, hs⟩
    · rintro ⟨r, hr, hi, hs⟩
      exact ⟨_, mem_map_of_mem ((hperm.map Prod.snd).mem_iff.mpr hr), hi, hs⟩

/-! ## 5. Two histories with corresponding rows -/

/-- **The rule in force is found by the rows alone**, whatever the ids are called. -/
theorem inForce_renamed {ν' : Type} {rules' : List (ProductRule ν')} (h : Contiguous ruleDated rules)
    (h' : Contiguous ruleDated rules') (f : String → String)
    (hrows : ∀ i s, HasRow rules i s ↔ ∃ j, f j = i ∧ HasRow rules' j s) (t : Int) :
    (findEffectiveRuleForDate rules t).map (·.id) =
      (findEffectiveRuleForDate rules' t).map fun r => f r.id := by
  have hback : ∀ r ∈ rules, ∃ r' ∈ rules', f r'.id = r.id ∧ r'.effectiveFrom = r.effectiveFrom := by
    intro r hr
    obtain ⟨j, hj, r', hr', rfl, hs⟩ := (hrows _ _).mp ⟨r, hr, rfl, rfl⟩
    exact ⟨r', hr', hj, hs⟩
  cases e : findEffectiveRuleForDate rules' t with
  | none =>
    cases e' : findEffectiveRuleForDate rules t with
    | none => rfl
    | some r =>
      have hl := (findEffectiveRuleForDate_eq_some_iff h t r).mp e'
      obtain ⟨r', hr', -, hs⟩ := hback r hl.mem
      have hle : ruleDated.start r' ≤ t := by
        show r'.effectiveFrom ≤ t
        rw [hs]
        exact hl.le
      obtain ⟨s, hsl⟩ := exists_latestAt hr' hle
      rw [(findEffectiveRuleForDate_eq_some_iff h' t s).mpr hsl] at e
      cases e
  | some r' =>
    have hl := (findEffectiveRuleForDate_eq_some_iff h' t r').mp e
    obtain ⟨r, hr, hi, hs⟩ := (hrows _ _).mpr ⟨r'.id, rfl, r', hl.mem, rfl, rfl⟩
    have hlr : LatestAt ruleDated rules t r := by
      refine ⟨hr, ?_, fun s hs' hst => ?_⟩
      · show r.effectiveFrom ≤ t
        rw [hs]
        exact hl.le
      · obtain ⟨s', hs'', -, es⟩ := hback s hs'
        have := hl.latest s' hs'' (by rw [show ruleDated.start s' = s.effectiveFrom from es]; exact hst)
        show s.effectiveFrom ≤ r.effectiveFrom
        rw [hs, ← es]
        exact this
    rw [(findEffectiveRuleForDate_eq_some_iff h t r).mpr hlr, Option.map_some, hi, Option.map_some]

/-- The rule in force, read by the browser. -/
theorem ruleForDate_id (hP : ∀ p ∈ P, Shows p.1 p.2) (hc : Contiguous ruleDated (P.map Prod.snd))
    (ht : ReadsBack t) :
    (ruleForDate (P.map Prod.fst) (formatDateOnly t)).map (·.id) =
      (findEffectiveRuleForDate (P.map Prod.snd) t).map (·.id) := by
  cases e : findEffectiveRuleForDate (P.map Prod.snd) t with
  | none =>
    cases e' : ruleForDate (P.map Prod.fst) (formatDateOnly t) with
    | none => rfl
    | some m =>
      obtain ⟨r, -, hl⟩ := (ruleForDate_eq_some_iff hP hc ht).mp e'
      rw [(findEffectiveRuleForDate_eq_some_iff hc t r).mpr hl] at e
      cases e
  | some r =>
    have hl := (findEffectiveRuleForDate_eq_some_iff hc t r).mp e
    obtain ⟨⟨m, r⟩, hp, rfl⟩ := mem_map.mp hl.mem
    rw [(ruleForDate_eq_some_iff hP hc ht).mpr ⟨r, hp, hl⟩]
    exact congrArg some (hP _ hp).id

/-! ## 6. The preview -/

/-- A contiguous history as the API lists it: the ids are uuids. -/
structure ListedHistory (H : List (ProductRule ν)) : Prop where
  ids : (H.map (·.id)).Nodup
  uuids : ∀ r ∈ H, isUuid ['4'] r.id = true
  dates : ∀ r ∈ H, ReadsBack r.effectiveFrom
  contiguous : Contiguous ruleDated H

/-- The history without the rule under correction. -/
def others (H : List (ProductRule ν)) (corrected : Option (ProductRule ν)) : List (ProductRule ν) :=
  match corrected with
  | some c => H.filter fun r => r.id ≠ c.id
  | none => H

variable {corrected : Option (ProductRule ν)} {H : List (ProductRule ν)}

theorem mem_of_mem_others (h : r ∈ others H corrected) : r ∈ H := by
  cases corrected with
  | none => exact h
  | some c => exact (mem_filter.mp h).1

theorem distinct_others (h : ListedHistory H) (corrected : Option (ProductRule ν)) :
    ((others H corrected).map ruleDated.start).Nodup := by
  cases corrected with
  | none => exact h.contiguous.distinct
  | some c => exact h.contiguous.distinct.sublist (filter_sublist.map _)

/-- Every rule with the browser rule the API sends for it. -/
def jsonPairs (texts : ν → κ) (H : List (ProductRule ν)) : List (MetaProductRule κ × ProductRule ν) :=
  H.map fun r => (ruleJson texts r, r)

variable {texts : ν → κ}

theorem fst_jsonPairs (H : List (ProductRule ν)) : (jsonPairs texts H).map Prod.fst = H.map (ruleJson texts) := by
  unfold jsonPairs
  rw [map_map]
  rfl

theorem snd_jsonPairs (H : List (ProductRule ν)) : (jsonPairs texts H).map Prod.snd = H := by
  unfold jsonPairs
  rw [map_map]
  exact map_id' H

theorem mem_jsonPairs : (m, r) ∈ jsonPairs texts H ↔ r ∈ H ∧ m = ruleJson texts r := by
  unfold jsonPairs
  rw [mem_map]
  constructor
  · rintro ⟨s, hs, e⟩
    cases e
    exact ⟨hs, rfl⟩
  · rintro ⟨hr, rfl⟩
    exact ⟨r, hr, rfl⟩

theorem startsAs_json {r : ProductRule ν} (h : ReadsBack r.effectiveFrom) :
    StartsAs (ruleJson texts r) r := ⟨rfl, h, dateKey_json h⟩

theorem startsAs_jsonPairs (hd : ∀ r ∈ H, ReadsBack r.effectiveFrom) :
    ∀ p ∈ jsonPairs texts H, StartsAs p.1 p.2 := by
  rintro ⟨m, r⟩ hp
  obtain ⟨hr, rfl⟩ := mem_jsonPairs.mp hp
  exact startsAs_json (hd r hr)

theorem shows_jsonPairs (h : ListedHistory H) : ∀ p ∈ jsonPairs texts H, Shows p.1 p.2 := by
  rintro ⟨m, r⟩ hp
  obtain ⟨hr, rfl⟩ := mem_jsonPairs.mp hp
  have hstops : ∀ e ∈ r.effectiveTo, ReadsBack e := fun e he =>
    readsBack_closedStop h.dates hr (by rw [← h.contiguous.closed r hr]; exact he)
  refine ⟨startsAs_json (h.dates r hr), hstops, ?_⟩
  show validDateKey (r.effectiveTo.map dateJson) = r.effectiveTo.map formatDateOnly
  cases e : r.effectiveTo with
  | none => exact validDateKey_none
  | some n => exact validDateKey_of_dateKey (hstops n e) (dateKey_json (hstops n e))

/-- The rule in force, as the browser has it. -/
theorem ruleForDate_json (h : ListedHistory H) (ht : ReadsBack t) :
    ruleForDate (H.map (ruleJson texts)) (formatDateOnly t) =
      (findEffectiveRuleForDate H t).map (ruleJson texts) := by
  have hP : ∀ p ∈ jsonPairs texts H, Shows p.1 p.2 := shows_jsonPairs h
  have hiff := fun m => ruleForDate_eq_some_iff (m := m) hP
    (by rw [snd_jsonPairs]; exact h.contiguous) ht
  rw [fst_jsonPairs, snd_jsonPairs] at hiff
  refine Option.ext fun m => ?_
  rw [hiff m, Option.map_eq_some_iff]
  simp only [findEffectiveRuleForDate_eq_some_iff h.contiguous]
  constructor
  · rintro ⟨r, hp, hl⟩
    exact ⟨r, hl, (mem_jsonPairs.mp hp).2.symm⟩
  · rintro ⟨r, hl, rfl⟩
    exact ⟨r, mem_jsonPairs.mpr ⟨hl.mem, rfl⟩, hl⟩

/-- Every listed rule carries a date. -/
theorem dated_json (hd : ∀ r ∈ H, ReadsBack r.effectiveFrom) :
    (H.map (ruleJson texts)).filter (fun rule => (validDateKey (some rule.effectiveFrom)).isSome) =
      H.map (ruleJson texts) := by
  refine filter_eq_self.mpr fun m hm => ?_
  obtain ⟨r, hr, rfl⟩ := mem_map.mp hm
  rw [validDateKey_of_dateKey (hd r hr) (@startsAs_json _ _ texts r (hd r hr)).start]
  rfl

theorem previewRuleId_ne {i : String} (h : isUuid ['4'] i = true) : i ≠ previewRuleId := by
  rintro rfl
  exact absurd h (by decide)

theorem selectRule_json (h : ListedHistory H) (hc : ∀ c ∈ corrected, c ∈ H) :
    selectRule (H.map (ruleJson texts)) (corrected.map (·.id)) = corrected.map (ruleJson texts) := by
  cases corrected with
  | none => rfl
  | some c =>
    have hmem := hc c rfl
    have htruthy : isTruthy (some c.id) = true := by
      unfold isTruthy
      rw [Option.getD_some, bne_iff_ne]
      intro e
      have := h.uuids c hmem
      rw [e] at this
      exact absurd this (by decide)
    unfold selectRule
    rw [Option.map_some, if_pos htruthy, find?_map]
    have hfind : H.find? ((fun rule : MetaProductRule κ => decide (some rule.id = some c.id)) ∘
        ruleJson texts) = some c := by
      cases e : H.find? ((fun rule : MetaProductRule κ => decide (some rule.id = some c.id)) ∘
          ruleJson texts) with
      | none =>
        have := find?_eq_none.mp e c hmem
        exact absurd (decide_eq_true rfl) this
      | some r =>
        have hr := mem_of_find?_eq_some e
        have hid : r.id = c.id := Option.some.inj (of_decide_eq_true (find?_some e :))
        rw [inj_on_of_nodup_map h.ids hr hmem hid]
    rw [hfind]

theorem candidateRules_json (H : List (ProductRule ν)) (corrected : Option (ProductRule ν)) :
    candidateRules (H.map (ruleJson texts)) (corrected.map (ruleJson texts)) =
      (others H corrected).map (ruleJson texts) := by
  cases corrected with
  | none => rfl
  | some c =>
    unfold candidateRules
    simp only [Option.map_some]
    rw [filter_map]
    rfl

/-- The rule in force before and after a save, and the saved rule: does today change? -/
def ChangesCurrent (before after : Option String) (saved : String) : Prop :=
  before = some saved ∨ after = some saved ∨ before ≠ after

theorem currentImpact_eq_current {collision before after : Option (MetaProductRule κ)}
    {saved target today : String} (h : collision = none) :
    currentImpact collision before after saved target today = .current ↔
      ChangesCurrent (before.map (·.id)) (after.map (·.id)) saved := by
  unfold currentImpact ChangesCurrent
  rw [h]
  simp only [Option.isSome_none, Bool.false_eq_true, if_false]
  constructor
  · intro he
    by_contra hn
    rw [if_neg hn] at he
    split at he
    · cases he
    · cases he
  · intro hc
    rw [if_pos hc]

/-- What the preview of a write at the day `d` says. -/
structure Previewed (texts : ν → κ) (H : List (ProductRule ν)) (corrected : Option (ProductRule ν))
    (d t : Int) (preview : MetaProductRuleHistoryPreview κ) : Prop where
  sameDate : preview.sameDateRule = (ruleAt (others H corrected) d).map (ruleJson texts)
  collision : preview.dateCollisionRule = if corrected.isSome then preview.sameDateRule else none
  basis : preview.basisRule = (corrected.or (findEffectiveRuleForDate H d)).map (ruleJson texts)
  expected : preview.expectedEffectiveTo =
    (nextStart ruleDated (others H corrected) d).map fun n => formatDateOnly (n - 1)
  /-- The history after the save has the rows of the others, and the saved rule at its day. -/
  after : ∃ K : List (ProductRule Unit), Contiguous ruleDated K ∧
    (∀ i s, HasRow K i s ↔
      i = ((corrected.or (ruleAt H d)).map (·.id)).getD previewRuleId ∧ s = d ∨
        HasRow (others H corrected) i s ∧ s ≠ d) ∧
    (preview.dateCollisionRule = none → (preview.currentValueImpact = .current ↔
      ChangesCurrent ((findEffectiveRuleForDate H t).map (·.id))
        ((findEffectiveRuleForDate K t).map (·.id))
        (((corrected.or (ruleAt H d)).map (·.id)).getD previewRuleId)))

section Preview

section

variable (h : ListedHistory H)
include h

theorem sameDate_json (corrected : Option (ProductRule ν)) (hd : ReadsBack d) :
    firstByPriority (((others H corrected).map (ruleJson texts)).filter fun rule =>
        dateKey (some rule.effectiveFrom) = formatDateOnly d) =
      (ruleAt (others H corrected) d).map (ruleJson texts) := by
  have hnd := distinct_others h corrected
  have hiff := fun m => sameDate_eq_some_iff (m := m)
    (@startsAs_jsonPairs _ _ _ texts fun r hr => h.dates r (mem_of_mem_others hr))
    (by rw [snd_jsonPairs]; exact hnd) hd
  rw [fst_jsonPairs] at hiff
  refine Option.ext fun m => ?_
  rw [hiff m, Option.map_eq_some_iff]
  simp only [ruleAt_eq_some_iff hnd, mem_jsonPairs]
  constructor
  · rintro ⟨r, ⟨hr, rfl⟩, hrd⟩
    exact ⟨r, ⟨hr, hrd⟩, rfl⟩
  · rintro ⟨r, ⟨hr, hrd⟩, rfl⟩
    exact ⟨r, ⟨hr, rfl⟩, hrd⟩

theorem latest_json (hd : ReadsBack d) : firstByPriority ((H.map (ruleJson texts)).filter fun rule =>
        dateKey (some rule.effectiveFrom) ≤ formatDateOnly d) =
      (findEffectiveRuleForDate H d).map (ruleJson texts) := by
  have hiff := fun m => latestByPriority_eq_some_iff (m := m)
    (@startsAs_jsonPairs _ _ _ texts h.dates) (by rw [snd_jsonPairs]; exact h.contiguous.distinct) hd
  rw [fst_jsonPairs, snd_jsonPairs] at hiff
  refine Option.ext fun m => ?_
  rw [hiff m, Option.map_eq_some_iff]
  simp only [findEffectiveRuleForDate_eq_some_iff h.contiguous, mem_jsonPairs]
  constructor
  · rintro ⟨r, ⟨-, rfl⟩, hl⟩
    exact ⟨r, hl, rfl⟩
  · rintro ⟨r, hl, rfl⟩
    exact ⟨r, ⟨hl.mem, rfl⟩, hl⟩

theorem endBefore_json (corrected : Option (ProductRule ν)) (hd : ReadsBack d) :
    endBefore (firstByChronology (((others H corrected).map (ruleJson texts)).filter fun rule =>
        formatDateOnly d < dateKey (some rule.effectiveFrom))) =
      some ((nextStart ruleDated (others H corrected) d).map fun n => formatDateOnly (n - 1)) := by
  have hdates : ∀ r ∈ others H corrected, ReadsBack r.effectiveFrom :=
    fun r hr => h.dates r (mem_of_mem_others hr)
  have hend := endBefore_next (@startsAs_jsonPairs _ _ _ texts hdates) hd
  rwa [fst_jsonPairs, snd_jsonPairs] at hend

/-- The rule of a day is the one in force there. -/
theorem ruleAt_or_inForce (d : Int) :
    (ruleAt H d).or (findEffectiveRuleForDate H d) = findEffectiveRuleForDate H d := by
  cases e : ruleAt H d with
  | none => rfl
  | some r =>
    obtain ⟨hr, hrd⟩ := (ruleAt_eq_some_iff h.contiguous.distinct).mp e
    rw [Option.some_or, eq_comm, findEffectiveRuleForDate_eq_some_iff h.contiguous]
    exact ⟨hr, hrd.le, fun s _ hs => by rw [← hrd] at hs; exact hs⟩

/-- The basis: the corrected rule, or the rule in force on the day of the write. -/
theorem basis_json (corrected : Option (ProductRule ν)) (hd : ReadsBack d) :
    ((corrected.map (ruleJson texts)).or ((ruleAt (others H corrected) d).map (ruleJson texts))).or
      (firstByPriority (((others H corrected).map (ruleJson texts)).filter fun rule =>
        dateKey (some rule.effectiveFrom) ≤ formatDateOnly d)) =
      (corrected.or (findEffectiveRuleForDate H d)).map (ruleJson texts) := by
  cases corrected with
  | some c => rfl
  | none =>
    show ((ruleAt H d).map (ruleJson texts)).or (firstByPriority ((H.map (ruleJson texts)).filter fun rule =>
      dateKey (some rule.effectiveFrom) ≤ formatDateOnly d)) =
        (findEffectiveRuleForDate H d).map (ruleJson texts)
    rw [latest_json h hd, ← Option.map_or, ruleAt_or_inForce h]

/-- Leaving out the rule of a day by its id leaves out what starts on that day. -/
theorem otherDays_json (corrected : Option (ProductRule ν)) :
    ((others H corrected).map (ruleJson texts)).filter (fun rule =>
        some rule.id ≠ ((ruleAt (others H corrected) d).map (ruleJson texts)).map (·.id)) =
      ((others H corrected).filter fun r => r.effectiveFrom ≠ d).map (ruleJson texts) := by
  have hnd := distinct_others h corrected
  rw [filter_map]
  congr 1
  refine filter_congr fun r hr => decide_eq_decide.mpr (not_congr ?_)
  cases e : ruleAt (others H corrected) d with
  | none =>
    refine iff_of_false (fun hf => by cases hf) fun hrd => ?_
    rw [(ruleAt_eq_some_iff hnd).mpr ⟨hr, hrd⟩] at e
    cases e
  | some s =>
    obtain ⟨hs, hsd⟩ := (ruleAt_eq_some_iff hnd).mp e
    constructor
    · intro hid
      have hid : r.id = s.id := Option.some.inj hid
      rw [inj_on_of_nodup_map h.ids (mem_of_mem_others hr) (mem_of_mem_others hs) hid, hsd]
    · intro hrd
      have hrs : r = s := inj_on_of_nodup_map hnd hr hs (hrd.trans hsd.symm)
      rw [hrs]
      rfl

end

/-- A rule without its columns. -/
def bare (r : ProductRule ν) : ProductRule Unit :=
  { id := r.id, productId := r.productId, values := (), effectiveFrom := r.effectiveFrom
    effectiveTo := r.effectiveTo, createdAt := r.createdAt }

/-- **The history after the save, as the browser computes it.** -/
theorem normalized_json (h : ListedHistory H) (corrected : Option (ProductRule ν)) (hd : ReadsBack d)
    {previewRule : MetaProductRule κ} (hstart : previewRule.effectiveFrom = formatDateOnly d) :
    ∃ P : List (MetaProductRule κ × ProductRule Unit),
      normalizeMetaProductRuleRanges
        (((others H corrected).filter fun r => r.effectiveFrom ≠ d).map (ruleJson texts) ++ [previewRule]) =
          some (P.map Prod.fst) ∧
      (∀ p ∈ P, Shows p.1 p.2) ∧ Contiguous ruleDated (P.map Prod.snd) ∧
      ∀ i s, HasRow (P.map Prod.snd) i s ↔
        i = previewRule.id ∧ s = d ∨ HasRow (others H corrected) i s ∧ s ≠ d := by
  let saved : ProductRule Unit :=
    { id := previewRule.id, productId := previewRule.productId, values := ()
      effectiveFrom := d, effectiveTo := none, createdAt := 0 }
  let rest := (others H corrected).filter fun r => r.effectiveFrom ≠ d
  let Q : List (MetaProductRule κ × ProductRule Unit) :=
    rest.map (fun r => (ruleJson texts r, bare r)) ++ [(previewRule, saved)]
  have hrest : ∀ r ∈ rest, r ∈ others H corrected ∧ r.effectiveFrom ≠ d := by
    intro r hr
    obtain ⟨hr, hne⟩ := mem_filter.mp hr
    exact ⟨hr, of_decide_eq_true hne⟩
  have hfst : Q.map Prod.fst = rest.map (ruleJson texts) ++ [previewRule] := by
    rw [map_append, map_map]
    rfl
  have hsnd : Q.map Prod.snd = rest.map bare ++ [saved] := by
    rw [map_append, map_map]
    rfl
  have hQ : ∀ p ∈ Q, StartsAs p.1 p.2 := by
    intro p hp
    rcases mem_append.mp hp with hp | hp
    · obtain ⟨r, hr, rfl⟩ := mem_map.mp hp
      have := @startsAs_json _ _ texts r (h.dates r (mem_of_mem_others (hrest r hr).1))
      exact ⟨this.id, this.reads, this.start⟩
    · rw [mem_singleton.mp hp]
      exact ⟨rfl, hd, by rw [hstart]; exact dateKey_format hd⟩
  have hnd : ((Q.map Prod.snd).map ruleDated.start).Nodup := by
    rw [hsnd]
    refine nodup_map_concat ?_ fun r hr => ?_
    · rw [map_map]
      exact (distinct_others h corrected).sublist (filter_sublist.map _)
    · obtain ⟨r', hr', rfl⟩ := mem_map.mp hr
      exact (hrest r' hr').2
  obtain ⟨P, hP, hshow, hc, hrows⟩ := normalize_shown hQ hnd
  rw [hfst] at hP
  refine ⟨P, hP, hshow, hc, fun i s => ?_⟩
  rw [hrows, hsnd]
  constructor
  · rintro ⟨r, hr, rfl, rfl⟩
    rcases mem_append.mp hr with hr | hr
    · obtain ⟨r', hr', rfl⟩ := mem_map.mp hr
      exact .inr ⟨⟨r', (hrest r' hr').1, rfl, rfl⟩, (hrest r' hr').2⟩
    · rw [mem_singleton.mp hr]
      exact .inl ⟨rfl, rfl⟩
  · rintro (⟨rfl, rfl⟩ | ⟨⟨r, hr, rfl, rfl⟩, hne⟩)
    · exact ⟨saved, mem_append_right _ (mem_singleton_self _), rfl, rfl⟩
    · refine ⟨bare r, mem_append_left _ (mem_map_of_mem ?_), rfl, rfl⟩
      exact mem_filter.mpr ⟨hr, decide_eq_true hne⟩

/-- **The preview of a contiguous history**, for a save and for a correction. -/
theorem previewed (texts : ν → κ) (h : ListedHistory H) (hc : ∀ c ∈ corrected, c ∈ H) (hd : ReadsBack d)
    (ht : ReadsBack t) :
    ∃ preview, previewMetaProductRuleHistory (H.map (ruleJson texts)) (formatDateOnly d)
        (formatDateOnly t) (corrected.map (·.id)) = some preview ∧
      Previewed texts H corrected d t preview := by
  have hid : (((corrected.map (ruleJson texts)).or ((ruleAt (others H corrected) d).map
      (ruleJson texts))).map (·.id)).getD previewRuleId =
        ((corrected.or (ruleAt H d)).map (·.id)).getD previewRuleId := by
    cases corrected with
    | some c => rfl
    | none =>
      rw [← Option.map_or, Option.map_map]
      rfl
  unfold previewMetaProductRuleHistory
  simp only [dated_json h.dates, selectRule_json h hc, candidateRules_json, sameDate_json h corrected hd,
    endBefore_json h corrected hd, basis_json h corrected hd, otherDays_json h corrected,
    ruleForDate_json h ht, hid, Option.bind_eq_bind, Option.bind_some]
  generalize hrule : (MetaProductRule.mk _ _ _ _ _ _ : MetaProductRule κ) = previewRule
  obtain ⟨P, hP, hshow, hcon, hrows⟩ := @normalized_json _ _ _ _ texts h corrected hd
    previewRule (by rw [← hrule])
  rw [hP]
  refine ⟨_, rfl, ?_⟩
  refine ⟨rfl, ?_, rfl, rfl, P.map Prod.snd, hcon, fun i s => ?_, fun hnone => ?_⟩
  · cases corrected with
    | none | some c => rfl
  · rw [hrows, ← hrule]
  · rw [currentImpact_eq_current hnone, ruleForDate_id hshow hcon ht, Option.map_map]
    rfl

end Preview

end AdsManagement.Web
