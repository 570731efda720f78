/-
  File:      Meta/ProductRuleHistory.lean
  Subject:   PRODUCT RULES AS A POINT-IN-TIME OVERLAY: what a sequence of saves and corrections
             does to the rules in force.

  * `RuleInv` -- ids are unique, starts are dates a request can name, every product's history
    is contiguous; `RuleInv.run` keeps it over any request;
  * `saved_overlaid` -- a save places one set of columns at its day and touches no other start;
  * `product_rules_point_in_time` -- so the columns in force change from that day to the day
    before the next start only, where they are the ones in force before with the fields of the
    body replaced.

  The body of a save may name `fxRateKrwPerUsd`, which counts for a first rule only: over a base
  rule the rate is inherited (`provided_rate_inherited`).
-/
import AdsManagement.Meta.ProductRules

namespace AdsManagement.Meta

open Common Lib List Function

variable {ν : Type} {F : RuleFamily ν} {rules rules' : List (ProductRule ν)} {p : String}

/-! ## 1. Histories of a table -/

variable {r : ProductRule ν}

theorem mem_rulesOf : r ∈ rulesOf p rules ↔ r ∈ rules ∧ r.productId = p := by
  unfold rulesOf
  rw [mem_filter, decide_eq_true_eq]

theorem perm_history (p : String) (rules : List (ProductRule ν)) :
    (history p rules).Perm (rulesOf p rules) := perm_insertionSort _ _

theorem mem_history : r ∈ history p rules ↔ r ∈ rules ∧ r.productId = p := by
  rw [(perm_history p rules).mem_iff, mem_rulesOf]

theorem sorted_history (p : String) (rules : List (ProductRule ν)) :
    (history p rules).Pairwise fun a b => a.effectiveFrom ≤ b.effectiveFrom := by
  refine (pairwise_insertionSort (fun a b => ruleRank a ≤ ruleRank b) _).imp fun {a b} h => ?_
  rcases (Prod.Lex.le_iff).mp h with h | h
  · exact h.le
  · exact h.1.le

theorem nodup_of_duplicateDates {dates : List String} :
    dates.eraseDups.filter (fun date => decide (1 < dates.count date)) = [] ↔ dates.Nodup := by
  rw [filter_eq_nil_iff, nodup_iff_count_le_one]
  constructor
  · intro h date
    by_cases hm : date ∈ dates
    · have := h date (mem_eraseDups.mpr hm)
      rw [decide_eq_true_eq] at this
      omega
    · rw [count_eq_zero_of_not_mem hm]
      omega
  · intro h date _
    rw [decide_eq_true_eq]
    have := h date
    omega

/-- The dates are told apart by their texts. -/
theorem assertNoDuplicateEffectiveDates_eq_ok {code : String}
    (hread : ∀ r ∈ rules, ReadsBack r.effectiveFrom) :
    assertNoDuplicateEffectiveDates rules code = .ok () ↔ (rules.map ruleDated.start).Nodup := by
  have htexts : (rules.map fun r => formatDateOnly r.effectiveFrom).Nodup ↔
      (rules.map ruleDated.start).Nodup := by
    have e : (rules.map fun r => formatDateOnly r.effectiveFrom) =
        (rules.map ruleDated.start).map formatDateOnly := by
      rw [map_map]
      rfl
    rw [e]
    constructor
    · exact Nodup.of_map _
    · refine Nodup.map_on fun x hx y hy exy => ?_
      obtain ⟨r, hr, rfl⟩ := mem_map.mp hx
      obtain ⟨s, hs, rfl⟩ := mem_map.mp hy
      exact formatDateOnly_inj (hread r hr) (hread s hs) exy
  rw [← htexts, ← nodup_of_duplicateDates]
  unfold assertNoDuplicateEffectiveDates
  simp only
  constructor
  · intro h
    split at h
    · next e => exact e
    · cases h
  · intro h
    rw [if_pos h]

/-- The table with the ranges of one product rewritten. -/
def closeRules (p : String) (rules : List (ProductRule ν)) : List (ProductRule ν) :=
  rules.map fun r => if r.productId = p then close ruleDated (rulesOf p rules) r else r

theorem normalizeRuleRanges_eq_ok (hids : (rules.map (·.id)).Nodup)
    (hread : ∀ r ∈ rules, ReadsBack r.effectiveFrom) (h : normalizeRuleRanges F p rules = .ok rules') :
    ((rulesOf p rules).map ruleDated.start).Nodup ∧ rules' = closeRules p rules := by
  obtain ⟨_, hdup, h⟩ := bind_eq_ok.mp h
  have hnd := (assertNoDuplicateEffectiveDates_eq_ok fun r hr => hread r (mem_history.mp hr).1).mp hdup
  have hnd' : ((rulesOf p rules).map ruleDated.start).Nodup :=
    ((perm_history p rules).map _).nodup_iff.mp hnd
  have hloop := normalizeRanges_eq_endRanges () rules hnd
  rw [normalizeRanges_selection () (fun r => decide (r.productId = p)) hids (perm_history p rules)
    (sorted_history p rules)] at hloop
  have e : ((rules.filter fun r => decide (r.productId = p)).map ruleDated.start).Nodup := hnd'
  rw [if_pos e] at hloop
  refine ⟨hnd', ?_⟩
  cases h
  rw [← Except.ok.inj hloop]
  simp only [decide_eq_true_eq]
  rfl

/-- A change of the rows that keeps each one's product. -/
theorem rulesOf_map {f : ProductRule ν → ProductRule ν}
    (hf : ∀ r ∈ rules, (f r).productId = r.productId) (p : String) :
    rulesOf p (rules.map f) = (rulesOf p rules).map f := by
  unfold rulesOf
  exact filter_map_of_keeps fun r hr => by rw [hf r hr]

theorem productId_close (p : String) (rules : List (ProductRule ν)) (r : ProductRule ν) :
    (if r.productId = p then close ruleDated (rulesOf p rules) r else r).productId = r.productId := by
  split
  · rfl
  · rfl

theorem rulesOf_closeRules (q : String) : rulesOf q (closeRules p rules) =
    if q = p then (rulesOf p rules).map (close ruleDated (rulesOf p rules)) else rulesOf q rules := by
  unfold closeRules
  rw [rulesOf_map fun r _ => productId_close p rules r]
  split
  · rename_i e
    subst e
    exact map_congr_left fun r hr => if_pos (mem_rulesOf.mp hr).2
  · rename_i e
    refine (map_congr_left fun r hr => if_neg ?_).trans (map_id' _)
    rw [(mem_rulesOf.mp hr).2]
    exact e

/-! ## 2. The invariant -/

structure RuleInv (rules : List (ProductRule ν)) : Prop where
  ids : (rules.map (·.id)).Nodup
  dates : ∀ r ∈ rules, ReadsBack r.effectiveFrom
  histories : ∀ p, Contiguous ruleDated (rulesOf p rules)

/-- What the requests for one product rely on. -/
structure HistoryInv (p : String) (rules : List (ProductRule ν)) : Prop where
  ids : (rules.map (·.id)).Nodup
  dates : ∀ r ∈ rules, ReadsBack r.effectiveFrom
  contiguous : Contiguous ruleDated (rulesOf p rules)

theorem RuleInv.at (h : RuleInv rules) (p : String) : HistoryInv p rules :=
  ⟨h.ids, h.dates, h.histories p⟩

theorem RuleInv.empty : RuleInv ([] : List (ProductRule ν)) where
  ids := nodup_nil
  dates _ h := absurd h not_mem_nil
  histories _ := ⟨nodup_nil, fun _ h => absurd h not_mem_nil⟩

variable {written : List (ProductRule ν)}

/-- The ranges of the written product are rewritten, the other histories are as they were. -/
theorem RuleInv.of_normalize (hids : (written.map (·.id)).Nodup)
    (hread : ∀ r ∈ written, ReadsBack r.effectiveFrom)
    (hother : ∀ q, q ≠ p → Contiguous ruleDated (rulesOf q written))
    (h : normalizeRuleRanges F p written = .ok rules') : RuleInv rules' := by
  obtain ⟨hnd, rfl⟩ := normalizeRuleRanges_eq_ok hids hread h
  refine ⟨?_, fun r hr => ?_, fun q => ?_⟩
  · have e : (closeRules p written).map (·.id) = written.map (·.id) := by
      unfold closeRules
      rw [map_map]
      refine map_congr_left fun r _ => ?_
      simp only [comp_apply]
      split
      · rfl
      · rfl
    rw [e]
    exact hids
  · obtain ⟨s, hs, rfl⟩ := mem_map.mp hr
    split
    · exact hread s hs
    · exact hread s hs
  · rw [rulesOf_closeRules]
    split
    · exact contiguous_map_close hnd
    · next e => exact hother q e

instance : Std.Total (@compareEffectiveRulePriority ν) := ⟨fun _ _ => le_total _ _⟩

instance : IsTrans (ProductRule ν) compareEffectiveRulePriority := ⟨fun _ _ _ h1 h2 => le_trans h2 h1⟩

theorem effectiveFrom_le_of_priority {a b : ProductRule ν} (h : compareEffectiveRulePriority a b) :
    b.effectiveFrom ≤ a.effectiveFrom := by
  rcases (Prod.Lex.le_iff).mp h with h | h
  · exact h.le
  · exact h.1.le

theorem findEffectiveRuleForDate_eq_some_iff (h : Contiguous ruleDated rules) (d : Int)
    (r : ProductRule ν) : findEffectiveRuleForDate rules d = some r ↔ LatestAt ruleDated rules d r :=
  h.search_eq_some_iff compareEffectiveRulePriority d r

variable {d : Int}

theorem latestAt_perm {l : List (ProductRule ν)} (hp : l.Perm rules) :
    LatestAt ruleDated l d r ↔ LatestAt ruleDated rules d r := by
  constructor
  · intro h
    exact ⟨hp.mem_iff.mp h.mem, h.le, fun s hs => h.latest s (hp.mem_iff.mpr hs)⟩
  · intro h
    exact ⟨hp.mem_iff.mpr h.mem, h.le, fun s hs => h.latest s (hp.mem_iff.mp hs)⟩

/-- **The base rule of a save is the rule in force on its day.** -/
theorem HistoryInv.baseRule_eq (h : HistoryInv p rules) (d : Int) :
    ((history p rules).find? fun r => r.effectiveFrom = d).or (latestRuleAtOrBefore (history p rules) d) =
      findEffectiveRuleForDate (rulesOf p rules) d := by
  have hc := h.contiguous
  have hfind := findEffectiveRuleForDate_eq_some_iff hc d
  cases e : (history p rules).find? fun r => r.effectiveFrom = d with
  | some r =>
    have hr := (perm_history p rules).mem_iff.mp (mem_of_find?_eq_some e)
    have hd : r.effectiveFrom = d := by simpa using find?_some e
    rw [Option.some_or, eq_comm, hfind r]
    exact ⟨hr, hd.le, fun s _ hs => by rw [← hd] at hs; exact hs⟩
  | none =>
    have hlatest := (hc.perm (perm_history p rules)).searchStarts_eq_some_iff
      compareEffectiveRulePriority (fun a b => effectiveFrom_le_of_priority) d
    refine Option.ext fun r => ?_
    rw [hfind r, ← latestAt_perm (perm_history p rules)]
    exact hlatest r

/-! ## 3. A save -/

theorem fromRequest_eq_ok {α : Type} {result : Except ApiError α} {a : α}
    (h : fromRequest result = .ok a) : result = .ok a := by
  cases result with
  | error e => cases h
  | ok b => exact congrArg Except.ok (Except.ok.inj h)

variable {body : Body}

theorem readsBack_of_startDate (h : startDate body = .ok d) : ReadsBack d := by
  obtain ⟨text, -, h⟩ := bind_eq_ok.mp h
  exact readsBack_of_asDateOnly (fromRequest_eq_ok h)

variable {env : RuleEnv} {result : RuleWriteResult ν}

/-- What a save that returns has done. -/
theorem saveRuleSnapshot_eq_ok (h : saveRuleSnapshot F env p body rules = .ok (rules', result)) :
    ∃ d snapshot saved operation written, startDate body = .ok d ∧
      F.snapshot env body ((((history p rules).find? fun r => r.effectiveFrom = d).or
        (latestRuleAtOrBefore (history p rules) d)).map (·.values)) = .ok snapshot ∧
      writeSnapshot env p ((history p rules).find? fun r => r.effectiveFrom = d) d snapshot rules =
        .ok (saved, operation, written) ∧
      normalizeRuleRanges F p written = .ok rules' := by
  obtain ⟨_, -, h⟩ := bind_eq_ok.mp h
  obtain ⟨_, -, h⟩ := bind_eq_ok.mp h
  obtain ⟨d, hd, h⟩ := bind_eq_ok.mp h
  obtain ⟨_, -, h⟩ := bind_eq_ok.mp h
  obtain ⟨_, -, h⟩ := bind_eq_ok.mp h
  obtain ⟨_, -, h⟩ := bind_eq_ok.mp h
  obtain ⟨snapshot, hs, h⟩ := bind_eq_ok.mp h
  obtain ⟨⟨saved, operation, written⟩, hw, h⟩ := bind_eq_ok.mp h
  obtain ⟨normalized, hn, h⟩ := bind_eq_ok.mp h
  obtain ⟨_, -, h⟩ := bind_eq_ok.mp h
  cases h
  exact ⟨d, snapshot, saved, operation, written, hd, hs, hw, hn⟩

/-- What the write of a snapshot does to the table. -/
structure SnapshotWritten (p : String) (d : Int) (snapshot : ν) (rules written : List (ProductRule ν)) :
    Prop where
  ids : (written.map (·.id)).Nodup
  dates : ReadsBack d → ∀ r ∈ written, ReadsBack r.effectiveFrom
  others : ∀ q, q ≠ p → rulesOf q written = rulesOf q rules
  overlaid : Overlaid ruleDated (·.values) (rulesOf p rules) (rulesOf p written) d snapshot

/-- In place: the rule of the day, and by its id no other. -/
theorem HistoryInv.updated (h : HistoryInv p rules) {same : ProductRule ν} (snapshot : ν)
    (hs : same ∈ rules) (hp : same.productId = p) (hd : same.effectiveFrom = d) :
    SnapshotWritten p d snapshot rules (updateRule same.id
      (fun r => { r with values := snapshot, effectiveFrom := d, effectiveTo := none }) rules) := by
  have hsame : ∀ r ∈ rules, r.id = same.id → r = same :=
    fun r hr e => inj_on_of_nodup_map h.ids hr hs e
  have hproduct : ∀ r ∈ rules, (if r.id = same.id then
      { r with values := snapshot, effectiveFrom := d, effectiveTo := none } else r).productId =
        r.productId := by
    intro r _
    split
    · rfl
    · rfl
  have hstart : ∀ r ∈ rules, (if r.id = same.id then
      { r with values := snapshot, effectiveFrom := d, effectiveTo := none } else r).effectiveFrom =
        r.effectiveFrom := by
    intro r hr
    split
    · next e => rw [hsame r hr e, hd]
    · rfl
  -- the starts of a history are distinct, so the rule of the day is this one
  have honly : ∀ r ∈ rules, r.productId = p → r.effectiveFrom = d → r = same := by
    intro r hr hrp hrd
    exact inj_on_of_nodup_map h.contiguous.distinct (mem_rulesOf.mpr ⟨hr, hrp⟩)
      (mem_rulesOf.mpr ⟨hs, hp⟩) (show r.effectiveFrom = same.effectiveFrom by rw [hrd, hd])
  unfold updateRule
  refine ⟨?_, fun _ r hr => ?_, fun q hq => ?_, ?_⟩
  · rw [map_map]
    refine (map_congr_left fun r _ => ?_) ▸ h.ids
    simp only [comp_apply]
    split
    · rfl
    · rfl
  · obtain ⟨s, hs', rfl⟩ := mem_map.mp hr
    rw [hstart s hs']
    exact h.dates s hs'
  · rw [rulesOf_map hproduct]
    refine (map_congr_left fun r hr => if_neg fun e => hq ?_).trans (map_id' _)
    obtain ⟨hr, hrq⟩ := mem_rulesOf.mp hr
    rw [← hrq, hsame r hr e, hp]
  · rw [rulesOf_map hproduct]
    refine ⟨⟨_, mem_map_of_mem (mem_rulesOf.mpr ⟨hs, hp⟩), ?_⟩, fun r hr hrd => ?_,
      fun r hr hrd => ?_, fun s hs' hsd => ?_⟩
    · exact (hstart same hs).trans hd
    · obtain ⟨s, hs', rfl⟩ := mem_map.mp hr
      obtain ⟨hs', hsp⟩ := mem_rulesOf.mp hs'
      rw [honly s hs' hsp ((hstart s hs').symm.trans hrd), if_pos rfl]
    · refine ⟨_, mem_map_of_mem hr, ?_, ?_⟩
      · exact hstart r (mem_rulesOf.mp hr).1
      · rw [if_neg]
        intro e
        rw [hsame r (mem_rulesOf.mp hr).1 e] at hrd
        exact hrd hd
    · obtain ⟨r, hr, rfl⟩ := mem_map.mp hs'
      exact ⟨r, hr, hstart r (mem_rulesOf.mp hr).1⟩

theorem createRule_eq_ok {rule : ProductRule ν} (hc : createRule rule rules = .ok written) :
    written = rules ++ [rule] ∧ ∀ r ∈ rules, r.id ≠ rule.id := by
  unfold createRule at hc
  split at hc
  case isTrue => cases hc
  case isFalse hany =>
    cases hc
    exact ⟨rfl, fun r hr e => hany (any_eq_true.mpr ⟨r, hr, decide_eq_true e⟩)⟩

theorem rulesOf_concat (rule : ProductRule ν) :
    rulesOf rule.productId (rules ++ [rule]) = rulesOf rule.productId rules ++ [rule] := by
  unfold rulesOf
  rw [filter_append, filter_cons_of_pos (by simp), filter_nil]

/-- A new rule, on a day on which none starts. -/
theorem HistoryInv.created (h : HistoryInv p rules) {rule : ProductRule ν}
    (hc : createRule rule rules = .ok written)
    (hnone : ∀ r ∈ rules, r.productId = rule.productId → r.effectiveFrom ≠ rule.effectiveFrom) :
    SnapshotWritten rule.productId rule.effectiveFrom rule.values rules written := by
  obtain ⟨rfl, hfresh⟩ := createRule_eq_ok hc
  refine ⟨?_, fun hd r hr => ?_, fun q hq => ?_, ?_⟩
  · exact nodup_map_concat h.ids hfresh
  · rcases mem_append.mp hr with hr | hr
    · exact h.dates r hr
    · rw [mem_singleton.mp hr]
      exact hd
  · unfold rulesOf
    rw [filter_append, filter_cons_of_neg (by simpa using Ne.symm hq), filter_nil, append_nil]
  · rw [rulesOf_concat]
    refine ⟨⟨rule, mem_append_right _ (mem_singleton_self _), rfl⟩, fun r hr hrd => ?_,
      fun r hr _ => ⟨r, mem_append_left _ hr, rfl, rfl⟩, fun s hs hsd => ?_⟩
    · rcases mem_append.mp hr with hr | hr
      · obtain ⟨hr, hrp⟩ := mem_rulesOf.mp hr
        exact absurd hrd (hnone r hr hrp)
      · rw [mem_singleton.mp hr]
    · rcases mem_append.mp hs with hs | hs
      · exact ⟨s, hs, rfl⟩
      · rw [mem_singleton.mp hs] at hsd
        exact absurd rfl hsd

theorem HistoryInv.writeSnapshot (h : HistoryInv p rules) {snapshot : ν} {saved : String}
    {operation : RuleOperation}
    (hw : writeSnapshot env p ((history p rules).find? fun r => r.effectiveFrom = d) d snapshot rules =
      .ok (saved, operation, written)) : SnapshotWritten p d snapshot rules written := by
  unfold Meta.writeSnapshot at hw
  split at hw
  · rename_i same e
    cases hw
    obtain ⟨hs, hp⟩ := mem_history.mp (mem_of_find?_eq_some e)
    exact h.updated snapshot hs hp (by simpa using find?_some e)
  · rename_i e
    obtain ⟨table, hc, hw⟩ := bind_eq_ok.mp hw
    cases hw
    refine h.created hc fun r hr hrp hrd => ?_
    exact find?_eq_none.mp e r (mem_history.mpr ⟨hr, hrp⟩) (decide_eq_true hrd)

/-- Rewriting the ranges moves no start and changes no column. -/
theorem overlaid_closed {snapshot : ν} {before : List (ProductRule ν)}
    (h : Overlaid ruleDated (·.values) before written d snapshot) :
    Overlaid ruleDated (·.values) before (written.map (close ruleDated written)) d snapshot := by
  refine ⟨?_, fun r hr hrd => ?_, fun r hr hrd => ?_, fun s hs hsd => ?_⟩
  · obtain ⟨r, hr, hrd⟩ := h.placed
    exact ⟨_, mem_map_of_mem hr, hrd⟩
  · obtain ⟨s, hs, rfl⟩ := mem_map.mp hr
    exact h.written s hs hrd
  · obtain ⟨s, hs, es, ev⟩ := h.kept r hr hrd
    exact ⟨_, mem_map_of_mem hs, es, ev⟩
  · obtain ⟨r, hr, rfl⟩ := mem_map.mp hs
    exact h.only r hr hsd

/-- **A save places its columns at its day**, over the columns in force there. -/
theorem saved_overlaid (h : RuleInv rules) (hs : saveRuleSnapshot F env p body rules = .ok (rules', result)) :
    RuleInv rules' ∧ (∀ q, q ≠ p → rulesOf q rules' = rulesOf q rules) ∧
      ∃ d snapshot, startDate body = .ok d ∧
        F.snapshot env body (valuesAt p rules d) = .ok snapshot ∧
        Overlaid ruleDated (·.values) (rulesOf p rules) (rulesOf p rules') d snapshot := by
  obtain ⟨d, snapshot, saved, operation, written, hd, hsnap, hw, hn⟩ := saveRuleSnapshot_eq_ok hs
  have hwritten := (h.at p).writeSnapshot hw
  have hdates := hwritten.dates (readsBack_of_startDate hd)
  obtain ⟨hnd, rfl⟩ := normalizeRuleRanges_eq_ok hwritten.ids hdates hn
  refine ⟨RuleInv.of_normalize hwritten.ids hdates (fun q hq => ?_) hn, fun q hq => ?_,
    d, snapshot, hd, ?_, ?_⟩
  · rw [hwritten.others q hq]
    exact h.histories q
  · rw [rulesOf_closeRules, if_neg hq, hwritten.others q hq]
  · rw [(h.at p).baseRule_eq] at hsnap
    exact hsnap
  · rw [rulesOf_closeRules, if_pos rfl]
    exact overlaid_closed hwritten.overlaid

/-! ## 4. A correction, and runs -/

theorem RuleInv.correctRule (h : RuleInv rules) {ruleId : String}
    (hc : correctRule F env p ruleId body rules = .ok (rules', result)) : RuleInv rules' := by
  obtain ⟨_, -, hc⟩ := bind_eq_ok.mp hc
  obtain ⟨_, -, hc⟩ := bind_eq_ok.mp hc
  obtain ⟨_, -, hc⟩ := bind_eq_ok.mp hc
  split at hc
  case h_1 => cases hc
  case h_2 existing hfind =>
    split at hc
    case isTrue => cases hc
    case isFalse hp =>
      obtain ⟨d, hd, hc⟩ := bind_eq_ok.mp hc
      split at hc
      case isTrue => cases hc
      case isFalse =>
        obtain ⟨corrected, -, hc⟩ := bind_eq_ok.mp hc
        obtain ⟨normalized, hn, hc⟩ := bind_eq_ok.mp hc
        obtain ⟨_, -, hc⟩ := bind_eq_ok.mp hc
        cases hc
        have hmem := mem_of_find?_eq_some hfind
        have hid : existing.id = ruleId := by simpa using find?_some hfind
        have hd' : ReadsBack d := by
          unfold startDateOr at hd
          split at hd
          · exact readsBack_of_startDate hd
          · cases hd
            exact h.dates existing hmem
        have hproduct : ∀ r ∈ rules, (if r.id = ruleId then
            { r with values := corrected, effectiveFrom := d } else r).productId = r.productId := by
          intro r _
          split
          · rfl
          · rfl
        refine RuleInv.of_normalize ?_ (fun r hr => ?_) (fun q hq => ?_) hn
        · unfold updateRule
          rw [map_map]
          refine (map_congr_left fun r _ => ?_) ▸ h.ids
          simp only [comp_apply]
          split
          · rfl
          · rfl
        · obtain ⟨s, hs, rfl⟩ := mem_map.mp hr
          split
          · exact hd'
          · exact h.dates s hs
        · unfold updateRule
          rw [rulesOf_map hproduct]
          have e : (rulesOf q rules).map (fun r => if r.id = ruleId then
              { r with values := corrected, effectiveFrom := d } else r) = rulesOf q rules := by
            refine (map_congr_left fun r hr => if_neg fun e => hq ?_).trans (map_id' _)
            obtain ⟨hr, hrq⟩ := mem_rulesOf.mp hr
            rw [← hrq, inj_on_of_nodup_map h.ids hr hmem (e.trans hid.symm)]
            exact not_not.mp hp
          rw [e]
          exact h.histories q

/-- **Every request keeps the invariant**, a failed one too. -/
theorem RuleInv.run (h : RuleInv rules) (call : RuleEnv × RuleCall) : RuleInv (RuleCall.run F rules call) := by
  obtain ⟨env, call⟩ := call
  unfold RuleCall.run
  split
  · rename_i next result e
    cases call with
    | save p body => exact (saved_overlaid h e).1
    | correct p ruleId body => exact h.correctRule e
  · exact h

theorem ruleInv_runCalls (F : RuleFamily ν) (calls : List (RuleEnv × RuleCall)) :
    RuleInv (runCalls F calls) := by
  have hfold : ∀ (calls : List (RuleEnv × RuleCall)) (rules : List (ProductRule ν)), RuleInv rules →
      RuleInv (calls.foldl (RuleCall.run F) rules) := by
    intro calls
    induction calls with
    | nil => exact fun _ h => h
    | cons call calls ih => exact fun rules h => ih _ (h.run call)
  exact hfold calls [] RuleInv.empty

theorem runCalls_append (calls : List (RuleEnv × RuleCall)) (call : RuleEnv × RuleCall) :
    runCalls F (calls ++ [call]) = RuleCall.run F (runCalls F calls) call := by
  unfold runCalls
  rw [foldl_append]
  rfl

/-! ## 5. The columns of a save -/

/-- A numeric field of the body in a column of scale `s`, or the old value. -/
def replacedNumber (s : Nat) (body : Body) (field : String) (old : Scaled s) : Scaled s :=
  match (body.get field).bind jsNumber with
  | some q => Scaled.ofRat s q
  | none => old

/-- One tenth of a sale price the body gives. -/
def recomputedVat (body : Body) (old : Scaled 2) : Scaled 2 :=
  match (body.get "salePriceKrw").bind jsNumber with
  | some q => Scaled.ofRat 2 (q / 10)
  | none => old

/-- Where no rule was in force the rate is the body's, else the latest one, else zero. -/
def firstRate (env : RuleEnv) (body : Body) : Scaled 4 :=
  if isBlankValue (body.get "fxRateKrwPerUsd") then
    Scaled.ofRat 4 ((env.latestRate.map (·.value)).getD 0)
  else replacedNumber 4 body "fxRateKrwPerUsd" 0

/-- The columns of a cost rule with the fields of the body replaced. -/
def correctedCost (body : Body) (old : CostValues) : CostValues :=
  { salePriceKrw := replacedNumber 2 body "salePriceKrw" old.salePriceKrw
    vatKrw := recomputedVat body old.vatKrw
    productCostKrw := replacedNumber 2 body "productCostKrw" old.productCostKrw
    shippingKrw := replacedNumber 2 body "shippingKrw" old.shippingKrw
    extraCostKrw := replacedNumber 2 body "extraCostKrw" old.extraCostKrw
    fxRateKrwPerUsd := replacedNumber 4 body "fxRateKrwPerUsd" old.fxRateKrwPerUsd
    note := noteOr body old.note }

/-- A save keeps the rate in force; a first rule takes all columns from the body. -/
def costOverlay (env : RuleEnv) (body : Body) (inForce : Option CostValues) : CostValues :=
  let old := inForce.getD
    { salePriceKrw := 0, vatKrw := 0, productCostKrw := 0, shippingKrw := 0, extraCostKrw := 0
      fxRateKrwPerUsd := firstRate env body, note := none }
  { correctedCost body old with fxRateKrwPerUsd := old.fxRateKrwPerUsd }

/-- The columns of a CPA rule with the fields of the body replaced. -/
def correctedCpa (body : Body) (old : CpaValues) : CpaValues :=
  { targetRatio := replacedNumber 4 body "targetRatio" old.targetRatio
    watchRatio := replacedNumber 4 body "watchRatio" old.watchRatio
    stopRatio := replacedNumber 4 body "stopRatio" old.stopRatio
    note := noteOr body old.note }

def cpaOverlay (_env : RuleEnv) (body : Body) (inForce : Option CpaValues) : CpaValues :=
  correctedCpa body (inForce.getD { targetRatio := 0, watchRatio := 0, stopRatio := 0, note := none })

variable {field : String}

theorem decimal_eq_ok {value : Option Json} {q : ℚ} (h : decimal value field = .ok q) :
    value.bind jsNumber = some q := by
  unfold decimal at h
  split at h
  · cases h
  · cases h
  · cases h
  · rename_i v _ _
    split at h
    · cases h
    · split at h
      · cases h
      · rename_i parsed e
        split at h
        · cases h
        · cases h
          exact e

variable {q : Option ℚ}

/-- A number of the body is read exactly when the field is provided. -/
theorem decimalIfPresent_eq_ok (h : decimalIfPresent body field = .ok q) :
    (body.get field).bind jsNumber = q := by
  unfold decimalIfPresent at h
  split at h
  · obtain ⟨n, hn, rfl⟩ := map_eq_ok.mp h
    exact decimal_eq_ok hn
  · rename_i hhas
    cases h
    rw [Option.not_isSome_iff_eq_none.mp hhas]
    rfl

/-- The amounts a body names are numbers. -/
def ReadsNumbers (body : Body) (fields : List String) : Prop :=
  ∀ field ∈ fields, ∀ j, body.get field = some j → ∃ q, jsNumber j = some q

theorem ReadsNumbers.nil : ReadsNumbers body [] := forall_mem_nil _

theorem ReadsNumbers.cons {fields : List String} (h : decimalIfPresent body field = .ok q)
    (hs : ReadsNumbers body fields) : ReadsNumbers body (field :: fields) := by
  refine forall_mem_cons.mpr ⟨fun j hj => ?_, hs⟩
  unfold decimalIfPresent hasProvidedField Body.has at h
  rw [hj] at h
  obtain ⟨n, hn, -⟩ := map_eq_ok.mp h
  exact ⟨n, decimal_eq_ok hn⟩

theorem column_eq_ok {precision scale : Nat} {q : ℚ} {x : Scaled scale}
    (h : column precision scale q = .ok x) : x = Scaled.ofRat scale q := by
  unfold column at h
  split at h
  · exact (Except.ok.inj h).symm
  · cases h

/-- A column of a save: the number of the body, or the value of the base rule as it was. -/
theorem column_numberOrBase {κ : Type} {precision scale : Nat} (f : κ → Scaled scale) {base : Option κ}
    {n : ℚ} {x : Scaled scale} (hq : decimalIfPresent body field = .ok q)
    (hn : numberOrBase q (base.map fun b => (f b).value) = .ok n) (hx : column precision scale n = .ok x) :
    x = replacedNumber scale body field ((base.map f).getD 0) := by
  rw [column_eq_ok hx]
  unfold replacedNumber
  rw [decimalIfPresent_eq_ok hq]
  cases q with
  | some q =>
    cases hn
    rfl
  | none =>
    cases base with
    | some b =>
      cases hn
      exact Scaled.ofRat_value (f b)
    | none => cases hn

variable {base : Option CostValues}

theorem column_snapshotVat {n : ℚ} {x : Scaled 2} (hq : decimalIfPresent body "salePriceKrw" = .ok q)
    (hn : numberOrBase q (base.map (·.salePriceKrw.value)) = .ok n)
    (hx : column 14 2 (snapshotVat q n base) = .ok x) :
    x = recomputedVat body ((base.map (·.vatKrw)).getD 0) := by
  rw [column_eq_ok hx]
  unfold recomputedVat
  rw [decimalIfPresent_eq_ok hq]
  cases q with
  | some q =>
    obtain rfl : q = n := Except.ok.inj hn
    show Scaled.ofRat 2 (q * (1 / 10)) = Scaled.ofRat 2 (q / 10)
    rw [mul_one_div]
  | none =>
    cases base with
    | some b => exact Scaled.ofRat_value b.vatKrw
    | none => cases hn

theorem column_baseFxRate {n : ℚ} {x : Scaled 4} (hn : baseFxRate env body base = .ok n)
    (hx : column 12 4 n = .ok x) :
    x = (base.map (·.fxRateKrwPerUsd)).getD (firstRate env body) := by
  rw [column_eq_ok hx]
  cases base with
  | some b =>
    cases hn
    exact Scaled.ofRat_value b.fxRateKrwPerUsd
  | none =>
    have hn' : resolveLegacyFxRate env.latestRate (body.get "fxRateKrwPerUsd") = .ok n := hn
    unfold resolveLegacyFxRate at hn'
    show _ = firstRate env body
    unfold firstRate
    cases hblank : isBlankValue (body.get "fxRateKrwPerUsd") with
    | true =>
      rw [hblank] at hn'
      cases hn'
      rfl
    | false =>
      rw [hblank] at hn'
      unfold replacedNumber
      rw [decimal_eq_ok hn', if_neg (by decide)]

theorem costSnapshot_eq_ok {v : CostValues} (h : costSnapshot env body base = .ok v) :
    v = costOverlay env body base ∧
      ReadsNumbers body ["salePriceKrw", "productCostKrw", "shippingKrw", "extraCostKrw"] := by
  obtain ⟨sale, hsale, h⟩ := bind_eq_ok.mp h
  obtain ⟨saleKrw, hsaleKrw, h⟩ := bind_eq_ok.mp h
  obtain ⟨cost, hcost, h⟩ := bind_eq_ok.mp h
  obtain ⟨costKrw, hcostKrw, h⟩ := bind_eq_ok.mp h
  obtain ⟨ship, hship, h⟩ := bind_eq_ok.mp h
  obtain ⟨shipKrw, hshipKrw, h⟩ := bind_eq_ok.mp h
  obtain ⟨extra, hextra, h⟩ := bind_eq_ok.mp h
  obtain ⟨extraKrw, hextraKrw, h⟩ := bind_eq_ok.mp h
  obtain ⟨rate, hrate, h⟩ := bind_eq_ok.mp h
  obtain ⟨c1, h1, h⟩ := bind_eq_ok.mp h
  obtain ⟨c2, h2, h⟩ := bind_eq_ok.mp h
  obtain ⟨c3, h3, h⟩ := bind_eq_ok.mp h
  obtain ⟨c4, h4, h⟩ := bind_eq_ok.mp h
  obtain ⟨c5, h5, h⟩ := bind_eq_ok.mp h
  obtain ⟨c6, h6, h⟩ := bind_eq_ok.mp h
  cases h
  have e1 := column_numberOrBase CostValues.salePriceKrw hsale hsaleKrw h1
  have e2 := column_snapshotVat hsale hsaleKrw h2
  have e3 := column_numberOrBase CostValues.productCostKrw hcost hcostKrw h3
  have e4 := column_numberOrBase CostValues.shippingKrw hship hshipKrw h4
  have e5 := column_numberOrBase CostValues.extraCostKrw hextra hextraKrw h5
  have e6 := column_baseFxRate hrate h6
  refine ⟨?_, .cons hsale (.cons hcost (.cons hship (.cons hextra .nil)))⟩
  rw [e1, e2, e3, e4, e5, e6]
  cases base with
  | none | some b => rfl

theorem cpaSnapshot_eq_ok {base : Option CpaValues} {v : CpaValues} (h : cpaSnapshot env body base = .ok v) :
    v = cpaOverlay env body base ∧ ReadsNumbers body ["targetRatio", "watchRatio", "stopRatio"] := by
  obtain ⟨target, htarget, h⟩ := bind_eq_ok.mp h
  obtain ⟨targetRatio, htargetRatio, h⟩ := bind_eq_ok.mp h
  obtain ⟨watch, hwatch, h⟩ := bind_eq_ok.mp h
  obtain ⟨watchRatio, hwatchRatio, h⟩ := bind_eq_ok.mp h
  obtain ⟨stop, hstop, h⟩ := bind_eq_ok.mp h
  obtain ⟨stopRatio, hstopRatio, h⟩ := bind_eq_ok.mp h
  obtain ⟨c1, h1, h⟩ := bind_eq_ok.mp h
  obtain ⟨c2, h2, h⟩ := bind_eq_ok.mp h
  obtain ⟨c3, h3, h⟩ := bind_eq_ok.mp h
  cases h
  have e1 := column_numberOrBase CpaValues.targetRatio htarget htargetRatio h1
  have e2 := column_numberOrBase CpaValues.watchRatio hwatch hwatchRatio h2
  have e3 := column_numberOrBase CpaValues.stopRatio hstop hstopRatio h3
  refine ⟨?_, .cons htarget (.cons hwatch (.cons hstop .nil))⟩
  rw [e1, e2, e3]
  cases base with
  | none | some b => rfl

/-! ## 6. The overlay -/

/-- **A point-in-time overlay.** After any sequence of requests every history is contiguous. A
    failed request changes nothing. A save that returns changes the columns in force of its own
    product from its day to the day before the next start, where they are the columns in force
    on its day under the overlay of its body; every other day and product keeps its columns. -/
structure PointInTime (F : RuleFamily ν) (overlay : RuleEnv → Body → Option ν → ν) : Prop where
  contiguous : ∀ calls p, Contiguous ruleDated (rulesOf p (runCalls F calls))
  failed : ∀ calls env call error, RuleCall.answer F env (runCalls F calls) call = .error error →
    runCalls F (calls ++ [(env, call)]) = runCalls F calls
  saved : ∀ calls env p body next result,
    saveRuleSnapshot F env p body (runCalls F calls) = .ok (next, result) →
    runCalls F (calls ++ [(env, .save p body)]) = next ∧
    ∃ d, startDate body = .ok d ∧ ∀ q e, valuesAt q next e =
      if q = p ∧ d ≤ e ∧ ∀ n ∈ nextStart ruleDated (rulesOf p (runCalls F calls)) d, e < n then
        some (overlay env body (valuesAt p (runCalls F calls) d))
      else valuesAt q (runCalls F calls) e

theorem pointInTime_of_snapshot {overlay : RuleEnv → Body → Option ν → ν}
    (hF : ∀ env body base v, F.snapshot env body base = .ok v → v = overlay env body base) :
    PointInTime F overlay where
  contiguous calls p := (ruleInv_runCalls F calls).histories p
  failed calls env call error h := by
    rw [runCalls_append]
    unfold RuleCall.run
    simp only [h]
  saved calls env p body next result h := by
    have hinv := ruleInv_runCalls F calls
    obtain ⟨hnext, hothers, d, snapshot, hd, hsnap, hover⟩ := saved_overlaid hinv h
    have hrun : runCalls F (calls ++ [(env, .save p body)]) = next := by
      rw [runCalls_append]
      unfold RuleCall.run
      simp only [RuleCall.answer, h]
    refine ⟨hrun, d, hd, fun q e => ?_⟩
    by_cases hq : q = p
    · subst hq
      have hsearch := hover.search_eq
        (fun e r => findEffectiveRuleForDate_eq_some_iff (hinv.histories q) e r)
        (fun e r => findEffectiveRuleForDate_eq_some_iff (hnext.histories q) e r) e
      rw [hF env body _ _ hsnap] at hsearch
      simp only [true_and]
      exact hsearch
    · rw [if_neg fun hc => hq hc.1]
      unfold valuesAt
      rw [hothers q hq]

/-- **Product rules are a point-in-time overlay**, cost rules and CPA rules alike. -/
theorem product_rules_point_in_time :
    PointInTime costFamily costOverlay ∧ PointInTime cpaFamily cpaOverlay :=
  ⟨pointInTime_of_snapshot fun _ _ _ _ h => (costSnapshot_eq_ok h).1,
    pointInTime_of_snapshot fun _ _ _ _ h => (cpaSnapshot_eq_ok h).1⟩

/-- The overlay in which a rate of the body replaces the rate, as the other fields do. -/
def rateOverlay (env : RuleEnv) (body : Body) (inForce : Option CostValues) : CostValues :=
  { costOverlay env body inForce with
    fxRateKrwPerUsd :=
      replacedNumber 4 body "fxRateKrwPerUsd" (costOverlay env body inForce).fxRateKrwPerUsd }

/-- A product with one rule from 2026-06-01 at the rate 1350. -/
def firstSave : RuleEnv × RuleCall :=
  ({ products := [⟨"p", true⟩], latestRate := none, id := "r1", createdAt := 1 },
    .save "p" [("effectiveFrom", .str "2026-06-01"), ("salePriceKrw", .num 38900),
      ("productCostKrw", .num 6000), ("shippingKrw", .num 2800), ("extraCostKrw", .num 0),
      ("fxRateKrwPerUsd", .num 1350)])

def secondEnv : RuleEnv :=
  { products := [⟨"p", true⟩], latestRate := none, id := "r2", createdAt := 2 }

/-- A save from 2026-08-21 with a new price and the rate 1400. -/
def secondBody : Body :=
  [("effectiveFrom", .str "2026-08-21"), ("salePriceKrw", .num 36900), ("fxRateKrwPerUsd", .num 1400)]

/-- **A provided rate is not replaced**: over a base rule it is inherited. -/
theorem provided_rate_inherited : ¬ PointInTime costFamily rateOverlay := by
  intro h
  have hok : (saveRuleSnapshot costFamily secondEnv "p" secondBody
      (runCalls costFamily [firstSave])).isOk = true := by decide +kernel
  cases hs : saveRuleSnapshot costFamily secondEnv "p" secondBody (runCalls costFamily [firstSave]) with
  | error e =>
    rw [hs] at hok
    cases hok
  | ok pair =>
    obtain ⟨next, result⟩ := pair
    obtain ⟨hrun, d, hd, hvalues⟩ := h.saved [firstSave] secondEnv "p" secondBody next result hs
    have hday : startDate secondBody = .ok 20686 := by decide +kernel
    cases hd
    have hnew := hvalues "p" 20686
    rw [← hrun] at hnew
    exact absurd hnew (by decide +kernel)

end AdsManagement.Meta
