/-
  File:      Meta/ProductRuleWrites.lean
  Subject:   WHAT ONE ACCEPTED WRITE OF A RULE STORES: the saved rule stands at its day, every
             other rule of the product where it was, and the ranges are those of the new starts.

  * `Placed` -- the history of the product after a write;
  * `saveRuleSnapshot_placed`, `correctRule_placed` -- a save and a correction that returned;
  * `saveRuleSnapshot_accepts`, `correctRule_accepts` -- when they return;
  * `correctRule_collides_iff` -- when a correction is refused for its day.
-/
import AdsManagement.Meta.ProductRuleHistory

namespace AdsManagement.Meta

open Common Lib List

variable {ν : Type} {F : RuleFamily ν} {rules rules' written : List (ProductRule ν)} {p : String}
  {d : Int}

/-! ## 1. Rows of a history -/

/-- The rows of a history: the ids with their starts. -/
def HasRow (rules : List (ProductRule ν)) (i : String) (s : Int) : Prop :=
  ∃ r ∈ rules, r.id = i ∧ r.effectiveFrom = s

/-- A rule is at its day and the others are where they were. -/
structure Placed (before after : List (ProductRule ν)) (saved : ProductRule ν) (d : Int) : Prop where
  mem : saved ∈ after
  start : saved.effectiveFrom = d
  contiguous : Contiguous ruleDated after
  rows : ∀ i s, HasRow after i s ↔ i = saved.id ∧ s = d ∨ i ≠ saved.id ∧ HasRow before i s

/-- The next start after a day depends on the later starts only. -/
theorem nextStart_of_later {ν' : Type} {l : List (ProductRule ν)} {m : List (ProductRule ν')}
    (h : ∀ s, d < s → ((∃ r ∈ l, r.effectiveFrom = s) ↔ ∃ r ∈ m, r.effectiveFrom = s)) :
    nextStart ruleDated l d = nextStart ruleDated m d := by
  cases e : nextStart ruleDated m d with
  | none =>
    rw [nextStart_eq_none_iff] at e ⊢
    intro r hr
    by_contra hlt
    obtain ⟨s, hs, es⟩ := (h r.effectiveFrom (not_le.mp hlt)).mp ⟨r, hr, rfl⟩
    have : s.effectiveFrom ≤ d := e s hs
    exact hlt (show r.effectiveFrom ≤ d by rw [← es]; exact this)
  | some x =>
    rw [nextStart_eq_some_iff] at e ⊢
    obtain ⟨⟨r, hr, hx, hd⟩, hmin⟩ := e
    obtain ⟨s, hs, es⟩ := (h x hd).mpr ⟨r, hr, hx⟩
    refine ⟨⟨s, hs, es, hd⟩, fun t ht hdt => ?_⟩
    obtain ⟨u, hu, eu⟩ := (h t.effectiveFrom hdt).mp ⟨t, ht, rfl⟩
    have hle := hmin u hu (show d < u.effectiveFrom by rw [eu]; exact hdt)
    show x ≤ t.effectiveFrom
    rw [← eu]
    exact hle

/-- The end of the saved rule: the day before the next start of another rule. -/
theorem Placed.effectiveTo {before after : List (ProductRule ν)} {saved : ProductRule ν}
    (h : Placed before after saved d) :
    saved.effectiveTo =
      (nextStart ruleDated (before.filter fun r => r.id ≠ saved.id) d).map (· - 1) := by
  have hstop : saved.effectiveTo = closedStop ruleDated after saved := h.contiguous.closed saved h.mem
  rw [hstop]
  unfold closedStop
  rw [show ruleDated.start saved = d from h.start]
  congr 1
  refine nextStart_of_later fun s hs => ⟨?_, ?_⟩
  · rintro ⟨r, hr, rfl⟩
    rcases (h.rows _ _).mp ⟨r, hr, rfl, rfl⟩ with ⟨-, he⟩ | ⟨hne, q, hq, hid, hstart⟩
    · omega
    · refine ⟨q, mem_filter.mpr ⟨hq, decide_eq_true ?_⟩, hstart⟩
      rw [hid]
      exact hne
  · rintro ⟨q, hq, rfl⟩
    obtain ⟨hq, hne⟩ := mem_filter.mp hq
    obtain ⟨r, hr, -, hstart⟩ := (h.rows _ _).mpr (.inr ⟨of_decide_eq_true hne, q, hq, rfl, rfl⟩)
    exact ⟨r, hr, hstart⟩

/-! ## 2. The two ways of writing -/

/-- The table as it is before its ranges are rewritten. -/
structure RowWritten (p i : String) (d : Int) (v : ν) (rules written : List (ProductRule ν)) : Prop where
  ids : (written.map (·.id)).Nodup
  dates : ∀ r ∈ written, ReadsBack r.effectiveFrom
  distinct : ((rulesOf p written).map ruleDated.start).Nodup
  row : ∃ r ∈ rulesOf p written, r.id = i ∧ r.effectiveFrom = d ∧ r.values = v
  rows : ∀ j s, HasRow (rulesOf p written) j s ↔ j = i ∧ s = d ∨ j ≠ i ∧ HasRow (rulesOf p rules) j s

variable {c : ProductRule ν} {v : ν}

/-- An update by id that moves a rule to a day on which no other rule of its product starts. -/
theorem HistoryInv.updatedRow (h : HistoryInv p rules) {f : ProductRule ν → ProductRule ν}
    (hc : c ∈ rulesOf p rules) (hd : ReadsBack d)
    (hfree : ∀ r ∈ rulesOf p rules, r.effectiveFrom = d → r.id = c.id) (hid : ∀ r, (f r).id = r.id)
    (hproduct : ∀ r, (f r).productId = r.productId) (hstart : ∀ r, (f r).effectiveFrom = d)
    (hvalues : ∀ r, (f r).values = v) :
    RowWritten p c.id d v rules (updateRule c.id f rules) := by
  have hkeep : ∀ r ∈ rules, (if r.id = c.id then f r else r).productId = r.productId := by
    intro r _
    split
    · exact hproduct r
    · rfl
  have hrules : rulesOf p (updateRule c.id f rules) =
      (rulesOf p rules).map fun r => if r.id = c.id then f r else r := rulesOf_map hkeep p
  have hids : (rules.map fun r => if r.id = c.id then f r else r).map (·.id) = rules.map (·.id) := by
    rw [map_map]
    refine map_congr_left fun r _ => ?_
    simp only [Function.comp_apply]
    split
    · exact hid r
    · rfl
  have hnd : ((rulesOf p rules).map (·.id)).Nodup := h.ids.sublist (filter_sublist.map _)
  refine ⟨by rw [show (updateRule c.id f rules).map (·.id) = rules.map (·.id) from hids]; exact h.ids,
    fun r hr => ?_, ?_, ?_, fun j s => ?_⟩
  · obtain ⟨q, hq, rfl⟩ := mem_map.mp hr
    split
    · rw [hstart]
      exact hd
    · exact h.dates q hq
  · rw [hrules, map_map]
    refine Nodup.map_on (fun a ha b hb hab => ?_) (Nodup.of_map _ hnd)
    refine inj_on_of_nodup_map hnd ha hb ?_
    have hab : (if a.id = c.id then f a else a).effectiveFrom =
        (if b.id = c.id then f b else b).effectiveFrom := hab
    by_cases ha' : a.id = c.id <;> by_cases hb' : b.id = c.id
    · rw [ha', hb']
    · rw [if_pos ha', if_neg hb', hstart] at hab
      exact absurd (hfree b hb hab.symm) hb'
    · rw [if_neg ha', if_pos hb', hstart] at hab
      exact absurd (hfree a ha hab) ha'
    · rw [if_neg ha', if_neg hb'] at hab
      rw [inj_on_of_nodup_map h.contiguous.distinct ha hb hab]
  · rw [hrules]
    refine ⟨_, mem_map_of_mem hc, ?_⟩
    rw [if_pos rfl]
    exact ⟨hid c, hstart c, hvalues c⟩
  · rw [hrules]
    constructor
    · rintro ⟨r, hr, rfl, rfl⟩
      obtain ⟨q, hq, rfl⟩ := mem_map.mp hr
      by_cases e : q.id = c.id
      · rw [if_pos e, hid, hstart]
        exact .inl ⟨e, rfl⟩
      · rw [if_neg e]
        exact .inr ⟨e, q, hq, rfl, rfl⟩
    · rintro (⟨rfl, rfl⟩ | ⟨hne, q, hq, rfl, rfl⟩)
      · refine ⟨_, mem_map_of_mem hc, ?_⟩
        rw [if_pos rfl]
        exact ⟨hid c, hstart c⟩
      · refine ⟨_, mem_map_of_mem hq, ?_⟩
        rw [if_neg hne]
        exact ⟨rfl, rfl⟩

/-- A new row on a day on which no rule of its product starts. -/
theorem HistoryInv.createdRow {rule : ProductRule ν} (h : HistoryInv rule.productId rules)
    (hc : createRule rule rules = .ok written) (hd : ReadsBack rule.effectiveFrom)
    (hfree : ∀ r ∈ rulesOf rule.productId rules, r.effectiveFrom ≠ rule.effectiveFrom) :
    RowWritten rule.productId rule.id rule.effectiveFrom rule.values rules written := by
  obtain ⟨rfl, hfresh⟩ := createRule_eq_ok hc
  refine ⟨?_, fun r hr => ?_, ?_, ?_, fun j s => ?_⟩
  · exact nodup_map_concat h.ids hfresh
  · rcases mem_append.mp hr with hr | hr
    · exact h.dates r hr
    · rw [mem_singleton.mp hr]
      exact hd
  · rw [rulesOf_concat]
    exact nodup_map_concat h.contiguous.distinct hfree
  · rw [rulesOf_concat]
    exact ⟨rule, mem_append_right _ (mem_singleton_self _), rfl, rfl, rfl⟩
  · rw [rulesOf_concat]
    constructor
    · rintro ⟨r, hr, rfl, rfl⟩
      rcases mem_append.mp hr with hr | hr
      · exact .inr ⟨hfresh r (mem_rulesOf.mp hr).1, r, hr, rfl, rfl⟩
      · rw [mem_singleton.mp hr]
        exact .inl ⟨rfl, rfl⟩
    · rintro (⟨rfl, rfl⟩ | ⟨-, q, hq, rfl, rfl⟩)
      · exact ⟨rule, mem_append_right _ (mem_singleton_self _), rfl, rfl⟩
      · exact ⟨q, mem_append_left _ hq, rfl, rfl⟩

/-! ## 3. Ranges and result -/

/-- The columns a result has read back. -/
structure ResultOf (saved : String) (history : List (ProductRule ν)) (result : RuleWriteResult ν) : Prop where
  mem : result.rule ∈ history
  id : result.rule.id = saved
  effectiveTo : result.effectiveTo = result.rule.effectiveTo.map formatDateOnly

variable {result : RuleWriteResult ν} {operation : RuleOperation} {saved : String}

theorem ruleWriteResult_eq_ok (h : ruleWriteResult F p saved operation rules = .ok result) :
    ResultOf saved (rulesOf p rules) result := by
  unfold ruleWriteResult at h
  simp only at h
  split at h
  · cases h
  · rename_i rule e
    cases h
    obtain ⟨hlt, hget⟩ := List.getElem?_eq_some_iff.mp e
    have hfound : (history p rules)[(history p rules).findIdx fun r => r.id = saved].id = saved :=
      of_decide_eq_true (findIdx_getElem (w := hlt))
    refine ⟨?_, ?_, rfl⟩
    · rw [← (perm_history p rules).mem_iff, ← hget]
      exact getElem_mem hlt
    · rw [← hget]
      exact hfound

theorem ruleWriteResult_accepts (operation : RuleOperation) (h : ∃ r ∈ rulesOf p rules, r.id = saved) :
    ∃ result, ruleWriteResult F p saved operation rules = .ok result := by
  obtain ⟨r, hr, hid⟩ := h
  have hlt : ((history p rules).findIdx fun r => r.id = saved) < (history p rules).length :=
    findIdx_lt_length_of_exists ⟨r, (perm_history p rules).mem_iff.mpr hr, decide_eq_true hid⟩
  unfold ruleWriteResult
  simp only
  rw [getElem?_eq_getElem hlt]
  exact ⟨_, rfl⟩

/-- Distinct starts pass the check before the ranges are rewritten. -/
theorem normalizeRuleRanges_accepts (hdates : ∀ r ∈ written, ReadsBack r.effectiveFrom)
    (hnd : ((rulesOf p written).map ruleDated.start).Nodup) :
    ∃ normalized, normalizeRuleRanges F p written = .ok normalized := by
  have hcheck : assertNoDuplicateEffectiveDates _ (F.code ++ "_DUPLICATE_DATES") = .ok () :=
    (assertNoDuplicateEffectiveDates_eq_ok fun r hr => hdates r (mem_history.mp hr).1).mpr
      (((perm_history p written).map ruleDated.start).nodup_iff.mpr hnd)
  unfold normalizeRuleRanges
  rw [hcheck]
  exact ⟨_, rfl⟩

theorem hasRow_closeRules (i : String) (s : Int) :
    HasRow (rulesOf p (closeRules p written)) i s ↔ HasRow (rulesOf p written) i s := by
  rw [rulesOf_closeRules, if_pos rfl]
  constructor
  · rintro ⟨r, hr, hi, hs⟩
    obtain ⟨q, hq, rfl⟩ := mem_map.mp hr
    exact ⟨q, hq, hi, hs⟩
  · rintro ⟨q, hq, hi, hs⟩
    exact ⟨_, mem_map_of_mem hq, hi, hs⟩

/-- **What is stored once the ranges are rewritten**, and what the result says. -/
theorem RowWritten.placed {i : String} (h : RowWritten p i d v rules written)
    (hn : normalizeRuleRanges F p written = .ok rules')
    (hr : ruleWriteResult F p i operation rules' = .ok result) :
    Placed (rulesOf p rules) (rulesOf p rules') result.rule d ∧ result.rule.id = i ∧
      result.rule.values = v ∧ result.effectiveTo = result.rule.effectiveTo.map formatDateOnly := by
  have hresult := ruleWriteResult_eq_ok hr
  obtain ⟨hnd, rfl⟩ := normalizeRuleRanges_eq_ok h.ids h.dates hn
  have hafter : rulesOf p (closeRules p written) =
      (rulesOf p written).map (close ruleDated (rulesOf p written)) := by
    rw [rulesOf_closeRules, if_pos rfl]
  obtain ⟨row, hrow, hid, hstart, hvalues⟩ := h.row
  -- ids are unique, so the rule read back is the one written
  obtain ⟨q, hq, hclosed⟩ := mem_map.mp (hafter ▸ hresult.mem)
  have hqid : q.id = i := by
    rw [← hresult.id, ← hclosed]
    rfl
  have hqrow : q = row := inj_on_of_nodup_map h.ids (mem_rulesOf.mp hq).1
    (mem_rulesOf.mp hrow).1 (hqid.trans hid.symm)
  refine ⟨⟨hresult.mem, ?_, ?_, fun j s => ?_⟩, hresult.id, ?_, hresult.effectiveTo⟩
  · rw [← hclosed, hqrow]
    exact hstart
  · rw [hafter]
    exact contiguous_map_close hnd
  · rw [hasRow_closeRules, h.rows, hresult.id]
  · rw [← hclosed, hqrow]
    exact hvalues

/-! ## 4. Saves -/

/-- The rule of a history at a day. -/
def ruleAt (rules : List (ProductRule ν)) (d : Int) : Option (ProductRule ν) :=
  rules.find? fun r => r.effectiveFrom = d

theorem ruleAt_eq_some_iff (hnd : (rules.map ruleDated.start).Nodup) {r : ProductRule ν} :
    ruleAt rules d = some r ↔ r ∈ rules ∧ r.effectiveFrom = d := by
  unfold ruleAt
  constructor
  · intro e
    exact ⟨mem_of_find?_eq_some e, of_decide_eq_true (find?_some e :)⟩
  · rintro ⟨hr, hd⟩
    cases e : rules.find? fun r => r.effectiveFrom = d with
    | none => exact absurd (decide_eq_true hd) (find?_eq_none.mp e r hr)
    | some s =>
      have hs : s.effectiveFrom = d := of_decide_eq_true (find?_some e :)
      rw [inj_on_of_nodup_map hnd hr (mem_of_find?_eq_some e) (hd.trans hs.symm)]

theorem ruleAt_perm {l : List (ProductRule ν)} (hp : l.Perm rules) (hnd : (rules.map ruleDated.start).Nodup)
    (d : Int) : ruleAt l d = ruleAt rules d := by
  have hndl : (l.map ruleDated.start).Nodup := ((hp.map _).nodup_iff).mpr hnd
  refine Option.ext fun r => ?_
  rw [ruleAt_eq_some_iff hnd, ruleAt_eq_some_iff hndl, hp.mem_iff]

variable {env : RuleEnv}

theorem HistoryInv.writeRow (h : HistoryInv p rules) {snapshot : ν} (hd : ReadsBack d)
    (hw : Meta.writeSnapshot env p (ruleAt (history p rules) d) d snapshot rules = .ok (saved, operation, written)) :
    RowWritten p saved d snapshot rules written ∧
      (∀ r, ruleAt (rulesOf p rules) d = some r → saved = r.id) ∧
      (ruleAt (rulesOf p rules) d = none → ∀ r ∈ rulesOf p rules, r.id ≠ saved) := by
  rw [ruleAt_perm (perm_history p rules) h.contiguous.distinct] at hw
  cases e : ruleAt (rulesOf p rules) d with
  | some same =>
    rw [e] at hw
    cases hw
    obtain ⟨hs, hsd⟩ := (ruleAt_eq_some_iff h.contiguous.distinct).mp e
    refine ⟨h.updatedRow hs hd (fun r hr hrd => ?_) (fun _ => rfl) (fun _ => rfl) (fun _ => rfl)
      (fun _ => rfl), fun r hr => by rw [Option.some.inj hr], fun hn => by cases hn⟩
    rw [inj_on_of_nodup_map h.contiguous.distinct hr hs (hrd.trans hsd.symm)]
  | none =>
    rw [e] at hw
    obtain ⟨table, hc, hw⟩ := bind_eq_ok.mp hw
    cases hw
    refine ⟨HistoryInv.createdRow h hc hd fun r hr hrd => ?_, fun r hr => (by cases hr),
      fun _ r hr hid => ?_⟩
    · rw [(ruleAt_eq_some_iff h.contiguous.distinct).mpr ⟨hr, hrd⟩] at e
      cases e
    · unfold createRule at hc
      split at hc
      · cases hc
      · rename_i hany
        exact hany (any_eq_true.mpr ⟨r, (mem_rulesOf.mp hr).1, decide_eq_true hid⟩)

variable {body : Body}

/-- **A save that returned.** -/
theorem saveRuleSnapshot_placed (h : HistoryInv p rules)
    (hs : saveRuleSnapshot F env p body rules = .ok (rules', result)) :
    ∃ d, startDate body = .ok d ∧ Placed (rulesOf p rules) (rulesOf p rules') result.rule d ∧
      F.snapshot env body ((findEffectiveRuleForDate (rulesOf p rules) d).map (·.values)) =
        .ok result.rule.values ∧
      (∀ r, ruleAt (rulesOf p rules) d = some r → result.rule.id = r.id) ∧
      (ruleAt (rulesOf p rules) d = none → ∀ r ∈ rulesOf p rules, r.id ≠ result.rule.id) ∧
      result.effectiveTo = result.rule.effectiveTo.map formatDateOnly := by
  obtain ⟨_, -, hs⟩ := bind_eq_ok.mp hs
  obtain ⟨_, -, hs⟩ := bind_eq_ok.mp hs
  obtain ⟨d, hd, hs⟩ := bind_eq_ok.mp hs
  obtain ⟨_, -, hs⟩ := bind_eq_ok.mp hs
  obtain ⟨_, -, hs⟩ := bind_eq_ok.mp hs
  obtain ⟨_, -, hs⟩ := bind_eq_ok.mp hs
  obtain ⟨snapshot, hsnap, hs⟩ := bind_eq_ok.mp hs
  obtain ⟨⟨saved, operation, written⟩, hw, hs⟩ := bind_eq_ok.mp hs
  obtain ⟨normalized, hn, hs⟩ := bind_eq_ok.mp hs
  obtain ⟨result', hr, hs⟩ := bind_eq_ok.mp hs
  cases hs
  obtain ⟨hwritten, hsame, hfresh⟩ := h.writeRow (readsBack_of_startDate hd) hw
  obtain ⟨hplaced, hid, hvalues, hto⟩ := hwritten.placed hn hr
  rw [h.baseRule_eq] at hsnap
  refine ⟨d, hd, hplaced, ?_, ?_, ?_, hto⟩
  · rw [hvalues]
    exact hsnap
  · rw [hid]
    exact hsame
  · rw [hid]
    exact hfresh

variable {product : Product}

variable {v : ν} in
/-- The table with a written row can be normalized, and the row is found in it. -/
theorem RowWritten.accepts {i : String} (h : RowWritten p i d v rules written) (operation : RuleOperation) :
    ∃ normalized result, normalizeRuleRanges F p written = .ok normalized ∧
      ruleWriteResult F p i operation normalized = .ok result := by
  obtain ⟨normalized, hn⟩ := normalizeRuleRanges_accepts (F := F) h.dates h.distinct
  obtain ⟨-, hclosed⟩ := normalizeRuleRanges_eq_ok h.ids h.dates hn
  have hrow : ∃ r ∈ rulesOf p normalized, r.id = i := by
    obtain ⟨r, hr, hid, hs, -⟩ := h.row
    obtain ⟨q, hq, hqid, -⟩ := (hasRow_closeRules i d).mpr ⟨r, hr, hid, hs⟩
    exact ⟨q, hclosed ▸ hq, hqid⟩
  obtain ⟨result, hresult⟩ := ruleWriteResult_accepts (F := F) operation hrow
  exact ⟨normalized, result, hn, hresult⟩

/-- **When a save returns**: an active product, a field of a snapshot, a date, columns that fit,
    a fresh id. -/
theorem saveRuleSnapshot_accepts (h : HistoryInv p rules)
    (hmanaged : hasProvidedField body "effectiveTo" = false)
    (hfield : F.snapshotFields.any (hasProvidedField body) = true) (hd : startDate body = .ok d)
    (hproduct : env.products.find? (fun q => q.id = p) = some product) (hactive : product.isActive = true)
    (hfirst : findEffectiveRuleForDate (rulesOf p rules) d = none →
      ∀ field ∈ F.requiredFirstSnapshotFields, hasProvidedField body field = true)
    (hsnap : F.snapshot env body ((findEffectiveRuleForDate (rulesOf p rules) d).map (·.values)) = .ok v)
    (hfresh : ∀ r ∈ rules, r.id ≠ env.id) :
    ∃ rules' result, saveRuleSnapshot F env p body rules = .ok (rules', result) := by
  have hread := readsBack_of_startDate hd
  have hcheck : assertNoDuplicateEffectiveDates _ (F.code ++ "_DUPLICATE_DATES") = .ok () :=
    (assertNoDuplicateEffectiveDates_eq_ok fun r hr => h.dates r (mem_history.mp hr).1).mpr
      (((perm_history p rules).map ruleDated.start).nodup_iff.mpr h.contiguous.distinct)
  have hbase := h.baseRule_eq d
  have hrequired : assertBaseOrRequiredFields F body (findEffectiveRuleForDate (rulesOf p rules) d) =
      .ok () := by
    cases e : findEffectiveRuleForDate (rulesOf p rules) d with
    | some r => rfl
    | none =>
      unfold assertBaseOrRequiredFields assertRequiredFields
      rw [if_pos]
      refine filter_eq_nil_iff.mpr fun field hf => ?_
      rw [hfirst e field hf]
      decide
  obtain ⟨saved, operation, written, hw⟩ : ∃ saved operation written,
      writeSnapshot env p (ruleAt (history p rules) d) d v rules = .ok (saved, operation, written) := by
    cases ruleAt (history p rules) d with
    | some same => exact ⟨_, _, _, rfl⟩
    | none =>
      unfold writeSnapshot createRule
      rw [if_neg]
      · exact ⟨_, _, _, rfl⟩
      · intro hany
        obtain ⟨r, hr, hid⟩ := any_eq_true.mp hany
        exact hfresh r hr (of_decide_eq_true hid)
  obtain ⟨hwritten, -, -⟩ := h.writeRow hread hw
  obtain ⟨normalized, result, hn, hresult⟩ := hwritten.accepts (F := F) operation
  refine ⟨normalized, result, ?_⟩
  unfold saveRuleSnapshot assertServerManagedEffectiveTo assertAtLeastOneField
    assertActiveProductWithClient assertProductWithClient
  rw [hmanaged, hfield, hproduct]
  refine bind_eq_ok.mpr ⟨(), rfl, bind_eq_ok.mpr ⟨(), rfl, bind_eq_ok.mpr ⟨d, hd, ?_⟩⟩⟩
  refine bind_eq_ok.mpr ⟨product, ?_, bind_eq_ok.mpr ⟨(), hcheck, ?_⟩⟩
  · show (if !product.isActive then _ else Except.ok product) = _
    rw [hactive]
    rfl
  · refine bind_eq_ok.mpr ⟨(), by rw [hbase]; exact hrequired, bind_eq_ok.mpr ⟨v, by rw [hbase]; exact hsnap, ?_⟩⟩
    exact bind_eq_ok.mpr ⟨_, hw, bind_eq_ok.mpr ⟨_, hn, bind_eq_ok.mpr ⟨_, hresult, rfl⟩⟩⟩

/-! ## 5. Corrections -/

/-- Another rule of the product starts on a day. -/
def Collides (p ruleId : String) (rules : List (ProductRule ν)) (d : Int) : Prop :=
  ∃ r ∈ rulesOf p rules, r.id ≠ ruleId ∧ r.effectiveFrom = d

theorem collides_iff {ruleId : String} :
    (rules.any fun r => r.productId = p && r.effectiveFrom = d && r.id ≠ ruleId) = true ↔
      Collides p ruleId rules d := by
  simp only [any_eq_true, Bool.and_eq_true, decide_eq_true_eq]
  constructor
  · rintro ⟨r, hr, ⟨hp, hd⟩, hne⟩
    exact ⟨r, mem_rulesOf.mpr ⟨hr, hp⟩, hne, hd⟩
  · rintro ⟨r, hr, hne, hd⟩
    obtain ⟨hr, hp⟩ := mem_rulesOf.mp hr
    exact ⟨r, hr, ⟨hp, hd⟩, hne⟩

/-- The row a correction writes. -/
theorem HistoryInv.correctRow (h : HistoryInv p rules) (hc : c ∈ rulesOf p rules) (hd : ReadsBack d)
    (hfree : ¬ Collides p c.id rules d) :
    RowWritten p c.id d v rules
      (updateRule c.id (fun r => { r with values := v, effectiveFrom := d }) rules) := by
  refine h.updatedRow hc hd (fun r hr hrd => ?_) (fun _ => rfl) (fun _ => rfl) (fun _ => rfl)
    (fun _ => rfl)
  by_contra hne
  exact hfree ⟨r, hr, hne, hrd⟩

theorem readsBack_of_startDateOr {old : Int} (ho : ReadsBack old) (h : startDateOr body old = .ok d) :
    ReadsBack d := by
  unfold startDateOr at h
  split at h
  · exact readsBack_of_startDate h
  · cases h
    exact ho

/-- **A correction that returned.** -/
theorem correctRule_placed (h : HistoryInv p rules) (hc : c ∈ rulesOf p rules)
    (hs : correctRule F env p c.id body rules = .ok (rules', result)) :
    ∃ d, startDateOr body c.effectiveFrom = .ok d ∧ ¬ Collides p c.id rules d ∧
      Placed (rulesOf p rules) (rulesOf p rules') result.rule d ∧ result.rule.id = c.id ∧
      F.correction body c.values = .ok result.rule.values ∧
      result.effectiveTo = result.rule.effectiveTo.map formatDateOnly := by
  obtain ⟨hmem, hp⟩ := mem_rulesOf.mp hc
  obtain ⟨_, -, hs⟩ := bind_eq_ok.mp hs
  obtain ⟨_, -, hs⟩ := bind_eq_ok.mp hs
  obtain ⟨_, -, hs⟩ := bind_eq_ok.mp hs
  split at hs
  case h_1 => cases hs
  case h_2 existing hfind =>
    have hid : existing.id = c.id := of_decide_eq_true (find?_some hfind :)
    obtain rfl : existing = c := inj_on_of_nodup_map h.ids (mem_of_find?_eq_some hfind) hmem hid
    split at hs
    case isTrue hne => exact absurd hp hne
    case isFalse =>
      obtain ⟨d, hd, hs⟩ := bind_eq_ok.mp hs
      split at hs
      case isTrue => cases hs
      case isFalse hany =>
        obtain ⟨corrected, hcor, hs⟩ := bind_eq_ok.mp hs
        obtain ⟨normalized, hn, hs⟩ := bind_eq_ok.mp hs
        obtain ⟨result', hr, hs⟩ := bind_eq_ok.mp hs
        cases hs
        have hfree : ¬ Collides p existing.id rules d := fun hcol => hany (collides_iff.mpr hcol)
        have hwritten := h.correctRow (v := corrected) hc
          (readsBack_of_startDateOr (h.dates _ hmem) hd) hfree
        obtain ⟨hplaced, hid', hvalues, hto⟩ := hwritten.placed hn hr
        exact ⟨d, hd, hfree, hplaced, hid', by rw [hvalues]; exact hcor, hto⟩

section Correction

variable (h : HistoryInv p rules) (hc : c ∈ rulesOf p rules)
  (hmanaged : hasProvidedField body "effectiveTo" = false)
  (hfield : F.correctionFields.any (hasProvidedField body) = true)
  (hd : startDateOr body c.effectiveFrom = .ok d)
  (hproduct : env.products.find? (fun q => q.id = p) = some product)
include h hc hmanaged hfield hd hproduct

/-- A correction of a rule of the product, up to the check of its day. -/
theorem correctRule_eq :
    correctRule F env p c.id body rules =
      if (rules.any fun r => r.productId = p && r.effectiveFrom = d && r.id ≠ c.id) = true then
        refuse (F.code ++ "_DATE_EXISTS") F.dateExists
      else do
        let corrected ← F.correction body c.values
        let normalized ← normalizeRuleRanges F p (updateRule c.id
          (fun r => { r with values := corrected, effectiveFrom := d }) rules)
        let result ← ruleWriteResult F p c.id .corrected normalized
        return (normalized, result) := by
  obtain ⟨hmem, hp⟩ := mem_rulesOf.mp hc
  have hfind : rules.find? (fun r => r.id = c.id) = some c := by
    cases e : rules.find? (fun r => r.id = c.id) with
    | none => exact absurd (decide_eq_true rfl) (find?_eq_none.mp e c hmem)
    | some r =>
      have hid : r.id = c.id := of_decide_eq_true (find?_some e :)
      rw [inj_on_of_nodup_map h.ids (mem_of_find?_eq_some e) hmem hid]
  unfold correctRule assertServerManagedEffectiveTo assertAtLeastOneField assertProductWithClient
  rw [hmanaged, hfield, hproduct, hfind]
  show (if c.productId ≠ p then _ else _) = _
  rw [if_neg (not_not.mpr hp), hd]
  rfl

/-- **When a correction returns.** -/
theorem correctRule_accepts (hfree : ¬ Collides p c.id rules d) (hcor : F.correction body c.values = .ok v) :
    ∃ rules' result, correctRule F env p c.id body rules = .ok (rules', result) := by
  have hread := readsBack_of_startDateOr (h.dates c (mem_rulesOf.mp hc).1) hd
  have hwritten := h.correctRow (v := v) hc hread hfree
  obtain ⟨normalized, result, hn, hresult⟩ := hwritten.accepts (F := F) .corrected
  refine ⟨normalized, result, ?_⟩
  rw [correctRule_eq h hc hmanaged hfield hd hproduct, if_neg fun hany => hfree (collides_iff.mp hany)]
  exact bind_eq_ok.mpr ⟨v, hcor, bind_eq_ok.mpr ⟨_, hn, bind_eq_ok.mpr ⟨_, hresult, rfl⟩⟩⟩

/-- **A correction is refused for its day exactly when another rule starts on it.** -/
theorem correctRule_collides_iff
    (hother : ∀ e, F.correction body c.values = .error e → e.code ≠ F.code ++ "_DATE_EXISTS") :
    (∃ e, correctRule F env p c.id body rules = .error e ∧ e.code = F.code ++ "_DATE_EXISTS") ↔
      Collides p c.id rules d := by
  constructor
  · rintro ⟨e, he, hcode⟩
    by_contra hfree
    cases hcor : F.correction body c.values with
    | error e' =>
      rw [correctRule_eq h hc hmanaged hfield hd hproduct,
        if_neg fun hany => hfree (collides_iff.mp hany), hcor] at he
      cases he
      exact hother _ hcor hcode
    | ok v =>
      obtain ⟨_, _, hok⟩ := correctRule_accepts h hc hmanaged hfield hd hproduct hfree hcor
      rw [hok] at he
      cases he
  · intro hcol
    rw [correctRule_eq h hc hmanaged hfield hd hproduct, if_pos (collides_iff.mpr hcol)]
    exact ⟨_, rfl, rfl⟩

end Correction

/-! ## 6. The columns of a correction -/

section Columns

variable {s precision : Nat} {field : String}

theorem columnOr_eq_ok {old x : Scaled s} {q : Option ℚ} (hq : decimalIfPresent body field = .ok q)
    (h : columnOr precision s q old = .ok x) : x = replacedNumber s body field old := by
  unfold replacedNumber
  rw [decimalIfPresent_eq_ok hq]
  cases q with
  | none => exact (Except.ok.inj h).symm
  | some q => exact column_eq_ok h

theorem costCorrection_eq_ok {old v : CostValues} (h : costCorrection body old = .ok v) :
    v = correctedCost body old ∧
      ReadsNumbers body ["salePriceKrw", "productCostKrw", "shippingKrw", "extraCostKrw"] := by
  obtain ⟨sale, hsale, h⟩ := bind_eq_ok.mp h
  obtain ⟨cost, hcost, h⟩ := bind_eq_ok.mp h
  obtain ⟨ship, hship, h⟩ := bind_eq_ok.mp h
  obtain ⟨extra, hextra, h⟩ := bind_eq_ok.mp h
  obtain ⟨rate, hrate, h⟩ := bind_eq_ok.mp h
  obtain ⟨c1, h1, h⟩ := bind_eq_ok.mp h
  obtain ⟨c2, h2, h⟩ := bind_eq_ok.mp h
  obtain ⟨c3, h3, h⟩ := bind_eq_ok.mp h
  obtain ⟨c4, h4, h⟩ := bind_eq_ok.mp h
  obtain ⟨c5, h5, h⟩ := bind_eq_ok.mp h
  obtain ⟨c6, h6, h⟩ := bind_eq_ok.mp h
  cases h
  have hvat : c2 = recomputedVat body old.vatKrw := by
    unfold recomputedVat
    rw [decimalIfPresent_eq_ok hsale]
    cases sale with
    | none => exact (Except.ok.inj h2).symm
    | some q =>
      rw [column_eq_ok h2]
      exact congrArg (Scaled.ofRat 2) (mul_one_div q 10)
  refine ⟨?_, .cons hsale (.cons hcost (.cons hship (.cons hextra .nil)))⟩
  rw [columnOr_eq_ok hsale h1, hvat, columnOr_eq_ok hcost h3, columnOr_eq_ok hship h4,
    columnOr_eq_ok hextra h5, columnOr_eq_ok hrate h6]
  rfl

theorem cpaCorrection_eq_ok {old v : CpaValues} (h : cpaCorrection body old = .ok v) :
    v = correctedCpa body old ∧ ReadsNumbers body ["targetRatio", "watchRatio", "stopRatio"] := by
  obtain ⟨target, htarget, h⟩ := bind_eq_ok.mp h
  obtain ⟨watch, hwatch, h⟩ := bind_eq_ok.mp h
  obtain ⟨stop, hstop, h⟩ := bind_eq_ok.mp h
  obtain ⟨c1, h1, h⟩ := bind_eq_ok.mp h
  obtain ⟨c2, h2, h⟩ := bind_eq_ok.mp h
  obtain ⟨c3, h3, h⟩ := bind_eq_ok.mp h
  cases h
  refine ⟨?_, .cons htarget (.cons hwatch (.cons hstop .nil))⟩
  rw [columnOr_eq_ok htarget h1, columnOr_eq_ok hwatch h2, columnOr_eq_ok hstop h3]
  rfl

end Columns

end AdsManagement.Meta
