/-
  File:      Web/RuleForms.lean
  Subject:   THE RULE FORMS PREDICT THE SERVICE: the preview names what a write does, and the body
             the form sends, which holds only what differs from the basis, stores the draft.

  Cost rules and CPA rules differ in their columns; a `RuleForm` holds what the form of a family
  is made of. A write is a save, or the correction of a listed rule.

  * `previewAgrees` -- basis, end and impact of a write that returned;
  * `costForm`, `cpaForm` -- the two forms;
  * `payload_stores`, `payload_accepts` -- what the body of a draft stores, and when;
  * `rule_preview_predicts` -- all of it, for both families.

  A column keeps two decimals of an amount and four of a ratio, and a body without a changed
  value is refused (`draft_rounded_or_refused`).
-/
import AdsManagement.Web.PreviewedHistory
import AdsManagement.Web.RulePayloads

namespace AdsManagement.Web

open Common Lib Meta List

/-! ## 1. Writes -/

variable {ν κ τ : Type} {F : RuleFamily ν} {rules rules' H : List (ProductRule ν)} {p : String}
  {corrected : Option (ProductRule ν)} {d t : Int}

/-- The request of a form: a save, or the correction of a rule. -/
def ruleWrite (F : RuleFamily ν) (env : RuleEnv) (p : String) (corrected : Option (ProductRule ν))
    (body : Body) (rules : List (ProductRule ν)) :
    Except RuleError (List (ProductRule ν) × RuleWriteResult ν) :=
  match corrected with
  | none => saveRuleSnapshot F env p body rules
  | some c => correctRule F env p c.id body rules

/-- The day a request is for. -/
def writeStart (corrected : Option (ProductRule ν)) (body : Body) : Except RuleError Int :=
  match corrected with
  | none => startDate body
  | some c => startDateOr body c.effectiveFrom

/-- The rule whose columns a write starts from. -/
def inheritedRule (p : String) (rules : List (ProductRule ν)) (corrected : Option (ProductRule ν))
    (d : Int) : Option (ProductRule ν) :=
  corrected.or (((history p rules).find? fun r => r.effectiveFrom = d).or
    (latestRuleAtOrBefore (history p rules) d))

theorem inheritedRule_eq (h : HistoryInv p rules) :
    inheritedRule p rules corrected d = corrected.or (findEffectiveRuleForDate (rulesOf p rules) d) := by
  unfold inheritedRule
  rw [h.baseRule_eq]

/-- The history of a product as it is shown: a listing of its rules, in whatever order. -/
structure Listed (p : String) (rules H : List (ProductRule ν)) : Prop extends HistoryInv p rules where
  uuids : ∀ r ∈ rules, isUuid ['4'] r.id = true
  perm : H.Perm (rulesOf p rules)

theorem Listed.mem_iff (h : Listed p rules H) {r : ProductRule ν} : r ∈ H ↔ r ∈ rulesOf p rules :=
  h.perm.mem_iff

theorem Listed.history (h : Listed p rules H) : ListedHistory H where
  ids := ((h.perm.map _).nodup_iff).mpr (h.ids.sublist (filter_sublist.map _))
  uuids r hr := h.uuids r (mem_rulesOf.mp (h.mem_iff.mp hr)).1
  dates r hr := h.dates r (mem_rulesOf.mp (h.mem_iff.mp hr)).1
  contiguous := h.contiguous.perm h.perm

theorem Listed.inForce_eq (h : Listed p rules H) (d : Int) :
    findEffectiveRuleForDate H d = findEffectiveRuleForDate (rulesOf p rules) d := by
  refine Option.ext fun r => ?_
  rw [findEffectiveRuleForDate_eq_some_iff h.history.contiguous,
    findEffectiveRuleForDate_eq_some_iff h.contiguous, latestAt_perm h.perm]

variable {result : RuleWriteResult ν} {env : RuleEnv} {body : Body}

/-- What a write that returned has done to the history. -/
theorem ruleWrite_placed (h : Listed p rules H) (hc : ∀ c ∈ corrected, c ∈ H)
    (hw : ruleWrite F env p corrected body rules = .ok (rules', result)) :
    ∃ d, writeStart corrected body = .ok d ∧
      Placed (rulesOf p rules) (rulesOf p rules') result.rule d ∧
      (∀ r ∈ corrected.or (ruleAt H d), result.rule.id = r.id) ∧
      (corrected.or (ruleAt H d) = none → ∀ r ∈ H, r.id ≠ result.rule.id) ∧
      result.effectiveTo = result.rule.effectiveTo.map formatDateOnly := by
  cases corrected with
  | none =>
    obtain ⟨d, hd, hplaced, -, hsame, hfresh, hto⟩ := saveRuleSnapshot_placed h.toHistoryInv hw
    rw [← ruleAt_perm h.perm h.contiguous.distinct] at hsame hfresh
    exact ⟨d, hd, hplaced, hsame, fun hn r hr => hfresh hn r (h.mem_iff.mp hr), hto⟩
  | some c =>
    obtain ⟨d, hd, -, hplaced, hid, -, hto⟩ :=
      correctRule_placed h.toHistoryInv (h.mem_iff.mp (hc c rfl)) hw
    exact ⟨d, hd, hplaced, fun r hr => by rw [hid, Option.some.inj hr], fun hn => (by cases hn), hto⟩

/-! ## 2. The preview and the write -/

/-- The preview of a write and the write agree. -/
structure Agrees (texts : ν → κ) (base : Option (ProductRule ν)) (t : Int)
    (before after : List (ProductRule ν)) (preview : MetaProductRuleHistoryPreview κ)
    (result : RuleWriteResult ν) : Prop where
  stored : result.rule ∈ after
  basis : preview.basisRule = base.map (ruleJson texts)
  effectiveTo : preview.expectedEffectiveTo = result.rule.effectiveTo.map formatDateOnly
  returned : preview.expectedEffectiveTo = result.effectiveTo
  impact : preview.currentValueImpact = .current ↔
    ChangesCurrent ((findEffectiveRuleForDate before t).map (·.id))
      ((findEffectiveRuleForDate after t).map (·.id)) result.rule.id

theorem hasRow_perm {l m : List (ProductRule ν)} (hp : l.Perm m) {i : String} {s : Int} :
    HasRow l i s ↔ HasRow m i s := by
  unfold HasRow
  simp only [hp.mem_iff]

variable {saved : String}

/-- The rules that a write leaves alone start on other days. -/
theorem others_rows (h : ListedHistory H) (hid : ∀ r ∈ corrected.or (ruleAt H d), saved = r.id)
    (hfresh : corrected.or (ruleAt H d) = none → ∀ r ∈ H, r.id ≠ saved)
    (hfree : ∀ r ∈ others H corrected, corrected.isSome → r.effectiveFrom ≠ d) (i : String) (s : Int) :
    HasRow (others H corrected) i s ∧ s ≠ d ↔ i ≠ saved ∧ HasRow H i s := by
  constructor
  · rintro ⟨⟨r, hr, rfl, rfl⟩, hne⟩
    refine ⟨fun e => ?_, r, mem_of_mem_others hr, rfl, rfl⟩
    cases hcor : corrected with
    | some c =>
      rw [hcor] at hr hid
      have := of_decide_eq_true (mem_filter.mp hr).2
      exact this (e.trans (hid c rfl))
    | none =>
      rw [hcor] at hr hid hfresh
      cases hat : ruleAt H d with
      | none => exact hfresh hat r hr e
      | some q =>
        obtain ⟨hq, hqd⟩ := (ruleAt_eq_some_iff h.contiguous.distinct).mp hat
        have hrq := inj_on_of_nodup_map h.ids hr hq (e.trans (hid q hat))
        rw [hrq] at hne
        exact hne hqd
  · rintro ⟨hne, r, hr, rfl, rfl⟩
    cases hcor : corrected with
    | some c =>
      rw [hcor] at hid hfree
      have hmem : r ∈ others H (some c) :=
        mem_filter.mpr ⟨hr, decide_eq_true fun e => hne (e.trans (hid c rfl).symm)⟩
      exact ⟨⟨r, hmem, rfl, rfl⟩, hfree r hmem rfl⟩
    | none =>
      rw [hcor] at hid
      refine ⟨⟨r, hr, rfl, rfl⟩, fun hrd => hne ?_⟩
      have hat := (ruleAt_eq_some_iff h.contiguous.distinct).mpr ⟨hr, hrd⟩
      exact (hid r hat).symm

/-- The browser calls a rule that is not there yet by an id of its own; the answer is the same. -/
theorem changesCurrent_renamed {before after : Option String} {shown : String}
    (h : shown = saved ∨ (before ≠ some shown ∧ before ≠ some saved ∧ after ≠ some shown)) :
    ChangesCurrent before (after.map fun i => if i = saved then shown else i) shown ↔
      ChangesCurrent before after saved := by
  rcases h with rfl | ⟨hb, hb', ha⟩
  · have e : after.map (fun i => if i = shown then shown else i) = after := by
      cases after with
      | none => rfl
      | some i =>
        simp only [Option.map_some]
        split
        · next e => rw [e]
        · rfl
    rw [e]
  · cases after with
    | none =>
      constructor
      · rintro (h | h | h)
        · exact absurd h hb
        · cases h
        · exact .inr (.inr h)
      · rintro (h | h | h)
        · exact absurd h hb'
        · cases h
        · exact .inr (.inr h)
    | some i =>
      simp only [Option.map_some]
      by_cases e : i = saved
      · rw [if_pos e, e]
        exact iff_of_true (.inr (.inl rfl)) (.inr (.inl rfl))
      · rw [if_neg e]
        have h1 : (some i : Option String) ≠ some saved := fun h => e (Option.some.inj h)
        constructor
        · rintro (h | h | h)
          · exact absurd h hb
          · exact absurd h ha
          · exact .inr (.inr h)
        · rintro (h | h | h)
          · exact absurd h hb'
          · exact absurd h h1
          · exact .inr (.inr h)

/-- **The preview of a write names what the write does.** -/
theorem previewAgrees (texts : ν → κ) (h : Listed p rules H) (hc : ∀ c ∈ corrected, c ∈ H)
    {preview : MetaProductRuleHistoryPreview κ} (hp : Previewed texts H corrected d t preview)
    (hd : writeStart corrected body = .ok d)
    (hw : ruleWrite F env p corrected body rules = .ok (rules', result)) :
    Agrees texts (inheritedRule p rules corrected d) t (rulesOf p rules) (rulesOf p rules')
      preview result := by
  obtain ⟨d', hd', hplaced, hid, hfresh, hto⟩ := ruleWrite_placed h hc hw
  obtain rfl : d' = d := Except.ok.inj (hd'.symm.trans hd)
  have hH := h.history
  have hfree : ∀ r ∈ others H corrected, corrected.isSome → r.effectiveFrom ≠ d' := by
    intro r hr hsome
    cases corrected with
    | none => cases hsome
    | some c =>
      obtain ⟨d'', hd'', hcol, -⟩ :=
        correctRule_placed h.toHistoryInv (h.mem_iff.mp (hc c rfl)) hw
      obtain rfl : d'' = d' := Except.ok.inj (hd''.symm.trans hd)
      intro hrd
      obtain ⟨hr, hne⟩ := mem_filter.mp hr
      exact hcol ⟨r, h.mem_iff.mp hr, of_decide_eq_true hne, hrd⟩
  have hothers := others_rows hH hid hfresh hfree
  have hnocol : preview.dateCollisionRule = none := by
    rw [hp.collision]
    cases corrected with
    | none => rfl
    | some c =>
      rw [hp.sameDate]
      cases e : ruleAt (others H (some c)) d' with
      | none => rfl
      | some r =>
        obtain ⟨hr, hrd⟩ := (ruleAt_eq_some_iff (distinct_others hH _)).mp e
        exact absurd hrd (hfree r hr rfl)
  have hend : preview.expectedEffectiveTo = result.rule.effectiveTo.map formatDateOnly := by
    rw [hp.expected, hplaced.effectiveTo, Option.map_map]
    congr 1
    refine nextStart_of_later fun s hs => ⟨?_, ?_⟩
    · rintro ⟨r, hr, rfl⟩
      obtain ⟨hne, q, hq, hqi, hqs⟩ := (hothers r.id r.effectiveFrom).mp ⟨⟨r, hr, rfl, rfl⟩, by omega⟩
      refine ⟨q, mem_filter.mpr ⟨h.mem_iff.mp hq, decide_eq_true ?_⟩, hqs⟩
      rw [hqi]
      exact hne
    · rintro ⟨q, hq, rfl⟩
      obtain ⟨hq, hne⟩ := mem_filter.mp hq
      obtain ⟨⟨r, hr, -, hrs⟩, -⟩ := (hothers q.id q.effectiveFrom).mpr
        ⟨of_decide_eq_true hne, q, h.mem_iff.mpr hq, rfl, rfl⟩
      exact ⟨r, hr, hrs⟩
  refine ⟨hplaced.mem, ?_, hend, hend.trans hto.symm, ?_⟩
  · rw [hp.basis, inheritedRule_eq h.toHistoryInv, h.inForce_eq]
  · obtain ⟨K, hK, hrows, himpact⟩ := hp.after
    rw [himpact hnocol, h.inForce_eq]
    let shown := ((corrected.or (ruleAt H d')).map (·.id)).getD previewRuleId
    -- the rows of the browser are those of the service, the saved rule apart
    have hshown : ∀ i s, HasRow K i s ↔
        ∃ j, (if j = result.rule.id then shown else j) = i ∧ HasRow (rulesOf p rules') j s := by
      intro i s
      rw [hrows, hothers, hasRow_perm h.perm]
      simp only [hplaced.rows]
      constructor
      · rintro (⟨rfl, rfl⟩ | ⟨hne, hrow⟩)
        · exact ⟨_, if_pos rfl, .inl ⟨rfl, rfl⟩⟩
        · exact ⟨i, if_neg hne, .inr ⟨hne, hrow⟩⟩
      · rintro ⟨j, hj, ⟨rfl, rfl⟩ | ⟨hne, hrow⟩⟩
        · rw [if_pos rfl] at hj
          exact .inl ⟨hj.symm, rfl⟩
        · rw [if_neg hne] at hj
          rw [← hj]
          exact .inr ⟨hne, hrow⟩
    have hren := inForce_renamed hK hplaced.contiguous _ hshown t
    have e : (findEffectiveRuleForDate (rulesOf p rules') t).map
        (fun r => if r.id = result.rule.id then shown else r.id) =
          ((findEffectiveRuleForDate (rulesOf p rules') t).map (·.id)).map
            fun i => if i = result.rule.id then shown else i := by
      rw [Option.map_map]
      rfl
    have huuid : ∀ i s, HasRow (rulesOf p rules) i s → i ≠ previewRuleId := by
      rintro _ _ ⟨r, hr, rfl, -⟩
      exact previewRuleId_ne (h.uuids r (mem_rulesOf.mp hr).1)
    have hbefore : ∀ i, (findEffectiveRuleForDate (rulesOf p rules) t).map (·.id) = some i →
        ∃ s, HasRow (rulesOf p rules) i s := by
      intro i hb
      obtain ⟨r, hr, hri⟩ := Option.map_eq_some_iff.mp hb
      have hl := (findEffectiveRuleForDate_eq_some_iff h.contiguous t r).mp hr
      exact ⟨_, r, hl.mem, hri, rfl⟩
    rw [hren, e]
    refine changesCurrent_renamed ?_
    cases hat : corrected.or (ruleAt H d') with
    | some r =>
      refine .inl ?_
      show ((corrected.or (ruleAt H d')).map (·.id)).getD previewRuleId = result.rule.id
      rw [hat, hid r hat]
      rfl
    | none =>
      have hpreview : shown = previewRuleId := by
        show ((corrected.or (ruleAt H d')).map (·.id)).getD previewRuleId = previewRuleId
        rw [hat]
        rfl
      by_cases hsame : shown = result.rule.id
      · exact .inl hsame
      · refine .inr ⟨fun hb => ?_, fun hb => ?_, fun ha => ?_⟩
        · obtain ⟨s, hs⟩ := hbefore _ hb
          exact huuid _ s hs hpreview
        · obtain ⟨s, r, hr, hri, -⟩ := hbefore _ hb
          exact hfresh hat r (h.mem_iff.mpr hr) hri
        · obtain ⟨r, hr, hri⟩ := Option.map_eq_some_iff.mp ha
          have hl := (findEffectiveRuleForDate_eq_some_iff hplaced.contiguous t r).mp hr
          rcases (hplaced.rows _ _).mp ⟨r, hl.mem, hri, rfl⟩ with ⟨hs, -⟩ | ⟨-, hrow⟩
          · exact hsame hs
          · exact huuid _ _ hrow hpreview

/-! ## 3. Forms -/

/-- The form of a family: its draft, the fields it sends, and what the service makes of them. -/
structure RuleForm (ν κ τ : Type) where
  family : RuleFamily ν
  texts : ν → κ
  ruleDraft : Option (MetaProductRule κ) → String → τ
  effectiveFrom : τ → String
  note : τ → String
  fields : List (String × (τ → String))
  /-- Columns hold a draft. -/
  Stored : τ → ν → Prop
  /-- The numbers of a draft are numbers of the columns. -/
  Valid : τ → Prop
  /-- What a save takes over without the draft fits its columns. -/
  Fits : RuleEnv → Option ν → Prop
  names : FieldNames fields
  dated : ∀ rule day, effectiveFrom (ruleDraft rule day) = dateKey (some day)
  snapshotFields : ∀ name ∈ fields.map Prod.fst, name ∈ family.snapshotFields
  correctionFields : ∀ name ∈ fields.map Prod.fst, name ∈ family.correctionFields
  noted : "note" ∈ family.snapshotFields ∧ "note" ∈ family.correctionFields
  moved : "effectiveFrom" ∈ family.correctionFields
  required : ∀ name ∈ family.requiredFirstSnapshotFields, name ∈ fields.map Prod.fst
  managed : "effectiveTo" ∉ fields.map Prod.fst
  throws : ∀ body old, Throws (fun e => e.code ≠ family.code ++ "_DATE_EXISTS") (family.correction body old)
  snapshot_stores : ∀ draft (source : Option (ProductRule ν)) start env v,
    family.snapshot env (changedRulePayload effectiveFrom note fields draft
      (source.map fun r => ruleDraft (some (ruleJson texts r)) start) .snapshot)
      (source.map (·.values)) = .ok v → Stored draft v
  snapshot_accepts : ∀ draft (source : Option (ProductRule ν)) start env, Valid draft →
    Fits env (source.map (·.values)) → ∃ v, family.snapshot env (changedRulePayload effectiveFrom note fields draft
      (source.map fun r => ruleDraft (some (ruleJson texts r)) start) .snapshot)
      (source.map (·.values)) = .ok v
  correction_stores : ∀ draft (c : ProductRule ν) start v,
    family.correction (changedRulePayload effectiveFrom note fields draft
      (some (ruleDraft (some (ruleJson texts c)) start)) .correction) c.values = .ok v → Stored draft v
  correction_accepts : ∀ draft (c : ProductRule ν) start, Valid draft →
    ∃ v, family.correction (changedRulePayload effectiveFrom note fields draft
      (some (ruleDraft (some (ruleJson texts c)) start)) .correction) c.values = .ok v

theorem IsNumberError.ne {e : RuleError} (h : IsNumberError e) {code : String}
    (h1 : "INVALID_NUMBER" ≠ code) (h2 : "22003" ≠ code) : e.code ≠ code := by
  rcases h with he | he
  · rw [he]
    exact h1
  · rw [he]
    exact h2

def costForm : RuleForm CostValues CostTexts MetaProductCostRuleDraft where
  family := costFamily
  texts := costTexts
  ruleDraft := costRuleDraft
  effectiveFrom := (·.effectiveFrom)
  note := (·.note)
  fields := costFields
  Stored := CostStored
  Valid := CostValid
  Fits := CostFits
  names := costFields_names
  dated _ _ := rfl
  snapshotFields := by decide
  correctionFields := by decide
  noted := by decide
  moved := by decide
  required := by decide
  managed := by decide
  throws body old := fun e he => (throws_costCorrection body old e he).ne (by decide) (by decide)
  snapshot_stores draft source start _ _ h :=
    costSnapshot_stores (costSent_payload draft source start .snapshot) h
  snapshot_accepts draft source start _ hv hf :=
    costSnapshot_accepts (costSent_payload draft source start .snapshot) hv hf
  correction_stores draft c start _ h :=
    costCorrection_stores (costSent_payload draft (some c) start .correction) h
  correction_accepts draft c start hv :=
    costCorrection_accepts (costSent_payload draft (some c) start .correction) hv

def cpaForm : RuleForm CpaValues CpaTexts MetaProductCpaRuleDraft where
  family := cpaFamily
  texts := cpaTexts
  ruleDraft := cpaRuleDraft
  effectiveFrom := (·.effectiveFrom)
  note := (·.note)
  fields := cpaFields
  Stored := CpaStored
  Valid := CpaValid
  Fits _ _ := True
  names := cpaFields_names
  dated _ _ := rfl
  snapshotFields := by decide
  correctionFields := by decide
  noted := by decide
  moved := by decide
  required := by decide
  managed := by decide
  throws body old := fun e he => (throws_cpaCorrection body old e he).ne (by decide) (by decide)
  snapshot_stores draft source start env _ h :=
    cpaSnapshot_stores env (cpaSent_payload draft source start .snapshot) h
  snapshot_accepts draft source start env hv _ :=
    cpaSnapshot_accepts env (cpaSent_payload draft source start .snapshot) hv
  correction_stores draft c start _ h :=
    cpaCorrection_stores (cpaSent_payload draft (some c) start .correction) h
  correction_accepts draft c start hv :=
    cpaCorrection_accepts (cpaSent_payload draft (some c) start .correction) hv

variable {form : RuleForm ν κ τ} {draft : τ} {preview : MetaProductRuleHistoryPreview κ}

def payloadMode (corrected : Option (ProductRule ν)) : MetaProductRulePayloadMode :=
  if corrected.isSome then .correction else .snapshot

/-- The body a form sends, computed against the basis of the preview. -/
def RuleForm.payload (form : RuleForm ν κ τ) (corrected : Option (ProductRule ν))
    (preview : MetaProductRuleHistoryPreview κ) (draft : τ) : Body :=
  changedRulePayload form.effectiveFrom form.note form.fields draft
    (payloadBasis form.ruleDraft (corrected.map (ruleJson form.texts)) preview.basisRule
      (form.effectiveFrom draft)) (payloadMode corrected)

example (corrected : Option (ProductRule CostValues)) (preview : MetaProductRuleHistoryPreview CostTexts)
    (draft : MetaProductCostRuleDraft) :
    costForm.payload corrected preview draft = metaProductCostRulePayload draft
      (payloadBasis costRuleDraft (corrected.map (ruleJson costTexts)) preview.basisRule
        draft.effectiveFrom) (payloadMode corrected) := rfl

theorem RuleForm.payload_save {source : Option (ProductRule ν)}
    (hb : preview.basisRule = source.map (ruleJson form.texts)) :
    form.payload none preview draft = changedRulePayload form.effectiveFrom form.note form.fields draft
      (source.map fun r => form.ruleDraft (some (ruleJson form.texts r)) (form.effectiveFrom draft))
      .snapshot := by
  unfold RuleForm.payload payloadBasis
  rw [hb, Option.map_map]
  rfl

/-- A form sends no end. -/
theorem RuleForm.payload_managed (form : RuleForm ν κ τ) (corrected : Option (ProductRule ν))
    (preview : MetaProductRuleHistoryPreview κ) (draft : τ) :
    hasProvidedField (form.payload corrected preview draft) "effectiveTo" = false := by
  unfold hasProvidedField Body.has RuleForm.payload
  rw [payload_other (by decide) (by decide) form.managed]
  rfl

/-- The day of the body is the day of the draft. -/
theorem RuleForm.payload_day (h : ∀ c ∈ corrected, ReadsBack c.effectiveFrom) (hd : ReadsBack d)
    (hday : form.effectiveFrom draft = formatDateOnly d) :
    writeStart corrected (form.payload corrected preview draft) = .ok d := by
  have hdraft : dateKey (some (form.effectiveFrom draft)) = formatDateOnly d := by
    rw [hday, dateKey_format hd]
  cases corrected with
  | none => exact payload_startDate form.names hd hdraft
  | some c =>
    have hc := h c rfl
    refine payload_startDateOr form.names hd hc hdraft ?_
    show dateKey (some (form.effectiveFrom (form.ruleDraft _ (dateJson c.effectiveFrom)))) = _
    rw [form.dated, dateKey_json hc, dateKey_format hc]

variable {texts : ν → κ}

/-- The rule a save starts from is the basis of its preview. -/
theorem Previewed.saveBasis (h : Listed p rules H) (hp : Previewed texts H none d t preview) :
    preview.basisRule = (findEffectiveRuleForDate (rulesOf p rules) d).map (ruleJson texts) := by
  rw [hp.basis, Option.none_or, h.inForce_eq]

/-- **What the body of a draft stores.** -/
theorem payload_stores (h : Listed p rules H) (hc : ∀ c ∈ corrected, c ∈ H)
    (hp : Previewed form.texts H corrected d t preview)
    (hd : writeStart corrected (form.payload corrected preview draft) = .ok d)
    (hw : ruleWrite form.family env p corrected (form.payload corrected preview draft) rules =
      .ok (rules', result)) :
    form.Stored draft result.rule.values ∧ result.rule.effectiveFrom = d := by
  cases corrected with
  | none =>
    obtain ⟨d', hd', hplaced, hsnap, -⟩ := saveRuleSnapshot_placed h.toHistoryInv hw
    obtain rfl : d' = d := Except.ok.inj (hd'.symm.trans hd)
    rw [RuleForm.payload_save (hp.saveBasis h)] at hsnap
    exact ⟨form.snapshot_stores draft _ _ _ _ hsnap, hplaced.start⟩
  | some c =>
    obtain ⟨d', hd', -, hplaced, -, hcor, -⟩ :=
      correctRule_placed h.toHistoryInv (h.mem_iff.mp (hc c rfl)) hw
    obtain rfl : d' = d := Except.ok.inj (hd'.symm.trans hd)
    exact ⟨form.correction_stores draft c _ _ hcor, hplaced.start⟩

/-- What a write needs besides its body: the product, and for a save that it is active, an id that
    is not taken and columns that fit. -/
structure Admits (form : RuleForm ν κ τ) (env : RuleEnv) (p : String) (rules : List (ProductRule ν))
    (corrected : Option (ProductRule ν)) (d : Int) : Prop where
  product : ∃ product, env.products.find? (fun q => q.id = p) = some product ∧
    (corrected = none → product.isActive = true)
  fresh : corrected = none → ∀ r ∈ rules, r.id ≠ env.id
  fits : corrected = none →
    form.Fits env ((findEffectiveRuleForDate (rulesOf p rules) d).map (·.values))

/-- The preview reports a collision when another rule starts on the day. -/
theorem Previewed.collides_iff (h : Listed p rules H) {c : ProductRule ν}
    (hp : Previewed texts H (some c) d t preview) :
    preview.dateCollisionRule.isSome = true ↔ Collides p c.id rules d := by
  rw [hp.collision, if_pos (by rfl), hp.sameDate, Option.isSome_map]
  constructor
  · intro hsome
    obtain ⟨r, hr⟩ := Option.isSome_iff_exists.mp hsome
    obtain ⟨hr, hrd⟩ := (ruleAt_eq_some_iff (distinct_others h.history _)).mp hr
    obtain ⟨hr, hne⟩ := mem_filter.mp hr
    exact ⟨r, h.mem_iff.mp hr, of_decide_eq_true hne, hrd⟩
  · rintro ⟨r, hr, hne, hrd⟩
    rw [(ruleAt_eq_some_iff (distinct_others h.history _)).mpr
      ⟨mem_filter.mpr ⟨h.mem_iff.mpr hr, decide_eq_true hne⟩, hrd⟩]
    rfl

/-- **The body of a valid draft with a changed value is accepted.** -/
theorem payload_accepts (h : Listed p rules H) (hc : ∀ c ∈ corrected, c ∈ H)
    (hp : Previewed form.texts H corrected d t preview)
    (hd : writeStart corrected (form.payload corrected preview draft) = .ok d)
    (hchanged : isEmptySave (form.payload corrected preview draft) (payloadMode corrected) = false)
    (hv : form.Valid draft) (ha : Admits form env p rules corrected d)
    (hfree : preview.dateCollisionRule = none) :
    ∃ rules' result, ruleWrite form.family env p corrected (form.payload corrected preview draft) rules =
      .ok (rules', result) := by
  obtain ⟨product, hproduct, hactive⟩ := ha.product
  have hmanaged := form.payload_managed corrected preview draft
  cases corrected with
  | none =>
    have hsave := @RuleForm.payload_save _ _ _ form draft _ _ (hp.saveBasis h)
    rw [hsave] at hchanged hd hmanaged ⊢
    obtain ⟨v, hsnap⟩ := form.snapshot_accepts draft _ (form.effectiveFrom draft) env hv (ha.fits rfl)
    refine saveRuleSnapshot_accepts h.toHistoryInv hmanaged ?_ hd hproduct (hactive rfl) ?_ hsnap
      (ha.fresh rfl)
    · exact changed_of_not_empty hchanged form.snapshotFields form.noted.1 nofun
    · intro hnone field hfield
      obtain ⟨entry, hentry, rfl⟩ := mem_map.mp (form.required field hfield)
      unfold hasProvidedField Body.has
      rw [hnone, payload_number form.names hentry]
      rfl
  | some c =>
    have hmem := h.mem_iff.mp (hc c rfl)
    obtain ⟨v, hcor⟩ := form.correction_accepts draft c (dateJson c.effectiveFrom) hv
    refine correctRule_accepts h.toHistoryInv hmem hmanaged ?_ hd hproduct ?_ hcor
    · exact changed_of_not_empty hchanged form.correctionFields form.noted.2 fun _ => form.moved
    · rw [← hp.collides_iff h, hfree]
      exact nofun

/-! ## 4. The prediction -/

/-- A body that asks for a correction: a field of the rule, and no end. -/
structure AsksCorrection (F : RuleFamily ν) (body : Body) : Prop where
  managed : hasProvidedField body "effectiveTo" = false
  field : F.correctionFields.any (hasProvidedField body) = true

/-- What the preview of a write, and the body computed against its basis, foretell. -/
structure Foretells (form : RuleForm ν κ τ) (p : String) (rules : List (ProductRule ν))
    (corrected : Option (ProductRule ν)) (d t : Int) (env : RuleEnv)
    (preview : MetaProductRuleHistoryPreview κ) : Prop where
  /-- A save collides with no rule. -/
  free : corrected = none → preview.dateCollisionRule = none
  /-- A correction is refused for its day when a collision is reported, and only then. -/
  collides : ∀ c ∈ corrected, ∀ body, AsksCorrection form.family body →
    startDateOr body c.effectiveFrom = .ok d →
    (preview.dateCollisionRule.isSome = true ↔ ∃ e,
      correctRule form.family env p c.id body rules = .error e ∧
        e.code = form.family.code ++ "_DATE_EXISTS")
  /-- Basis, end and impact are those of every write for the day that returns. -/
  agrees : ∀ body rules' result, writeStart corrected body = .ok d →
    ruleWrite form.family env p corrected body rules = .ok (rules', result) →
    Agrees form.texts (inheritedRule p rules corrected d) t (rulesOf p rules) (rulesOf p rules')
      preview result
  /-- The body of a draft for the day stores the draft. -/
  stores : ∀ draft, form.effectiveFrom draft = formatDateOnly d → ∀ rules' result,
    ruleWrite form.family env p corrected (form.payload corrected preview draft) rules =
      .ok (rules', result) → form.Stored draft result.rule.values ∧ result.rule.effectiveFrom = d
  /-- It is accepted when the draft is valid, changes a value and collides with no rule. -/
  accepts : ∀ draft, form.effectiveFrom draft = formatDateOnly d → form.Valid draft →
    isEmptySave (form.payload corrected preview draft) (payloadMode corrected) = false →
    Admits form env p rules corrected d → preview.dateCollisionRule = none →
    ∃ rules' result, ruleWrite form.family env p corrected (form.payload corrected preview draft)
      rules = .ok (rules', result)

/-- The forms of a family foretell every write: for every listed history, rule to correct, day,
    today and state of the service. -/
def RuleForm.Predicts (form : RuleForm ν κ τ) : Prop :=
  ∀ (p : String) (rules H : List (ProductRule ν)) (corrected : Option (ProductRule ν)) (d t : Int)
    (env : RuleEnv), Listed p rules H → (∀ c ∈ corrected, c ∈ H) → ReadsBack d → ReadsBack t →
    (∃ product ∈ env.products, product.id = p) →
    ∃ preview, previewMetaProductRuleHistory (H.map (ruleJson form.texts)) (formatDateOnly d)
        (formatDateOnly t) (corrected.map (·.id)) = some preview ∧
      Foretells form p rules corrected d t env preview

theorem RuleForm.predicts (form : RuleForm ν κ τ) : form.Predicts := by
  intro p rules H corrected d t env h hc hd ht hproduct
  obtain ⟨preview, hpreview, hp⟩ := previewed form.texts h.history hc hd ht
  have hstart : ∀ c ∈ corrected, ReadsBack c.effectiveFrom := fun c hmem => h.history.dates c (hc c hmem)
  obtain ⟨product, hfind⟩ : ∃ product, env.products.find? (fun q => q.id = p) = some product := by
    obtain ⟨product, hmem, hid⟩ := hproduct
    exact Option.isSome_iff_exists.mp (find?_isSome.mpr ⟨product, hmem, decide_eq_true hid⟩)
  refine ⟨preview, hpreview, ?_, ?_, ?_, ?_, ?_⟩
  · rintro rfl
    rw [hp.collision]
    rfl
  · rintro c rfl body hasks hday
    rw [hp.collides_iff h, correctRule_collides_iff h.toHistoryInv (h.mem_iff.mp (hc c rfl))
      hasks.managed hasks.field hday hfind (form.throws body c.values)]
  · intro body rules' result hday hw
    exact previewAgrees form.texts h hc hp hday hw
  · intro draft hdraft rules' result hw
    exact payload_stores h hc hp (form.payload_day hstart hd hdraft) hw
  · intro draft hdraft hv hchanged ha hfree
    exact payload_accepts h hc hp (form.payload_day hstart hd hdraft) hchanged hv ha hfree

/-- **The rule forms predict the service**, for cost rules and for CPA rules. -/
theorem rule_preview_predicts : costForm.Predicts ∧ cpaForm.Predicts :=
  ⟨costForm.predicts, cpaForm.predicts⟩

/-! ## 5. Digits a column does not have -/

/-- The ratios of January, of an active product. -/
def januaryRatios : ProductRule CpaValues where
  id := "5f0f6a52-7a10-4d0c-9d0a-3f1f7a1c2b01"
  productId := "product"
  values := { targetRatio := ⟨8000⟩, watchRatio := ⟨11000⟩, stopRatio := ⟨12500⟩, note := none }
  effectiveFrom := daysFromCivil 2026 1 1
  effectiveTo := none
  createdAt := 0

def januaryEnv : RuleEnv where
  products := [{ id := "product", isActive := true }]
  latestRate := none
  id := "5f0f6a52-7a10-4d0c-9d0a-3f1f7a1c2b02"
  createdAt := 1

def februaryDraft (targetRatio : String) : MetaProductCpaRuleDraft where
  targetRatio := targetRatio
  watchRatio := "1.1"
  stopRatio := "1.25"
  effectiveFrom := "2026-02-01"
  note := ""

theorem januaryRatios_listed : Listed "product" [januaryRatios] [januaryRatios] where
  ids := nodup_singleton _
  dates r hr := by
    rw [mem_singleton.mp hr]
    unfold ReadsBack
    decide
  contiguous :=
    { distinct := nodup_singleton _
      closed := fun r hr => by
        rw [mem_singleton.mp hr]
        decide }
  uuids r hr := by
    rw [mem_singleton.mp hr]
    decide
  perm := List.Perm.refl _

/-- The form foretells a save for February. -/
theorem rule_preview_predicts_february :
    ∃ preview, previewMetaProductRuleHistory [ruleJson cpaTexts januaryRatios]
        (formatDateOnly (daysFromCivil 2026 2 1)) (formatDateOnly (daysFromCivil 2026 1 15)) none =
          some preview ∧
      Foretells cpaForm "product" [januaryRatios] none (daysFromCivil 2026 2 1)
        (daysFromCivil 2026 1 15) januaryEnv preview :=
  rule_preview_predicts.2 "product" [januaryRatios] [januaryRatios] none _ _ januaryEnv
    januaryRatios_listed (nofun) (by unfold ReadsBack; decide)
    (by unfold ReadsBack; decide) ⟨_, mem_singleton_self _, rfl⟩

/-- What the form has the service store for a draft on 15 January, or the code it answers. -/
def februaryAnswer (targetRatio : String) : Option (Except String (Scaled 4)) :=
  (previewMetaProductRuleHistory [ruleJson cpaTexts januaryRatios] "2026-02-01" "2026-01-15" none).map
    fun preview =>
      ((saveCpaRuleSnapshot januaryEnv "product"
        (cpaForm.payload none preview (februaryDraft targetRatio)) [januaryRatios]).map
          fun written => written.2.rule.values.targetRatio).mapError (·.code)

/-- A target of five decimals is stored with four, and a draft without a change is refused. -/
theorem draft_rounded_or_refused :
    februaryAnswer "0.12345" = some (.ok ⟨1235⟩) ∧
      textNumber "0.12345" = some (12345 / 100000) ∧
      (⟨1235⟩ : Scaled 4).value ≠ 12345 / 100000 ∧
      februaryAnswer "0.8" = some (.error "PRODUCT_CPA_RULE_SNAPSHOT_EMPTY") := by
  refine ⟨by decide +kernel, by decide +kernel, by decide +kernel, by decide +kernel⟩

end AdsManagement.Web
