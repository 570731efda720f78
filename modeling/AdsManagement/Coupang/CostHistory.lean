/-
  File:      Coupang/CostHistory.lean
  Subject:   CONTIGUOUS COST HISTORIES: over every run of the operations that write cost rules
             and sales fee rules, the rules of a product follow each other without gap or
             overlap, and so do the fee rules.

  Between a write and the normalisation that follows it the history of the written product may
  be broken. `HistoryInv pending` says so: it asks for contiguity of all products but those
  listed.

  * `normalizeCoupangCostRuleRanges_eq` -- the normalisation of a product in closed form;
  * `HistoryInv.create`, `.update`, `.delete`, `.normalize` -- the four statements all writers
    are made of;
  * `CostStep`, `CostReachable` -- all operations on the tables, and their runs;
  * `CostReachable.inv` -- every reachable store has contiguous histories;
  * `findRuleForDate_eq_some_iff` -- the search by ranges finds the last rule started.
-/
import AdsManagement.Lib.Fallible
import AdsManagement.Coupang.CostUploads

namespace AdsManagement.Coupang

open Common Lib List Function

variable {rules rules' : List CoupangCostRule} {pending : List String}

/-! ## 1. The normalisation of a product -/

variable {p : String} {r : CoupangCostRule}

theorem mem_ofProduct : r ∈ ofProduct p rules ↔ r ∈ rules ∧ r.coupangProductId = p := by
  unfold ofProduct
  rw [mem_filter, decide_eq_true_eq]

/-- Every rule of the product gets the end it has in the history of the product. -/
def closeProduct (p : String) (rules : List CoupangCostRule) : List CoupangCostRule :=
  rules.map fun r => if r.coupangProductId = p then close costDated (ofProduct p rules) r else r

variable {s : CoupangCostRule}

theorem effectiveFrom_le_of_rank (h : historyRank r ≤ historyRank s) :
    r.effectiveFrom ≤ s.effectiveFrom := by
  rcases Prod.Lex.toLex_le_toLex.mp h with h | h
  · exact h.le
  · exact h.1.le

/-- **The normalisation in closed form.** -/
theorem normalizeCoupangCostRuleRanges_eq (hids : (rules.map (·.id)).Nodup) (p : String) :
    normalizeCoupangCostRuleRanges p rules =
      if ((ofProduct p rules).map (·.effectiveFrom)).Nodup then .ok (closeProduct p rules)
      else .error (costRuleDateExists
        "Cost rules for a product cannot share an effective start date.") := by
  have hsorted := pairwise_insertionSort (fun a b => historyRank a ≤ historyRank b)
    (ofProduct p rules)
  have hperm : ((ofProduct p rules).insertionSort fun a b => historyRank a ≤ historyRank b).Perm
      (rules.filter fun r => decide (r.coupangProductId = p)) := perm_insertionSort _ _
  unfold normalizeCoupangCostRuleRanges
  rw [normalizeRanges_selection (D := costDated) _ (fun r => decide (r.coupangProductId = p)) hids
    hperm (hsorted.imp effectiveFrom_le_of_rank)]
  simp only [decide_eq_true_eq]
  rfl

variable {f : CoupangCostRule → CoupangCostRule}

theorem ofProduct_map (hf : ∀ r ∈ rules, (f r).coupangProductId = r.coupangProductId) (p : String) :
    ofProduct p (rules.map f) = (ofProduct p rules).map f := by
  unfold ofProduct
  exact filter_map_of_keeps fun r hr => by rw [hf r hr]

variable {q : String}

/-- A change of the rules of one product leaves the other histories alone. -/
theorem ofProduct_map_of_ne (hf : ∀ r ∈ rules, (f r).coupangProductId = r.coupangProductId)
    (hid : ∀ r ∈ rules, r.coupangProductId ≠ p → f r = r) (hq : q ≠ p) :
    ofProduct q (rules.map f) = ofProduct q rules := by
  rw [ofProduct_map hf]
  refine (map_congr_left fun r hr => ?_).trans (map_id' _)
  obtain ⟨hr, hp⟩ := mem_ofProduct.mp hr
  exact hid r hr (by rw [hp]; exact hq)

theorem close_product (p : String) (rules : List CoupangCostRule) (r : CoupangCostRule) :
    (if r.coupangProductId = p then close costDated (ofProduct p rules) r else r).coupangProductId =
      r.coupangProductId := by
  split
  · rfl
  · rfl

theorem ofProduct_closeProduct_of_ne (hq : q ≠ p) :
    ofProduct q (closeProduct p rules) = ofProduct q rules :=
  ofProduct_map_of_ne (fun r _ => close_product p rules r) (fun _ _ h => if_neg h) hq

theorem ofProduct_closeProduct_self (p : String) (rules : List CoupangCostRule) :
    ofProduct p (closeProduct p rules) =
      (ofProduct p rules).map (close costDated (ofProduct p rules)) := by
  unfold closeProduct
  rw [ofProduct_map fun r _ => close_product p rules r]
  exact map_congr_left fun r hr => if_pos (mem_ofProduct.mp hr).2

/-- A contiguous history is normalised already. -/
theorem closeProduct_eq_self (h : Contiguous costDated (ofProduct p rules)) :
    closeProduct p rules = rules := by
  refine (map_congr_left fun r hr => ?_).trans (map_id' rules)
  split
  · next e => exact h.close_eq (mem_ofProduct.mpr ⟨hr, e⟩)
  · rfl

theorem map_id_closeProduct (p : String) (rules : List CoupangCostRule) :
    (closeProduct p rules).map (·.id) = rules.map (·.id) := by
  unfold closeProduct
  rw [map_map]
  refine map_congr_left fun r _ => ?_
  simp only [comp_apply]
  split
  · rfl
  · rfl

/-! ## 2. The four statements -/

/-- The invariant of the cost rules, the histories of the listed products apart. -/
structure HistoryInv (pending : List String) (rules : List CoupangCostRule) : Prop where
  ids : (rules.map (·.id)).Nodup
  clean : ∀ r ∈ rules, IsClean r.id ∧ IsClean r.coupangProductId
  dates : ∀ r ∈ rules, ReadsBack r.effectiveFrom
  histories : ∀ p, p ∉ pending → Contiguous costDated (ofProduct p rules)

theorem HistoryInv.mono {pending' : List String} (h : HistoryInv pending rules)
    (hp : pending ⊆ pending') : HistoryInv pending' rules :=
  { h with histories := fun p hn => h.histories p fun hm => hn (hp hm) }

theorem map_id_normalize (hids : (rules.map (·.id)).Nodup)
    (hn : normalizeCoupangCostRuleRanges p rules = .ok rules') :
    rules'.map (·.id) = rules.map (·.id) := by
  rw [normalizeCoupangCostRuleRanges_eq hids] at hn
  split at hn
  · cases hn
    exact map_id_closeProduct p rules
  · cases hn

theorem HistoryInv.normalize (h : HistoryInv (p :: pending) rules)
    (hn : normalizeCoupangCostRuleRanges p rules = .ok rules') : HistoryInv pending rules' := by
  rw [normalizeCoupangCostRuleRanges_eq h.ids] at hn
  split at hn
  case isFalse => cases hn
  case isTrue hd =>
    cases hn
    have hmem : ∀ r ∈ closeProduct p rules, ∃ s ∈ rules, r.id = s.id ∧
        r.coupangProductId = s.coupangProductId ∧ r.effectiveFrom = s.effectiveFrom := by
      intro r hr
      obtain ⟨s, hs, rfl⟩ := mem_map.mp hr
      refine ⟨s, hs, ?_⟩
      split
      · exact ⟨rfl, rfl, rfl⟩
      · exact ⟨rfl, rfl, rfl⟩
    refine ⟨by rw [map_id_closeProduct]; exact h.ids, fun r hr => ?_, fun r hr => ?_, fun q hq => ?_⟩
    · obtain ⟨s, hs, ei, ep, -⟩ := hmem r hr
      rw [ei, ep]
      exact h.clean s hs
    · obtain ⟨s, hs, -, -, ed⟩ := hmem r hr
      rw [ed]
      exact h.dates s hs
    · by_cases e : q = p
      · rw [e, ofProduct_closeProduct_self]
        exact contiguous_map_close hd
      · rw [ofProduct_closeProduct_of_ne e]
        exact h.histories q fun hm => (mem_cons.mp hm).elim e hq

variable {rule : CoupangCostRule}

theorem createRule_eq_ok (h : createRule rule rules = .ok rules') :
    rules' = rules ++ [rule] ∧ ∀ r ∈ rules, r.coupangProductId = rule.coupangProductId →
      r.effectiveFrom ≠ rule.effectiveFrom := by
  unfold createRule at h
  split at h
  · cases h
  · rename_i hany
    split at h
    · cases h
    · cases h
      refine ⟨rfl, fun r hr hp hf => hany (any_eq_true.mpr ⟨r, hr, ?_⟩)⟩
      unfold sameStart
      rw [hp, hf]
      simp only [decide_true, Bool.and_true]

theorem HistoryInv.create (h : HistoryInv pending rules) (hc : createRule rule rules = .ok rules')
    (hid : IsClean rule.id) (hfresh : ∀ r ∈ rules, r.id ≠ rule.id) (hp : IsClean rule.coupangProductId)
    (hd : ReadsBack rule.effectiveFrom) : HistoryInv (rule.coupangProductId :: pending) rules' := by
  obtain ⟨rfl, -⟩ := createRule_eq_ok hc
  refine ⟨?_, fun r hr => ?_, fun r hr => ?_, fun q hq => ?_⟩
  · exact nodup_map_concat h.ids hfresh
  · rcases mem_append.mp hr with hr | hr
    · exact h.clean r hr
    · rw [mem_singleton.mp hr]
      exact ⟨hid, hp⟩
  · rcases mem_append.mp hr with hr | hr
    · exact h.dates r hr
    · rw [mem_singleton.mp hr]
      exact hd
  · have hne : ¬ rule.coupangProductId = q := fun e => hq (e ▸ mem_cons_self)
    have e : ofProduct q (rules ++ [rule]) = ofProduct q rules := by
      unfold ofProduct
      rw [filter_append, filter_cons_of_neg (by simpa using hne), filter_nil, append_nil]
    rw [e]
    exact h.histories q fun hm => hq (mem_cons_of_mem _ hm)

variable {id : String} {data : CostData}

theorem updateRule_eq_ok (h : updateRule id data rules = .ok rules') :
    rules' = rules.map fun r => if r.id = id then data.update r else r := by
  unfold updateRule at h
  simp only at h
  split at h
  · cases h
  · split at h
    · cases h
    · exact (Except.ok.inj h).symm

theorem map_id_update (h : updateRule id data rules = .ok rules') :
    rules'.map (·.id) = rules.map (·.id) := by
  rw [updateRule_eq_ok h, map_map]
  refine map_congr_left fun r _ => ?_
  simp only [comp_apply]
  split
  · rfl
  · rfl

theorem HistoryInv.update (h : HistoryInv pending rules) (hu : updateRule id data rules = .ok rules')
    (hd : ∀ d ∈ data.effectiveFrom, ReadsBack d) (hp : ∀ r ∈ rules, r.id = id → r.coupangProductId = p) :
    HistoryInv (p :: pending) rules' := by
  have hids : (rules'.map (·.id)).Nodup := by
    rw [map_id_update hu]
    exact h.ids
  rw [updateRule_eq_ok hu] at hids ⊢
  have hproduct : ∀ r ∈ rules, (if r.id = id then data.update r else r).coupangProductId =
      r.coupangProductId := by
    intro r _
    split
    · rfl
    · rfl
  refine ⟨hids, fun r hr => ?_, fun r hr => ?_, fun q hq => ?_⟩
  · obtain ⟨s, hs, rfl⟩ := mem_map.mp hr
    rw [hproduct s hs]
    refine ⟨?_, (h.clean s hs).2⟩
    split
    · exact (h.clean s hs).1
    · exact (h.clean s hs).1
  · obtain ⟨s, hs, rfl⟩ := mem_map.mp hr
    split
    · show ReadsBack (data.effectiveFrom.getD s.effectiveFrom)
      cases e : data.effectiveFrom with
      | none => exact h.dates s hs
      | some d => exact hd d e
    · exact h.dates s hs
  · rw [ofProduct_map_of_ne hproduct (p := p)]
    · exact h.histories q fun hm => hq (mem_cons_of_mem _ hm)
    · intro r hr hne
      exact if_neg fun e => hne (hp r hr e)
    · exact fun e => hq (e ▸ mem_cons_self)

theorem HistoryInv.delete (h : HistoryInv pending rules)
    (hp : ∀ r ∈ rules, r.id = id → r.coupangProductId = p) :
    HistoryInv (p :: pending) (deleteRule id rules) := by
  have hsub : (deleteRule id rules).Sublist rules := filter_sublist
  refine ⟨List.Nodup.sublist (hsub.map _) h.ids, fun r hr => h.clean r (hsub.subset hr),
    fun r hr => h.dates r (hsub.subset hr), fun q hq => ?_⟩
  have e : ofProduct q (deleteRule id rules) = ofProduct q rules := by
    unfold ofProduct deleteRule
    rw [filter_filter]
    refine filter_congr fun r hr => ?_
    by_cases hr' : r.coupangProductId = q
    · have hne : r.id ≠ id := fun hi => hq (by rw [← hr', hp r hr hi]; exact mem_cons_self)
      rw [decide_eq_true hne, Bool.and_true]
    · rw [decide_eq_false hr', Bool.false_and]
  rw [e]
  exact h.histories q fun hm => hq (mem_cons_of_mem _ hm)

theorem eq_of_rule_id (hids : (rules.map (·.id)).Nodup) (hr : r ∈ rules) (hs : s ∈ rules) (e : r.id = s.id) :
    r = s :=
  inj_on_of_nodup_map hids hr hs e

theorem findRule_eq_some (hids : (rules.map (·.id)).Nodup) :
    findRule id rules = some r ↔ r ∈ rules ∧ r.id = id := by
  unfold findRule
  constructor
  · intro h
    exact ⟨mem_of_find?_eq_some h, by simpa using find?_some h⟩
  · rintro ⟨hr, rfl⟩
    cases e : rules.find? fun s => s.id = r.id with
    | none => exact absurd (decide_eq_true rfl) (find?_eq_none.mp e r hr)
    | some s =>
      rw [eq_of_rule_id hids (mem_of_find?_eq_some e) hr (by simpa using find?_some e)]

/-! ## 3. The writers of a product's history -/

variable {d : Int}

theorem isFalsyValue_of_requiredDateFromBody {value : Option Json} {field : String}
    (h : requiredDateFromBody value field = .ok d) : isFalsyValue value = false := by
  have hne : trimmedText value ≠ "" := by
    intro e
    unfold requiredDateFromBody at h
    rw [e] at h
    exact absurd h (by simp [show isIsoShape "" = false from by decide])
  cases value with
  | none => exact absurd rfl hne
  | some v =>
    cases v with
    | arr _ | obj _ => rfl
    | str s =>
      have hs : s ≠ "" := fun e => hne (by rw [e]; decide)
      exact beq_eq_false_iff_ne.mpr hs
    | null | bool _ | num _ => exact absurd rfl hne

variable {body : Body}

/-- A created rule starts on the day of the body and is open. -/
theorem maybeCostRuleCreate_dates {latest : Option CoupangCostRule}
    (h : maybeCostRuleCreate body latest = .ok (some data))
    (hd : requiredDateFromBody (body.get "effectiveFrom") "effectiveFrom" = .ok d) :
    data.effectiveFrom = some d ∧ data.effectiveTo = none := by
  unfold maybeCostRuleCreate at h
  split at h
  · cases h
  · simp only [bind_eq_ok] at h
    obtain ⟨_, -, _, -, _, -, _, -, _, -, _, -, _, -, _, -, _, -, _, -, from', hfrom, h⟩ := h
    unfold truthyEffectiveFrom at hfrom
    rw [isFalsyValue_of_requiredDateFromBody hd, hd] at hfrom
    cases hfrom
    cases h
    exact ⟨rfl, rfl⟩

variable {stamp : RuleStamp} {clock : String}
variable {productId : String}

theorem HistoryInv.createProductSetting (h : HistoryInv [] rules) (hid : IsClean stamp.id)
    (hfresh : ∀ r ∈ rules, r.id ≠ stamp.id) (hp : IsClean productId)
    (hnew : ∀ r ∈ rules, r.coupangProductId ≠ productId)
    (hc : createProductSetting clock stamp productId body rules = .ok rules') :
    HistoryInv [] rules' := by
  unfold Coupang.createProductSetting at hc
  simp only [bind_eq_ok] at hc
  obtain ⟨_, -, _, -, hc⟩ := hc
  split at hc
  case isFalse =>
    cases hc
    exact h
  case isTrue =>
    simp only [bind_eq_ok] at hc
    obtain ⟨d, hd, data?, hdata, hc⟩ := hc
    have hd' : ReadsBack d := by
      unfold effectiveFromOrToday at hd
      split at hd
      · exact readsBack_of_requiredDateFromBody hd
      · exact readsBack_of_requiredDateFromBody hd
    cases data? with
    | none =>
      cases hc
      exact h
    | some data =>
      have hget : Body.get (("effectiveFrom", Json.str (formatDateOnly d)) :: body) "effectiveFrom" =
          some (.str (formatDateOnly d)) := by
        rw [Body.get_cons, if_pos rfl]
      obtain ⟨hfrom, hto⟩ := maybeCostRuleCreate_dates hdata
        (by rw [hget]; exact requiredDateFromBody_eq_ok hd' _)
      have hstart : (data.create stamp productId).effectiveFrom = d := by
        show data.effectiveFrom.getD _ = d
        rw [hfrom, Option.getD_some]
      have hopen := h.create hc hid hfresh hp (by rw [hstart]; exact hd')
      refine { hopen with histories := fun q _ => ?_ }
      by_cases hq : q = productId
      · -- the product is new: its history is this one open rule
        obtain ⟨rfl, -⟩ := createRule_eq_ok hc
        have e : ofProduct q (rules ++ [data.create stamp productId]) =
            [data.create stamp productId] := by
          unfold ofProduct
          rw [filter_append, filter_eq_nil_iff.mpr, nil_append]
          · exact filter_cons_of_pos (decide_eq_true hq.symm)
          · intro r hr
            rw [decide_eq_true_eq, hq]
            exact hnew r hr
        rw [e]
        refine ⟨nodup_singleton _, fun r hr => ?_⟩
        rw [mem_singleton.mp hr]
        show data.effectiveTo.getD none = _
        rw [hto]
        unfold closedStop
        rw [nextStart_eq_none_iff.mpr]
        · rfl
        · intro s hs
          rw [mem_singleton.mp hs]
      · exact hopen.histories q fun hm => (mem_singleton.mp hm ▸ hq) rfl

theorem asCostRuleWrite_eq_ok {α : Type} {result : Except ApiError α} {a : α}
    (h : asCostRuleWrite result = .ok a) : result = .ok a := by
  cases result with
  | error e => cases h
  | ok b => exact h

theorem startingOnDate_mem (h : findCoupangCostRuleStartingOnDate p d rules = some r) :
    r ∈ rules ∧ r.coupangProductId = p ∧ r.effectiveFrom = d := by
  have hm := mem_of_mem_head? (Option.mem_def.mpr h)
  simpa using hm

variable {productFound : Bool}

theorem HistoryInv.updateProductConfiguration (h : HistoryInv [] rules) (hid : IsClean stamp.id)
    (hfresh : ∀ r ∈ rules, r.id ≠ stamp.id) (hp : IsClean id)
    (hu : updateProductConfiguration stamp productFound id body rules = .ok rules') :
    HistoryInv [] rules' := by
  unfold Coupang.updateProductConfiguration at hu
  simp only [bind_eq_ok] at hu
  obtain ⟨_, -, _, -, hu⟩ := hu
  replace hu := asCostRuleWrite_eq_ok hu
  cases productFound with
  | false => cases hu
  | true =>
    simp only [Bool.not_true, Bool.false_eq_true, if_false] at hu
    split at hu
    case isFalse =>
      cases hu
      exact h
    case isTrue =>
      simp only [bind_eq_ok] at hu
      obtain ⟨d, hd, data?, hdata, hu⟩ := hu
      have hd' := readsBack_of_requiredDateFromBody hd
      cases data? with
      | none => cases hu
      | some data =>
        obtain ⟨hfrom, -⟩ := maybeCostRuleCreate_dates hdata hd
        simp only at hu
        split at hu
        · rename_i rule hrule
          obtain ⟨hr, hrp, -⟩ := startingOnDate_mem hrule
          simp only [bind_eq_ok] at hu
          obtain ⟨saved, hs, hn⟩ := hu
          have hdates : ∀ e ∈ data.effectiveFrom, ReadsBack e := by
            rw [hfrom]
            rintro e ⟨⟩
            exact hd'
          have hopen : HistoryInv [id] saved :=
            h.update hs hdates fun s hs e => by rw [eq_of_rule_id h.ids hs hr e]; exact hrp
          exact hopen.normalize hn
        · simp only [bind_eq_ok] at hu
          obtain ⟨saved, hs, hn⟩ := hu
          have hstart : ReadsBack (data.create stamp id).effectiveFrom := by
            show ReadsBack (data.effectiveFrom.getD _)
            rw [hfrom]
            exact hd'
          have hopen := h.create hs hid hfresh hp hstart
          exact hopen.normalize hn

theorem readsBack_of_presentEffectiveFrom {d? : Option Int} (h : presentEffectiveFrom body = .ok d?) :
    ∀ d ∈ d?, ReadsBack d := by
  unfold presentEffectiveFrom at h
  split at h
  · obtain ⟨d, hd, rfl⟩ := map_eq_ok.mp h
    rintro _ ⟨⟩
    exact readsBack_of_requiredDateFromBody hd
  · cases h
    rintro _ ⟨⟩

theorem costRuleCorrection_dates (h : costRuleCorrection body = .ok data) :
    ∀ d ∈ data.effectiveFrom, ReadsBack d := by
  unfold costRuleCorrection at h
  simp only [bind_eq_ok] at h
  obtain ⟨_, -, _, -, _, -, _, -, _, -, _, -, _, -, _, -, _, -, _, -, _, -, _, -, d?, hd, _, -, h⟩ := h
  cases h
  exact readsBack_of_presentEffectiveFrom hd

theorem HistoryInv.correctProductCostRule {costRuleId : String} (h : HistoryInv [] rules)
    (hc : correctProductCostRule productFound productId costRuleId body rules = .ok rules') :
    HistoryInv [] rules' := by
  replace hc := asCostRuleWrite_eq_ok hc
  cases productFound with
  | false => cases hc
  | true =>
    simp only [Bool.not_true, Bool.false_eq_true, if_false] at hc
    split at hc
    · cases hc
    · rename_i existing hfind
      obtain ⟨he, hei⟩ := (findRule_eq_some h.ids).mp hfind
      split at hc
      · cases hc
      · rename_i hproduct
        simp only [bind_eq_ok] at hc
        obtain ⟨data, hdata, hc⟩ := hc
        split at hc
        · cases hc
        · split at hc
          · cases hc
          · simp only [bind_eq_ok] at hc
            obtain ⟨saved, hs, hn⟩ := hc
            have hopen : HistoryInv [productId] saved := by
              refine h.update hs (fun d hd => costRuleCorrection_dates hdata d ?_)
                fun r hr e => ?_
              · split at hd
                · exact hd
                · exact hd
              · rw [eq_of_rule_id h.ids hr he (by rw [e, hei])]
                exact not_not.mp hproduct
            exact hopen.normalize hn

/-! ## 4. Files and their deletion -/

/-- **What an imported row does**: it updates the rule of its product that starts on the day, or
    creates one, and normalises the product. -/
theorem upsertImportedCoupangCostRule_cases {buildData : Option CoupangCostRule → CostData}
    {saved : SavedCostRule}
    (h : upsertImportedCoupangCostRule stamp p d buildData rules = .ok (rules', saved)) :
    (∃ old written rule, findCoupangCostRuleStartingOnDate p d rules = some old ∧
      updateRule old.id (buildData (some old)) rules = .ok written ∧
      normalizeCoupangCostRuleRanges p written = .ok rules' ∧ findRule old.id rules' = some rule ∧
      saved = { operation := .UPDATED_SAME_DATE, rule
                before := some (serializeCoupangCostRuleRollbackSnapshot old)
                after := serializeCoupangCostRuleRollbackSnapshot rule }) ∨
    (∃ written rule, findCoupangCostRuleStartingOnDate p d rules = none ∧
      createRule ((buildData (findCoupangCostRuleAtOrBeforeDate p d rules)).create stamp p) rules =
        .ok written ∧
      normalizeCoupangCostRuleRanges p written = .ok rules' ∧ findRule stamp.id rules' = some rule ∧
      saved = { operation := .CREATED, rule, before := none
                after := serializeCoupangCostRuleRollbackSnapshot rule }) := by
  have hthrow : ∀ {id : String} {table : List CoupangCostRule} {rule : CoupangCostRule},
      findRuleOrThrow id table = .ok rule → findRule id table = some rule := by
    intro id table rule h
    unfold findRuleOrThrow at h
    split at h
    · rename_i e
      cases h
      exact e
    · cases h
  unfold upsertImportedCoupangCostRule at h
  cases e : findCoupangCostRuleStartingOnDate p d rules with
  | some old =>
    rw [e] at h
    simp only [bind_eq_ok] at h
    obtain ⟨written, hw, normalized, hn, rule, hr, h⟩ := h
    cases h
    exact .inl ⟨old, written, rule, rfl, hw, hn, hthrow hr, rfl⟩
  | none =>
    rw [e] at h
    simp only [bind_eq_ok] at h
    obtain ⟨written, hw, normalized, hn, rule, hr, h⟩ := h
    cases h
    exact .inr ⟨written, rule, rfl, hw, hn, hthrow hr, rfl⟩

theorem CostFileRow.buildData_effectiveFrom (row : CostFileRow) (d : Int)
    (rules : List CoupangCostRule) (base : Option CoupangCostRule) :
    (row.buildData d rules base).effectiveFrom = some d := by
  cases row with
  | margin row | priceText row legacy => rfl

/-- The ids the database hands to a file: none is stored, none occurs twice. -/
structure FreshLines (rules : List CoupangCostRule) (lines : List CostFileLine) : Prop where
  distinct : (lines.map (·.stamp.id)).Nodup
  clean : ∀ line ∈ lines, IsClean line.stamp.id ∧ IsClean line.productId
  fresh : ∀ line ∈ lines, ∀ r ∈ rules, r.id ≠ line.stamp.id

variable {line : CostFileLine} {applied : AppliedRow} {row : CostFileRow}

theorem applyCostFileRow_eq_ok (ha : applyCostFileRow d line row rules = .ok (rules', applied)) :
    ∃ saved, upsertImportedCoupangCostRule line.stamp line.productId d (row.buildData d rules) rules =
        .ok (rules', saved) ∧
      applied = { rowNumber := line.rowNumber, itemName := row.itemName
                  standardName := line.standardName, productId := line.productId
                  costRuleId := saved.rule.id, salePriceKrw := row.salePriceKrw
                  costRuleOperation := saved.operation, costRuleBefore := saved.before
                  costRuleAfter := saved.after } := by
  unfold applyCostFileRow at ha
  rw [bind_eq_ok] at ha
  obtain ⟨⟨table, saved⟩, hu, ha⟩ := ha
  cases ha
  exact ⟨saved, hu, rfl⟩

/-- One row of a file keeps the invariant and adds at most the id of its stamp. -/
theorem HistoryInv.applyCostFileRow (h : HistoryInv [] rules) (hd : ReadsBack d)
    (hid : IsClean line.stamp.id) (hp : IsClean line.productId) (hfresh : ∀ r ∈ rules, r.id ≠ line.stamp.id)
    (ha : applyCostFileRow d line row rules = .ok (rules', applied)) :
    HistoryInv [] rules' ∧ ∀ i ∈ rules'.map (·.id), i = line.stamp.id ∨ i ∈ rules.map (·.id) := by
  obtain ⟨saved, hu, -⟩ := applyCostFileRow_eq_ok ha
  rcases upsertImportedCoupangCostRule_cases hu with
    ⟨old, written, rule, hold, hw, hn, -⟩ | ⟨written, rule, -, hw, hn, -⟩
  · obtain ⟨ho, hop, -⟩ := startingOnDate_mem hold
    have hopen : HistoryInv [line.productId] written := by
      refine h.update hw (fun e he => ?_) fun s hs e => ?_
      · rw [row.buildData_effectiveFrom] at he
        cases he
        exact hd
      · rw [eq_of_rule_id h.ids hs ho e]
        exact hop
    refine ⟨hopen.normalize hn, fun i hi => .inr ?_⟩
    rw [map_id_normalize hopen.ids hn, map_id_update hw] at hi
    exact hi
  · have hstart : ReadsBack ((row.buildData d rules
        (findCoupangCostRuleAtOrBeforeDate line.productId d rules)).create line.stamp
          line.productId).effectiveFrom := by
      show ReadsBack (Option.getD _ _)
      rw [row.buildData_effectiveFrom]
      exact hd
    have hopen := h.create hw hid hfresh hp hstart
    refine ⟨hopen.normalize hn, fun i hi => ?_⟩
    rw [map_id_normalize hopen.ids hn, (createRule_eq_ok hw).1, map_append] at hi
    rcases mem_append.mp hi with hi | hi
    · exact .inr hi
    · exact .inl (mem_singleton.mp hi)

variable {lines : List CostFileLine}

theorem FreshLines.tail (hf : FreshLines rules (line :: lines))
    (hids : ∀ i ∈ rules'.map (·.id), i = line.stamp.id ∨ i ∈ rules.map (·.id)) :
    FreshLines rules' lines where
  distinct := (nodup_cons.mp hf.distinct).2
  clean l hl := hf.clean l (mem_cons_of_mem _ hl)
  fresh l hl r hr e := by
    rcases hids r.id (mem_map_of_mem hr) with hi | hi
    · have hl' : l.stamp.id ∈ lines.map (·.stamp.id) := mem_map_of_mem hl
      rw [← e, hi] at hl'
      exact (nodup_cons.mp hf.distinct).1 hl'
    · obtain ⟨s, hs, es⟩ := mem_map.mp hi
      exact hf.fresh l (mem_cons_of_mem _ hl) s hs (es.trans e)

theorem applyCostFile_cons {applied : List AppliedRow} (hrow : line.parsedRow = some row)
    (ha : applyCostFile d (line :: lines) rules = .ok (rules', applied)) :
    ∃ table first rest, applyCostFileRow d line row rules = .ok (table, first) ∧
      applyCostFile d lines table = .ok (rules', rest) ∧ applied = first :: rest := by
  unfold applyCostFile at ha
  rw [hrow] at ha
  simp only [bind_eq_ok] at ha
  obtain ⟨⟨table, first⟩, h1, ⟨final, rest⟩, h2, ha⟩ := ha
  cases ha
  exact ⟨table, first, rest, h1, h2, rfl⟩

theorem applyCostFile_skip (hrow : line.parsedRow = none) :
    applyCostFile d (line :: lines) rules = applyCostFile d lines rules := by
  conv_lhs => unfold applyCostFile
  rw [hrow]

theorem HistoryInv.applyCostFile (hd : ReadsBack d) :
    ∀ {rules rules' : List CoupangCostRule} {applied : List AppliedRow}, HistoryInv [] rules →
      FreshLines rules lines → applyCostFile d lines rules = .ok (rules', applied) →
      HistoryInv [] rules' := by
  induction lines with
  | nil =>
    intro rules rules' applied h _ ha
    cases ha
    exact h
  | cons line lines ih =>
    intro rules rules' applied h hf ha
    obtain ⟨hid, hp⟩ := hf.clean line mem_cons_self
    cases hrow : line.parsedRow with
    | none =>
      rw [applyCostFile_skip hrow] at ha
      exact ih h (hf.tail fun i hi => .inr hi) ha
    | some row =>
      obtain ⟨table, first, rest, h1, h2, -⟩ := applyCostFile_cons hrow ha
      obtain ⟨ht, hids⟩ := h.applyCostFileRow hd hid hp (hf.fresh line mem_cons_self) h1
      exact ih ht (hf.tail hids) h2

/-- **What one turn of the rollback does**: the rule is as the upload left it, and is restored or
    removed. -/
theorem rollbackRow_cases (h : rollbackRow rules applied = .ok rules') :
    ∃ current, findRule applied.costRuleId rules = some current ∧
      current.coupangProductId = applied.productId ∧
      serializeCoupangCostRuleRollbackSnapshot current = applied.costRuleAfter ∧
      ((∃ before data, applied.costRuleOperation = .UPDATED_SAME_DATE ∧
          applied.costRuleBefore = some before ∧
          deserializeCoupangCostRuleRollbackSnapshot before = .ok data ∧
          updateRule applied.costRuleId data rules = .ok rules') ∨
        (applied.costRuleOperation = .CREATED ∧ rules' = deleteRule applied.costRuleId rules)) := by
  unfold rollbackRow at h
  split at h
  · cases h
  · rename_i current hcur
    split at h
    · cases h
    · rename_i hsame
      obtain ⟨hp, hs⟩ := not_or.mp hsame
      refine ⟨current, hcur, not_not.mp hp, ?_, ?_⟩
      · exact of_decide_eq_true (Bool.not_eq_false _ ▸ hs)
      · split at h
        · cases h
        · rename_i before hop hbefore
          rw [bind_eq_ok] at h
          obtain ⟨data, hdata, hu⟩ := h
          exact .inl ⟨before, data, hop, hbefore, hdata, hu⟩
        · rename_i hop
          cases h
          exact .inr ⟨hop, rfl⟩

theorem deserialize_dates {snapshot : CostSnapshot}
    (h : deserializeCoupangCostRuleRollbackSnapshot snapshot = .ok data) :
    ∀ d ∈ data.effectiveFrom, ReadsBack d := by
  unfold deserializeCoupangCostRuleRollbackSnapshot at h
  simp only [bind_eq_ok] at h
  obtain ⟨_, -, _, -, _, -, _, -, _, -, _, -, _, -, _, -, _, -, _, -, _, -, _, -, d, hd, _, -, h⟩ := h
  cases h
  rintro _ ⟨⟩
  exact readsBack_of_requiredDateFromBody hd

/-- One turn leaves only the history of its product open. -/
theorem HistoryInv.rollbackRow (h : HistoryInv pending rules) (hp : applied.productId ∈ pending)
    (hr : rollbackRow rules applied = .ok rules') :
    HistoryInv pending rules' := by
  obtain ⟨current, hcur, hproduct, -, hcases⟩ := rollbackRow_cases hr
  obtain ⟨hc, hci⟩ := (findRule_eq_some h.ids).mp hcur
  have howner : ∀ r ∈ rules, r.id = applied.costRuleId → r.coupangProductId = applied.productId := by
    intro r hr e
    rw [eq_of_rule_id h.ids hr hc (by rw [e, hci])]
    exact hproduct
  have hopen : HistoryInv (applied.productId :: pending) rules' := by
    rcases hcases with ⟨before, data, -, -, hdata, hu⟩ | ⟨-, rfl⟩
    · exact h.update hu (deserialize_dates hdata) howner
    · exact h.delete howner
  exact hopen.mono (cons_subset.mpr ⟨hp, fun _ h => h⟩)

/-- Whatever rows it is given, a rollback that succeeds leaves contiguous histories: it ends by
    normalising every product it has touched. -/
theorem HistoryInv.rollback {appliedRows : List AppliedRow} (h : HistoryInv [] rules)
    (hr : rollbackImportedCoupangCostRules appliedRows rules = .ok rules') : HistoryInv [] rules' := by
  unfold rollbackImportedCoupangCostRules at hr
  simp only [bind_eq_ok] at hr
  obtain ⟨undone, hu, hn⟩ := hr
  have hundo : (∀ row ∈ appliedRows, row ∈ ([] : List AppliedRow) ∨ IsClean row.productId) ∧
      HistoryInv (appliedRows.map (·.productId)) undone := by
    have hinv := foldlM_inv (f := Coupang.rollbackRow)
      (fun rest table => rest ⊆ appliedRows ∧
        (∀ row ∈ appliedRows, row ∈ rest ∨ IsClean row.productId) ∧
        HistoryInv (appliedRows.map (·.productId)) table) ?_
      ⟨fun row hm => mem_reverse.mp hm, fun row hm => .inl (mem_reverse.mpr hm),
        h.mono (nil_subset _)⟩ hu
    · exact hinv.2
    · rintro applied rest table table' ⟨hsub, hclean, ht⟩ hrow
      obtain ⟨happlied, hrest⟩ := cons_subset.mp hsub
      refine ⟨hrest, fun row hm => ?_, ht.rollbackRow (mem_map_of_mem happlied) hrow⟩
      rcases hclean row hm with hm | hm
      · rcases mem_cons.mp hm with rfl | hm
        · -- the row was compared with a stored rule of its product
          obtain ⟨current, hcur, hproduct, -⟩ := rollbackRow_cases hrow
          refine .inr ?_
          rw [← hproduct]
          exact (ht.clean current ((findRule_eq_some ht.ids).mp hcur).1).2
        · exact .inl hm
      · exact .inr hm
  obtain ⟨hclean, hundone⟩ := hundo
  refine foldlM_inv HistoryInv (fun p rest table table' ht hstep => ht.normalize hstep)
    (hundone.mono fun p hp => ?_) hn
  obtain ⟨row, hrow, rfl⟩ := mem_map.mp hp
  rw [mem_insertionSort, mem_uniqueNonEmpty]
  · exact mem_map.mpr ⟨row, hrow, rfl⟩
  · intro p hp
    obtain ⟨row, hrow, e⟩ := mem_map.mp hp
    cases e
    exact (hclean row hrow).resolve_left not_mem_nil

/-! ## 5. Sales fee rules -/

variable {fees : List CoupangSalesFeeRule}

theorem normalizeSalesFeeRuleRanges_eq (hids : (fees.map (·.id)).Nodup) :
    normalizeSalesFeeRuleRanges fees =
      if (fees.map (·.effectiveFrom)).Nodup then .ok (fees.map (close feeDated fees))
      else .error (salesFeeRuleDateExists
        "Global sales fee rules cannot share an effective start date.") := by
  have hsorted := pairwise_insertionSort (fun a b : CoupangSalesFeeRule =>
    toLex (a.effectiveFrom, a.createdAt) ≤ toLex (b.effectiveFrom, b.createdAt)) fees
  have hle : ∀ {a b : CoupangSalesFeeRule},
      toLex (a.effectiveFrom, a.createdAt) ≤ toLex (b.effectiveFrom, b.createdAt) →
      feeDated.start a ≤ feeDated.start b := by
    intro a b h
    rcases Prod.Lex.toLex_le_toLex.mp h with h | h
    · exact h.le
    · exact h.1.le
  have hall : fees.filter (fun _ => true) = fees := filter_true fees
  unfold normalizeSalesFeeRuleRanges
  rw [normalizeRanges_selection (D := feeDated) _ (fun _ => true) hids
    (by rw [hall]; exact perm_insertionSort _ _) (hsorted.imp hle), hall]
  rfl

/-- The invariant of the fee rules. -/
structure FeeInv (fees : List CoupangSalesFeeRule) : Prop where
  ids : (fees.map (·.id)).Nodup
  history : Contiguous feeDated fees

variable {fees' : List CoupangSalesFeeRule}

theorem FeeInv.of_normalize (hids : (fees.map (·.id)).Nodup)
    (hn : normalizeSalesFeeRuleRanges fees = .ok fees') : FeeInv fees' := by
  rw [normalizeSalesFeeRuleRanges_eq hids] at hn
  split at hn
  case isFalse => cases hn
  case isTrue hd =>
    cases hn
    refine ⟨?_, contiguous_map_close hd⟩
    rw [map_map]
    exact hids

theorem FeeInv.createSalesFeeRule (h : FeeInv fees) (hfresh : ∀ r ∈ fees, r.id ≠ stamp.id)
    (hc : createSalesFeeRule stamp body fees = .ok fees') : FeeInv fees' := by
  unfold Coupang.createSalesFeeRule at hc
  simp only [bind_eq_ok] at hc
  obtain ⟨rate, -, d, -, hc⟩ := hc
  split at hc
  · cases hc
  · exact FeeInv.of_normalize (nodup_map_concat h.ids hfresh) hc

theorem FeeInv.correctSalesFeeRule (h : FeeInv fees) (hc : correctSalesFeeRule id body fees = .ok fees') :
    FeeInv fees' := by
  unfold Coupang.correctSalesFeeRule at hc
  split at hc
  · cases hc
  · simp only [bind_eq_ok] at hc
    obtain ⟨rate, -, d, -, hc⟩ := hc
    split at hc
    · cases hc
    · split at hc
      · cases hc
      · refine FeeInv.of_normalize ?_ hc
        rw [map_map]
        refine (congrArg Nodup (map_congr_left fun r _ => ?_)).mpr h.ids
        simp only [comp_apply]
        split
        · rfl
        · rfl

/-! ## 6. Runs -/

def onCostRules (operation : List CoupangCostRule → Except ApiError (List CoupangCostRule))
    (store : CostStore) : Except ApiError CostStore := do
  return { store with costRules := ← operation store.costRules }

def onSalesFeeRules (operation : List CoupangSalesFeeRule → Except ApiError (List CoupangSalesFeeRule))
    (store : CostStore) : Except ApiError CostStore := do
  return { store with salesFeeRules := ← operation store.salesFeeRules }

/-- A new id of the database: not stored. -/
structure FreshRuleId (store : CostStore) (stamp : RuleStamp) : Prop where
  clean : IsClean stamp.id
  cost : ∀ r ∈ store.costRules, r.id ≠ stamp.id
  fee : ∀ r ∈ store.salesFeeRules, r.id ≠ stamp.id

/-- The ids of a file's upload and of the rules it may create are new. -/
structure FreshFile (store : CostStore) (file : CostFile) : Prop where
  upload : ∀ u ∈ store.uploads, u.id ≠ file.uploadId
  lines : FreshLines store.costRules file.lines

/-- One request that writes cost rules or sales fee rules. One that fails leaves the store as it
    was. -/
inductive CostStep (store : CostStore) : CostStore → Prop
  | createProductSetting (clock : String) (stamp : RuleStamp) (productId : String) (body : Body)
      (hid : FreshRuleId store stamp) (hp : IsClean productId)
      (hnew : ∀ r ∈ store.costRules, r.coupangProductId ≠ productId) :
      CostStep store
        (attempt (onCostRules (createProductSetting clock stamp productId body)) store)
  | updateProductConfiguration (stamp : RuleStamp) (productFound : Bool) (id : String) (body : Body)
      (hid : FreshRuleId store stamp) (hp : IsClean id) :
      CostStep store
        (attempt (onCostRules (updateProductConfiguration stamp productFound id body)) store)
  | correctProductCostRule (productFound : Bool) (productId costRuleId : String) (body : Body) :
      CostStep store
        (attempt (onCostRules (correctProductCostRule productFound productId costRuleId body)) store)
  | importCostFile (clock : String) (body : Body) (file : CostFile) (hf : FreshFile store file) :
      CostStep store (attempt (importCostFile clock body file) store)
  | deleteCostUpload (id : String) : CostStep store (attempt (deleteCostUpload id) store)
  | createSalesFeeRule (stamp : RuleStamp) (body : Body) (hid : FreshRuleId store stamp) :
      CostStep store (attempt (onSalesFeeRules (createSalesFeeRule stamp body)) store)
  | correctSalesFeeRule (id : String) (body : Body) :
      CostStep store (attempt (onSalesFeeRules (correctSalesFeeRule id body)) store)

/-- The stores that runs lead to. The seed stores at most one fee rule, without an end. -/
inductive CostReachable : CostStore → Prop
  | init (fees : List CoupangSalesFeeRule) (hseed : fees.length ≤ 1)
      (hopen : ∀ r ∈ fees, r.effectiveTo = none) :
      CostReachable { costRules := [], salesFeeRules := fees, uploads := [], rowErrors := [] }
  | step {store next : CostStore} : CostReachable store → CostStep store next → CostReachable next

structure CostInv (store : CostStore) : Prop where
  costs : HistoryInv [] store.costRules
  fees : FeeInv store.salesFeeRules
  uploadIds : (store.uploads.map (·.id)).Nodup
  errors : ∀ e ∈ store.rowErrors, ∃ u ∈ store.uploads, u.id = e.uploadBatchId

variable {store : CostStore}

theorem CostInv.attempt {operation : CostStore → Except ApiError CostStore} (h : CostInv store)
    (hop : ∀ next, operation store = .ok next → CostInv next) :
    CostInv (attempt operation store) := by
  unfold Coupang.attempt
  split
  · next next e => exact hop next e
  · exact h

variable {next : CostStore}

theorem CostInv.onCostRules {operation : List CoupangCostRule → Except ApiError (List CoupangCostRule)}
    (h : CostInv store) (hop : ∀ rules', operation store.costRules = .ok rules' → HistoryInv [] rules')
    (hn : onCostRules operation store = .ok next) : CostInv next := by
  obtain ⟨rules', hr, hn⟩ := bind_eq_ok.mp hn
  cases hn
  exact { h with costs := hop rules' hr }

theorem CostInv.onSalesFeeRules
    {operation : List CoupangSalesFeeRule → Except ApiError (List CoupangSalesFeeRule)} (h : CostInv store)
    (hop : ∀ fees', operation store.salesFeeRules = .ok fees' → FeeInv fees')
    (hn : onSalesFeeRules operation store = .ok next) : CostInv next := by
  obtain ⟨fees', hr, hn⟩ := bind_eq_ok.mp hn
  cases hn
  exact { h with fees := hop fees' hr }

theorem readsBack_of_importEffectiveFrom (h : importEffectiveFrom clock body = .ok d) : ReadsBack d := by
  unfold importEffectiveFrom at h
  split at h
  · exact readsBack_of_requiredDateFromBody h
  · exact readsBack_of_requiredDateFromBody h

/-- The upload an import stores. -/
def storedUpload (file : CostFile) (d : Int) (appliedRows : List AppliedRow) : CostUpload where
  id := file.uploadId
  sourceType := file.sourceType
  validRowCount := appliedRows.length
  errorCount := (file.lines.filter fun line => line.parsedRow.isNone).length
  columnSchema := .obj [("effectiveFrom", .str (formatDateOnly d)),
                        ("appliedRows", .arr (appliedRows.map AppliedRow.toJson))]

variable {file : CostFile}

theorem importCostFile_eq_ok (h : importCostFile clock body file store = .ok next) :
    ∃ d costRules appliedRows, ReadsBack d ∧
      applyCostFile d file.lines store.costRules = .ok (costRules, appliedRows) ∧
      next = { store with costRules, rowErrors := store.rowErrors ++ file.errors
                          uploads := store.uploads ++ [storedUpload file d appliedRows] } := by
  unfold importCostFile at h
  simp only [bind_eq_ok] at h
  obtain ⟨d, hd, ⟨costRules, appliedRows⟩, ha, h⟩ := h
  cases h
  exact ⟨d, costRules, appliedRows, readsBack_of_importEffectiveFrom hd, ha, rfl⟩

theorem deleteCostUpload_eq_ok (h : deleteCostUpload id store = .ok next) :
    ∃ upload appliedRows costRules, store.uploads.find? (fun u => u.id = id) = some upload ∧
      rollbackAppliedRows upload.columnSchema upload.validRowCount = .ok appliedRows ∧
      rollbackImportedCoupangCostRules appliedRows store.costRules = .ok costRules ∧
      next = { store with costRules
                          rowErrors := store.rowErrors.filter fun e => e.uploadBatchId ≠ id
                          uploads := store.uploads.filter fun u => u.id ≠ id } := by
  unfold deleteCostUpload at h
  split at h
  · cases h
  · rename_i upload hu
    simp only [bind_eq_ok] at h
    obtain ⟨appliedRows, ha, costRules, hc, h⟩ := h
    cases h
    exact ⟨upload, appliedRows, costRules, hu, ha, hc, rfl⟩

theorem CostInv.importCostFile (h : CostInv store) (hf : FreshFile store file)
    (hn : importCostFile clock body file store = .ok next) : CostInv next := by
  obtain ⟨d, costRules, appliedRows, hd, ha, rfl⟩ := importCostFile_eq_ok hn
  refine ⟨h.costs.applyCostFile hd hf.lines ha, h.fees, ?_, fun e he => ?_⟩
  · exact nodup_map_concat h.uploadIds hf.upload
  · rcases mem_append.mp he with he | he
    · obtain ⟨u, hu, e⟩ := h.errors e he
      exact ⟨u, mem_append_left _ hu, e⟩
    · refine ⟨storedUpload file d appliedRows, mem_append_right _ (mem_singleton_self _), ?_⟩
      obtain ⟨line, -, hm⟩ := mem_flatMap.mp he
      obtain ⟨issue, -, rfl⟩ := mem_map.mp hm
      rfl

theorem CostInv.deleteCostUpload (h : CostInv store) (hn : deleteCostUpload id store = .ok next) :
    CostInv next := by
  obtain ⟨upload, appliedRows, costRules, -, -, hc, rfl⟩ := deleteCostUpload_eq_ok hn
  refine ⟨h.costs.rollback hc, h.fees, ?_, fun e he => ?_⟩
  · exact Nodup.sublist (filter_sublist.map _) h.uploadIds
  · obtain ⟨he, hne⟩ := mem_filter.mp he
    obtain ⟨u, hu, e⟩ := h.errors e he
    refine ⟨u, mem_filter.mpr ⟨hu, ?_⟩, e⟩
    rw [e]
    exact hne

/-- **Every request keeps the invariant.** -/
theorem CostInv.step (h : CostInv store) (hs : CostStep store next) : CostInv next := by
  cases hs with
  | createProductSetting clock stamp productId body hid hp hnew =>
    refine h.attempt fun next => h.onCostRules fun rules' => ?_
    exact h.costs.createProductSetting hid.clean hid.cost hp hnew
  | updateProductConfiguration stamp productFound id body hid hp =>
    refine h.attempt fun next => h.onCostRules fun rules' => ?_
    exact h.costs.updateProductConfiguration hid.clean hid.cost hp
  | correctProductCostRule productFound productId costRuleId body =>
    exact h.attempt fun next => h.onCostRules fun rules' => h.costs.correctProductCostRule
  | importCostFile clock body file hf => exact h.attempt fun next => h.importCostFile hf
  | deleteCostUpload id => exact h.attempt fun next => h.deleteCostUpload
  | createSalesFeeRule stamp body hid =>
    exact h.attempt fun next => h.onSalesFeeRules fun fees' => h.fees.createSalesFeeRule hid.fee
  | correctSalesFeeRule id body =>
    exact h.attempt fun next => h.onSalesFeeRules fun fees' => h.fees.correctSalesFeeRule

theorem FeeInv.seed (hseed : fees.length ≤ 1) (hopen : ∀ r ∈ fees, r.effectiveTo = none) : FeeInv fees := by
  rcases fees with _ | ⟨r, _ | ⟨s, fees⟩⟩
  · exact ⟨nodup_nil, nodup_nil, fun r hr => nomatch hr⟩
  · refine ⟨nodup_singleton _, nodup_singleton _, fun s hs => ?_⟩
    rw [mem_singleton.mp hs]
    show r.effectiveTo = _
    rw [hopen r mem_cons_self]
    unfold closedStop
    rw [nextStart_eq_none_iff.mpr]
    · rfl
    · intro s hs
      rw [mem_singleton.mp hs]
  · simp at hseed

/-- **Every reachable store has contiguous histories.** -/
theorem CostReachable.inv (h : CostReachable store) : CostInv store := by
  induction h with
  | init fees hseed hopen =>
    refine ⟨⟨nodup_nil, fun r hr => (nomatch hr), fun r hr => (nomatch hr), fun p _ => ?_⟩,
      FeeInv.seed hseed hopen, nodup_nil, nofun⟩
    exact ⟨nodup_nil, fun r hr => (nomatch hr)⟩
  | step _ hs ih => exact ih.step hs

/-! ## 7. Readers -/

theorem findRuleForDate_eq_some_iff (h : Contiguous costDated rules) (d : Int) (r : CoupangCostRule) :
    findRuleForDate rules d = some r ↔ LatestAt costDated rules d r :=
  h.search_eq_some_iff _ d r

/-- The search of the writers, by starts alone, finds the same rule. -/
theorem findCoupangCostRuleAtOrBeforeDate_eq_some_iff (h : Contiguous costDated (ofProduct p rules))
    (d : Int) (r : CoupangCostRule) :
    findCoupangCostRuleAtOrBeforeDate p d rules = some r ↔
      LatestAt costDated (ofProduct p rules) d r := by
  rw [← h.searchStarts_eq_some_iff (fun a b => historyRank b ≤ historyRank a)
    (fun a b => effectiveFrom_le_of_rank)]
  have e : (ofProduct p rules).filter (fun r => decide (costDated.start r ≤ d)) =
      rules.filter fun r => r.coupangProductId = p && r.effectiveFrom ≤ d := by
    unfold ofProduct
    rw [filter_filter]
    exact filter_congr fun r _ => Bool.and_comm _ _
  rw [e]
  rfl

theorem findSalesFeeRuleForDate_eq_some_iff (h : Contiguous feeDated fees) (d : Int)
    (r : CoupangSalesFeeRule) :
    findSalesFeeRuleForDate fees d = some r ↔ LatestAt feeDated fees d r :=
  h.search_eq_some_iff _ d r

theorem currentSalesFeeRule_eq_ok_iff (h : Contiguous feeDated fees) (d : Int) (r : CoupangSalesFeeRule) :
    currentSalesFeeRule fees d = .ok r ↔ LatestAt feeDated fees d r := by
  have hsearch := h.search_eq_some_iff
    (fun a b => toLex (b.effectiveFrom, b.createdAt) ≤ toLex (a.effectiveFrom, a.createdAt)) d r
  rw [← hsearch]
  unfold currentSalesFeeRule
  split
  · rename_i rule e
    rw [Except.ok.injEq, ← Option.some.injEq, ← e]
    rfl
  · rename_i e
    refine ⟨nofun, fun h => ?_⟩
    have : (none : Option CoupangSalesFeeRule) = some r := e.symm.trans h
    cases this

/-- **The histories of every reachable store are reliable**: of every product and of the sales
    fee. The search of the writers and the fee of a day agree with the search by ranges. -/
theorem cost_and_fee_histories_reliable {store : CostStore} (h : CostReachable store) :
    (∀ p, Reliable costDated (ofProduct p store.costRules)
        (findRuleForDate (ofProduct p store.costRules)) ∧
      ∀ d, findCoupangCostRuleAtOrBeforeDate p d store.costRules =
        findRuleForDate (ofProduct p store.costRules) d) ∧
    Reliable feeDated store.salesFeeRules (findSalesFeeRuleForDate store.salesFeeRules) ∧
      ∀ d r, currentSalesFeeRule store.salesFeeRules d = .ok r ↔
        findSalesFeeRuleForDate store.salesFeeRules d = some r := by
  have hinv := h.inv
  refine ⟨fun p => ?_, ?_, fun d r => ?_⟩
  · have hp := hinv.costs.histories p not_mem_nil
    refine ⟨hp.reliable (findRuleForDate_eq_some_iff hp), fun d => Option.ext fun r => ?_⟩
    rw [findCoupangCostRuleAtOrBeforeDate_eq_some_iff hp, findRuleForDate_eq_some_iff hp]
  · exact hinv.fees.history.reliable (findSalesFeeRuleForDate_eq_some_iff hinv.fees.history)
  · rw [currentSalesFeeRule_eq_ok_iff hinv.fees.history,
      findSalesFeeRuleForDate_eq_some_iff hinv.fees.history]

def emptyCostStore : CostStore := { costRules := [], salesFeeRules := [], uploads := [], rowErrors := [] }

/-- A product with a cost of 100 from the first of July. -/
def oneCostRule : CostStore :=
  attempt (onCostRules (createProductSetting "2026-07-01" { id := "r1", createdAt := 1, today := 0 } "p"
    [("productCostKrw", .num 100)])) emptyCostStore

/-- Then a cost of 120 from the tenth. -/
def twoCostRules : CostStore :=
  attempt (onCostRules (updateProductConfiguration { id := "r2", createdAt := 2, today := 0 } true "p"
    [("effectiveFrom", .str "2026-07-10"), ("productCostKrw", .num 120)])) oneCostRule

theorem costReachable_twoCostRules : CostReachable twoCostRules := by
  have h0 : CostReachable emptyCostStore := .init [] (by decide) (fun r hr => (nomatch hr))
  have h1 : CostReachable oneCostRule := by
    refine h0.step (.createProductSetting _ _ _ _ ⟨by decide, ?_, ?_⟩ (by decide) ?_)
    · exact fun r hr => (nomatch hr)
    · exact fun r hr => (nomatch hr)
    · exact fun r hr => (nomatch hr)
  have hids : oneCostRule.costRules.map (·.id) = ["r1"] := by decide +kernel
  refine h1.step (.updateProductConfiguration _ _ _ _ ⟨by decide, fun r hr e => ?_, ?_⟩ (by decide))
  · have hm : r.id ∈ oneCostRule.costRules.map (·.id) := mem_map_of_mem hr
    rw [hids, e] at hm
    exact absurd hm (by decide)
  · have hfees : oneCostRule.salesFeeRules = [] := by decide +kernel
    rw [hfees]
    exact fun r hr => (nomatch hr)

theorem cost_and_fee_histories_reliable_twoCostRules :
    (twoCostRules.costRules.map fun r => (r.effectiveFrom, r.effectiveTo)) =
        [(20635, some 20643), (20644, none)] ∧
      Reliable costDated (ofProduct "p" twoCostRules.costRules)
        (findRuleForDate (ofProduct "p" twoCostRules.costRules)) :=
  ⟨by decide +kernel, ((cost_and_fee_histories_reliable costReachable_twoCostRules).1 "p").1⟩

end AdsManagement.Coupang
