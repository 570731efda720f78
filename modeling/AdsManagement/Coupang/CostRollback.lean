/-
  File:      Coupang/CostRollback.lean
  Subject:   DELETING A MARGIN OR PRICE-TEXT UPLOAD undoes its import exactly, and is refused
             when a rule it wrote has changed since.

  The rows of a file all start on one day, so a product's first row creates or updates its rule
  of that day and every further row of the product updates it. Undone from the last row on, a
  rule is found as the row has left it. What may differ on the way are the ends of the products
  whose rule has been removed again; the closing normalisation restores them.

  * `rollbackAppliedRow_toJson` -- the stored rows are read back as they were;
  * `Undone` -- the rolled-back table against the table before the row;
  * `rollback_applyCostFile` -- the rollback of a file restores the table;
  * `findRule_of_rollbackRows` -- a rollback that succeeds found every rule as the upload left it.
-/
import AdsManagement.Coupang.CostHistory

namespace AdsManagement.Coupang

open Common Lib List

variable {rules rules' : List CoupangCostRule}

/-! ## 1. Snapshots read back -/

/-- Both days of a rule read back from their texts. -/
structure DatesReadBack (r : CoupangCostRule) : Prop where
  start : ReadsBack r.effectiveFrom
  stop : ∀ e ∈ r.effectiveTo, ReadsBack e

/-- The write that restores the columns of a rule. -/
def restoring (r : CoupangCostRule) : CostData where
  salePriceKrw := some r.salePriceKrw
  supplyPriceKrw := some r.supplyPriceKrw
  productCostKrw := some r.productCostKrw
  salesFeeRate := some r.salesFeeRate
  salesFeeKrw := some r.salesFeeKrw
  sellerShippingFeeKrw := some r.sellerShippingFeeKrw
  hanaroShippingFeeKrw := some r.hanaroShippingFeeKrw
  growthInboundFeeKrw := some r.growthInboundFeeKrw
  growthShippingFeeKrw := some r.growthShippingFeeKrw
  returnRate := some r.returnRate
  returnCostPerUnitKrw := some r.returnCostPerUnitKrw
  extraCostKrw := some r.extraCostKrw
  effectiveFrom := some r.effectiveFrom
  effectiveTo := some r.effectiveTo
  note := some r.note

variable {s : Nat}

theorem decimalOf_text (x : Scaled s) : decimalOf s x.text = .ok x := by
  unfold decimalOf
  rw [readScaled_text]

theorem nullableDecimalOf_text (x : Option (Scaled s)) :
    nullableDecimalOf s (x.map (·.text)) = .ok x := by
  cases x with
  | none => rfl
  | some x =>
    unfold nullableDecimalOf
    rw [Option.map_some]
    simp only [decimalOf_text]
    rfl

variable {r : CoupangCostRule}

theorem snapshotEffectiveTo_serialize (h : DatesReadBack r) :
    snapshotEffectiveTo (serializeCoupangCostRuleRollbackSnapshot r) = .ok r.effectiveTo := by
  unfold snapshotEffectiveTo serializeCoupangCostRuleRollbackSnapshot
  cases e : r.effectiveTo with
  | none => rfl
  | some d =>
    have hd := h.stop d e
    have htruthy : isTruthy ((some d).map formatDateOnly) = true :=
      bne_iff_ne.mpr (formatDateOnly_ne_empty hd)
    rw [if_pos htruthy, Option.map_some, Option.map_some, requiredDateFromBody_eq_ok hd]
    rfl

/-- **A snapshot is read back as the columns it was taken from.** -/
theorem deserialize_serialize (h : DatesReadBack r) :
    deserializeCoupangCostRuleRollbackSnapshot (serializeCoupangCostRuleRollbackSnapshot r) =
      .ok (restoring r) := by
  unfold deserializeCoupangCostRuleRollbackSnapshot
  rw [snapshotEffectiveTo_serialize h]
  unfold serializeCoupangCostRuleRollbackSnapshot
  simp only [decimalOf_text, nullableDecimalOf_text, requiredDateFromBody_eq_ok h.start]
  rfl

theorem finiteDecimalText_text (x : Scaled s) :
    finiteDecimalText (some (.str x.text)) = some x.text := by
  unfold finiteDecimalText
  dsimp only
  rw [readDecimal_text]
  simp [trim_text_ne_empty x]

theorem nullableFiniteDecimalText_text (x : Option (Scaled s)) :
    nullableFiniteDecimalText (some (nullableText (x.map (·.text)))) = some (x.map (·.text)) := by
  cases x with
  | none => rfl
  | some x =>
    show (finiteDecimalText (some (.str x.text))).map some = _
    rw [finiteDecimalText_text]
    rfl

variable {d : Int}

theorem strictDateOnlyText_formatDateOnly (h : ReadsBack d) :
    strictDateOnlyText (some (.str (formatDateOnly d))) = some (formatDateOnly d) := by
  unfold strictDateOnlyText
  dsimp only
  rw [isIsoShape_formatDateOnly h, toDateOnly_formatDateOnly h]
  rfl

theorem nullableStrictDateOnlyText_formatDateOnly {e : Option Int} (h : ∀ d ∈ e, ReadsBack d) :
    nullableStrictDateOnlyText (some (nullableText (e.map formatDateOnly))) =
      some (e.map formatDateOnly) := by
  cases e with
  | none => rfl
  | some d =>
    show (strictDateOnlyText (some (.str (formatDateOnly d)))).map some = _
    rw [strictDateOnlyText_formatDateOnly (h d rfl)]
    rfl

theorem nullableStringText_nullableText (note : Option String) :
    nullableStringText (some (nullableText note)) = some note := by
  cases note with
  | none | some s => rfl

/-- **A stored snapshot is parsed as it was.** -/
theorem parse_toJson (h : DatesReadBack r) :
    parseCoupangCostRuleRollbackSnapshot
        (some (serializeCoupangCostRuleRollbackSnapshot r).toJson) =
      some (serializeCoupangCostRuleRollbackSnapshot r) := by
  unfold parseCoupangCostRuleRollbackSnapshot CostSnapshot.toJson
  simp only [Body.get_cons, String.reduceEq, if_true, if_false]
  unfold serializeCoupangCostRuleRollbackSnapshot
  simp only [finiteDecimalText_text, nullableFiniteDecimalText_text, nullableStringText_nullableText,
    strictDateOnlyText_formatDateOnly h.start, nullableStrictDateOnlyText_formatDateOnly h.stop]
  rfl

variable {s : CoupangCostRule}

/-- The snapshot of a rule fixes its columns. -/
theorem restoring_eq_of_serialize (hr : DatesReadBack r) (hs : DatesReadBack s)
    (h : serializeCoupangCostRuleRollbackSnapshot r = serializeCoupangCostRuleRollbackSnapshot s) :
    restoring r = restoring s := by
  have e := deserialize_serialize hr
  rw [h, deserialize_serialize hs] at e
  exact (Except.ok.inj e).symm

/-! ## 2. Applied rows read back -/

/-- A row as an import stores it. -/
structure StoredRowOk (row : AppliedRow) : Prop where
  product : IsClean row.productId
  rule : IsClean row.costRuleId
  after : ∃ r, DatesReadBack r ∧ row.costRuleAfter = serializeCoupangCostRuleRollbackSnapshot r
  before : (row.costRuleOperation = .CREATED ∧ row.costRuleBefore = none) ∨
    (row.costRuleOperation = .UPDATED_SAME_DATE ∧ ∃ r, DatesReadBack r ∧
      row.costRuleBefore = some (serializeCoupangCostRuleRollbackSnapshot r))

variable {row : AppliedRow}

/-- **An applied row is read back as it was stored.** -/
theorem rollbackAppliedRow_toJson (h : StoredRowOk row) :
    rollbackAppliedRow row.toJson = .ok row := by
  obtain ⟨rowNumber, itemName, standardName, productId, costRuleId, price, operation, before, after⟩ := row
  obtain ⟨hp, hc, ⟨r, hr, rfl⟩, hbefore⟩ := h
  have hproduct : trimmedText (some (.str productId)) = productId := hp.1
  have hrule : trimmedText (some (.str costRuleId)) = costRuleId := hc.1
  have hnumber : ⌊numberOrZero (some (.num (rowNumber : ℚ)))⌋.toNat = rowNumber := by
    show ⌊((rowNumber : Nat) : ℚ)⌋.toNat = _
    rfl
  unfold rollbackAppliedRow AppliedRow.toJson
  simp only [Body.get_cons, String.reduceEq, if_true, if_false, hproduct, hrule, parse_toJson hr]
  rcases hbefore with ⟨rfl, rfl⟩ | ⟨rfl, b, hb, rfl⟩
  · rw [show costRuleOperationOf (some (.str CostRuleOperation.CREATED.text)) = some .CREATED from rfl]
    simp only
    rw [if_neg]
    · rfl
    · rintro (e | e | ⟨e, -⟩ | ⟨-, e⟩)
      · exact hp.2 e
      · exact hc.2 e
      · cases e
      · cases e
  · rw [show costRuleOperationOf (some (.str CostRuleOperation.UPDATED_SAME_DATE.text)) =
      some .UPDATED_SAME_DATE from rfl]
    simp only [parse_toJson hb]
    rw [if_neg]
    · rfl
    · rintro (e | e | ⟨-, e⟩ | ⟨e, -⟩)
      · exact hp.2 e
      · exact hc.2 e
      · cases e
      · cases e

variable {file : CostFile}

/-- **The column of an upload gives back its rows.** -/
theorem rollbackAppliedRows_storedUpload {appliedRows : List AppliedRow}
    (h : ∀ row ∈ appliedRows, StoredRowOk row) :
    rollbackAppliedRows (storedUpload file d appliedRows).columnSchema
      (storedUpload file d appliedRows).validRowCount = .ok appliedRows := by
  have hmap : (appliedRows.map AppliedRow.toJson).mapM rollbackAppliedRow = .ok appliedRows := by
    induction appliedRows with
    | nil => rfl
    | cons row rest ih =>
      rw [map_cons, mapM_cons, rollbackAppliedRow_toJson (h row mem_cons_self),
        ih fun r hr => h r (mem_cons_of_mem _ hr)]
      rfl
  unfold rollbackAppliedRows storedUpload
  simp only [Body.get_cons, String.reduceEq, if_true, if_false, length_map, ne_eq]
  exact hmap

/-! ## 3. What a row has written -/

theorem HistoryInv.contiguous (h : HistoryInv [] rules) (p : String) :
    Contiguous costDated (ofProduct p rules) := h.histories p not_mem_nil

section

variable (h : HistoryInv [] rules) (hr : r ∈ rules)
include h hr

theorem HistoryInv.validRange : validRange r = true := by
  unfold Coupang.validRange
  rw [Option.all_eq_true]
  intro e he
  exact decide_eq_true ((h.contiguous _).start_le_stop (mem_ofProduct.mpr ⟨hr, rfl⟩) he).1

theorem HistoryInv.datesReadBack : DatesReadBack r := by
  refine ⟨h.dates r hr, fun e he => ?_⟩
  obtain ⟨hle, s, hs, es⟩ := (h.contiguous _).start_le_stop (mem_ofProduct.mpr ⟨hr, rfl⟩) he
  refine (h.dates r hr).between (h.dates s (mem_ofProduct.mp hs).1) hle ?_
  have : s.effectiveFrom = e + 1 := es
  omega

/-- Two rules of a product that start together are one. -/
theorem HistoryInv.eq_of_start (hs : s ∈ rules)
    (hp : r.coupangProductId = s.coupangProductId) (hd : r.effectiveFrom = s.effectiveFrom) : r = s :=
  inj_on_of_nodup_map (h.contiguous s.coupangProductId).distinct (mem_ofProduct.mpr ⟨hr, hp⟩)
    (mem_ofProduct.mpr ⟨hs, rfl⟩) hd

end

variable {p : String}

theorem startingOnDate_eq_none (h : findCoupangCostRuleStartingOnDate p d rules = none) :
    ∀ r ∈ rules, r.coupangProductId = p → r.effectiveFrom ≠ d := by
  intro r hr hp hd
  have hm : r ∈ (rules.filter fun r => r.coupangProductId = p && r.effectiveFrom = d).insertionSort
      fun a b => toLex (b.createdAt, b.id) ≤ toLex (a.createdAt, a.id) := by
    rw [mem_insertionSort, mem_filter]
    exact ⟨hr, by rw [decide_eq_true hp, decide_eq_true hd]; rfl⟩
  rw [head?_eq_none_iff.mp h] at hm
  cases hm

theorem CostFileRow.buildData_effectiveTo (row : CostFileRow) (d : Int)
    (rules : List CoupangCostRule) (base : Option CoupangCostRule) :
    (row.buildData d rules base).effectiveTo = none := by
  cases row with
  | margin row | priceText row legacy => rfl

/-- A row that has updated the rule of its day. -/
structure HasUpdated (rules : List CoupangCostRule) (old : CoupangCostRule) (data : CostData)
    (rules' : List CoupangCostRule) (row : AppliedRow) : Prop where
  mem : old ∈ rules
  start : data.effectiveFrom = some old.effectiveFrom
  stop : data.effectiveTo = none
  table : rules' = rules.map fun r => if r.id = old.id then data.update r else r
  product : row.productId = old.coupangProductId
  rule : row.costRuleId = old.id
  operation : row.costRuleOperation = .UPDATED_SAME_DATE
  before : row.costRuleBefore = some (serializeCoupangCostRuleRollbackSnapshot old)
  after : row.costRuleAfter = serializeCoupangCostRuleRollbackSnapshot (data.update old)

/-- A row that has created the rule of its day. -/
structure HasCreated (rules : List CoupangCostRule) (new : CoupangCostRule)
    (rules' : List CoupangCostRule) (row : AppliedRow) : Prop where
  fresh : ∀ r ∈ rules, r.id ≠ new.id
  absent : ∀ r ∈ rules, r.coupangProductId = new.coupangProductId → r.effectiveFrom ≠ new.effectiveFrom
  table : rules' = closeProduct new.coupangProductId (rules ++ [new])
  product : row.productId = new.coupangProductId
  rule : row.costRuleId = new.id
  operation : row.costRuleOperation = .CREATED
  before : row.costRuleBefore = none
  after : row.costRuleAfter = serializeCoupangCostRuleRollbackSnapshot
    (close costDated (ofProduct new.coupangProductId (rules ++ [new])) new)

theorem normalize_eq_closeProduct (hids : (rules.map (·.id)).Nodup)
    (h : normalizeCoupangCostRuleRanges p rules = .ok rules') : rules' = closeProduct p rules := by
  rw [normalizeCoupangCostRuleRanges_eq hids] at h
  split at h
  · exact (Except.ok.inj h).symm
  · cases h

variable {old : CoupangCostRule} {data : CostData}

/-- An update that keeps the days of a rule breaks no history. -/
theorem closeProduct_update (h : HistoryInv [] rules) (ho : old ∈ rules)
    (hstart : data.effectiveFrom = some old.effectiveFrom) (hstop : data.effectiveTo = none) (p : String) :
    closeProduct p (rules.map fun r => if r.id = old.id then data.update r else r) =
      rules.map fun r => if r.id = old.id then data.update r else r := by
  refine closeProduct_eq_self ?_
  rw [ofProduct_map]
  · refine (h.contiguous p).map (fun r hr => ?_) fun r hr => ?_
    · split
      · rename_i e
        rw [eq_of_rule_id h.ids (mem_ofProduct.mp hr).1 ho e]
        show data.effectiveFrom.getD _ = old.effectiveFrom
        rw [hstart, Option.getD_some]
      · rfl
    · split
      · show data.effectiveTo.getD _ = _
        rw [hstop]
        rfl
      · rfl
  · intro r _
    split
    · rfl
    · rfl

/-- **What a row of a file does** to contiguous histories. -/
theorem applyCostFileRow_cases {line : CostFileLine} {row : CostFileRow} {applied : AppliedRow}
    (h : HistoryInv [] rules) (hd : ReadsBack d) (hid : IsClean line.stamp.id) (hp : IsClean line.productId)
    (hfresh : ∀ r ∈ rules, r.id ≠ line.stamp.id)
    (ha : applyCostFileRow d line row rules = .ok (rules', applied)) :
    (∃ old data, HasUpdated rules old data rules' applied ∧ old.effectiveFrom = d) ∨
      ∃ new, HasCreated rules new rules' applied ∧ new.effectiveFrom = d := by
  obtain ⟨saved, hu, rfl⟩ := applyCostFileRow_eq_ok ha
  rcases upsertImportedCoupangCostRule_cases hu with
    ⟨old, written, rule, hold, hw, hn, hf, rfl⟩ | ⟨written, rule, hnone, hw, hn, hf, rfl⟩
  · obtain ⟨ho, hop, hod⟩ := startingOnDate_mem hold
    have hstart : (row.buildData d rules (some old)).effectiveFrom = some old.effectiveFrom := by
      rw [row.buildData_effectiveFrom, hod]
    have hids : (written.map (·.id)).Nodup := by
      rw [map_id_update hw]
      exact h.ids
    have htable := normalize_eq_closeProduct hids hn
    rw [updateRule_eq_ok hw, closeProduct_update h ho hstart (row.buildData_effectiveTo ..)] at htable
    have hrule : (row.buildData d rules (some old)).update old = rule := by
      have hids' : (rules'.map (·.id)).Nodup := by
        rw [map_id_normalize hids hn]
        exact hids
      obtain ⟨hr, hri⟩ := (findRule_eq_some hids').mp hf
      refine eq_of_rule_id hids' ?_ hr hri.symm
      rw [htable]
      exact mem_map.mpr ⟨old, ho, if_pos rfl⟩
    refine .inl ⟨old, row.buildData d rules (some old), ⟨ho, hstart, row.buildData_effectiveTo ..,
      htable, hop.symm, ?_, rfl, rfl, ?_⟩, hod⟩
    · rw [← hrule]
      rfl
    · rw [← hrule]
  · generalize hnew : (row.buildData d rules
      (findCoupangCostRuleAtOrBeforeDate line.productId d rules)).create line.stamp line.productId =
        new at hw
    have hni : new.id = line.stamp.id := by rw [← hnew]; rfl
    have hnp : new.coupangProductId = line.productId := by rw [← hnew]; rfl
    have hnd : new.effectiveFrom = d := by
      rw [← hnew]
      show Option.getD _ _ = d
      rw [row.buildData_effectiveFrom, Option.getD_some]
    have hopen := h.create hw (by rw [hni]; exact hid) (by rw [hni]; exact hfresh)
      (by rw [hnp]; exact hp) (by rw [hnd]; exact hd)
    obtain ⟨rfl, -⟩ := createRule_eq_ok hw
    have htable := normalize_eq_closeProduct hopen.ids hn
    rw [← hnp] at htable
    have hrule : close costDated (ofProduct new.coupangProductId (rules ++ [new])) new = rule := by
      have hids' : (rules'.map (·.id)).Nodup := by
        rw [map_id_normalize hopen.ids hn]
        exact hopen.ids
      obtain ⟨hr, hri⟩ := (findRule_eq_some hids').mp hf
      refine eq_of_rule_id hids' ?_ hr (hni.trans hri.symm)
      rw [htable]
      exact mem_map.mpr ⟨new, mem_append_right _ (mem_singleton_self _), if_pos rfl⟩
    refine .inr ⟨new, ⟨by rw [hni]; exact hfresh, ?_, htable, hnp.symm, ?_, rfl, rfl, ?_⟩, hnd⟩
    · intro r hr hp
      rw [hnd]
      exact startingOnDate_eq_none hnone r hr (hp.trans hnp)
    · rw [← hrule]
      rfl
    · rw [← hrule]

/-! ## 4. Undoing the rows -/

variable {α : Type}

theorem forall₂_imp_mem {β : Type} {R S : α → β → Prop} {l : List α} {m : List β} (h : Forall₂ R l m)
    (hi : ∀ a b, b ∈ m → R a b → S a b) : Forall₂ S l m := by
  induction h with
  | nil => exact .nil
  | cons hab _ ih =>
    exact .cons (hi _ _ mem_cons_self hab) (ih fun a b hb => hi a b (mem_cons_of_mem _ hb))

def withoutEnd (r : CoupangCostRule) : CoupangCostRule := { r with effectiveTo := none }

variable {b t : CoupangCostRule}

theorem id_of_withoutEnd (h : withoutEnd b = withoutEnd t) : b.id = t.id :=
  show (withoutEnd b).id = (withoutEnd t).id from congrArg _ h

theorem product_of_withoutEnd (h : withoutEnd b = withoutEnd t) :
    b.coupangProductId = t.coupangProductId :=
  show (withoutEnd b).coupangProductId = (withoutEnd t).coupangProductId from congrArg _ h

theorem start_of_withoutEnd (h : withoutEnd b = withoutEnd t) : b.effectiveFrom = t.effectiveFrom :=
  show (withoutEnd b).effectiveFrom = (withoutEnd t).effectiveFrom from congrArg _ h

/-- The rolled-back table against the table it is to become: the same rules up to their ends, and
    the very same for the products that hold exactly. -/
def Undone (exact : String → Prop) (undone rules : List CoupangCostRule) : Prop :=
  Forall₂ (fun b t => withoutEnd b = withoutEnd t ∧ (exact t.coupangProductId → b = t)) undone rules

variable {exact : String → Prop} {undone : List CoupangCostRule}

theorem Undone.refl (exact : String → Prop) (rules : List CoupangCostRule) : Undone exact rules rules :=
  forall₂_same.mpr fun _ _ => ⟨rfl, fun _ => rfl⟩

variable {exact' : String → Prop}

theorem Undone.mono (h : Undone exact undone rules) (hi : ∀ p, exact' p → exact p) :
    Undone exact' undone rules :=
  h.imp fun _ _ ⟨hw, he⟩ => ⟨hw, fun hp => he (hi _ hp)⟩

/-- What does not depend on the ends is the same in both tables. -/
theorem Undone.map_eq {f : CoupangCostRule → α} (h : Undone exact undone rules)
    (hf : ∀ b t, withoutEnd b = withoutEnd t → f b = f t) : undone.map f = rules.map f := by
  have h' : Forall₂ (· = ·) (undone.map f) (rules.map f) := by
    rw [forall₂_map_left_iff, forall₂_map_right_iff]
    exact h.imp fun b t hbt => hf b t hbt.1
  rwa [forall₂_eq_eq_eq] at h'

theorem Undone.ids (h : Undone exact undone rules) : undone.map (·.id) = rules.map (·.id) :=
  h.map_eq fun _ _ => id_of_withoutEnd

theorem Undone.exists_mem (h : Undone exact undone rules) (hb : b ∈ undone) :
    ∃ t ∈ rules, withoutEnd b = withoutEnd t := by
  have hm : withoutEnd b ∈ rules.map withoutEnd := by
    rw [← h.map_eq fun _ _ e => e]
    exact mem_map_of_mem hb
  obtain ⟨t, ht, e⟩ := mem_map.mp hm
  exact ⟨t, ht, e.symm⟩

theorem Undone.mem (h : Undone exact undone rules) (ht : t ∈ rules) (he : exact t.coupangProductId) :
    t ∈ undone := by
  induction h with
  | nil => cases ht
  | cons hbt _ ih =>
    rcases mem_cons.mp ht with rfl | ht
    · rw [hbt.2 he]
      exact mem_cons_self
    · exact mem_cons_of_mem _ (ih ht)

/-- No two rules of the rolled-back table clash. -/
theorem Undone.id_of_sameStart (hinv : HistoryInv [] rules) (h : Undone exact undone rules)
    (hr : r ∈ undone) (hs : s ∈ undone) (hclash : sameStart r s = true) :
    r.id = s.id := by
  obtain ⟨t, ht, et⟩ := h.exists_mem hr
  obtain ⟨u, hu, eu⟩ := h.exists_mem hs
  obtain ⟨hp, hd⟩ := Bool.and_eq_true_iff.mp hclash
  rw [id_of_withoutEnd et, id_of_withoutEnd eu]
  congr 1
  refine hinv.eq_of_start ht hu ?_ ?_
  · rw [← product_of_withoutEnd et, ← product_of_withoutEnd eu]
    exact of_decide_eq_true hp
  · rw [← start_of_withoutEnd et, ← start_of_withoutEnd eu]
    exact of_decide_eq_true hd

variable {id : String}

theorem updateRule_ok (rules' : List CoupangCostRule)
    (he : rules' = rules.map fun r => if r.id = id then data.update r else r)
    (hclash : ∀ r ∈ rules', ∀ s ∈ rules', sameStart r s = true → r.id = s.id)
    (hvalid : ∀ r ∈ rules', r.id = id → validRange r = true) :
    updateRule id data rules = .ok rules' := by
  unfold updateRule
  simp only [← he]
  rw [if_neg, if_neg]
  · rw [any_eq_true]
    rintro ⟨r, hr, hb⟩
    obtain ⟨hi, hv⟩ := Bool.and_eq_true_iff.mp hb
    rw [hvalid r hr (of_decide_eq_true hi)] at hv
    cases hv
  · rw [any_eq_true]
    rintro ⟨r, hr, hb⟩
    obtain ⟨hi, hany⟩ := Bool.and_eq_true_iff.mp hb
    obtain ⟨s, hs, hb⟩ := any_eq_true.mp hany
    obtain ⟨hne, hsame⟩ := Bool.and_eq_true_iff.mp hb
    refine of_decide_eq_true hne ?_
    rw [← hclash r hr s hs hsame]
    exact of_decide_eq_true hi

/-- The rule is stored as the row has left it. -/
structure FoundAsLeft (undone : List CoupangCostRule) (row : AppliedRow) (current : CoupangCostRule) :
    Prop where
  find : findRule row.costRuleId undone = some current
  product : row.productId = current.coupangProductId
  after : row.costRuleAfter = serializeCoupangCostRuleRollbackSnapshot current

variable {current : CoupangCostRule}

theorem FoundAsLeft.passes (h : FoundAsLeft undone row current) :
    ¬ (current.coupangProductId ≠ row.productId ∨
      sameCoupangCostRuleRollbackSnapshot current row.costRuleAfter = false) := by
  rintro (hp | hs)
  · exact hp h.product.symm
  · rw [h.after] at hs
    exact of_decide_eq_false hs rfl

theorem FoundAsLeft.restored {before : CostSnapshot} (h : FoundAsLeft undone row current)
    (hop : row.costRuleOperation = .UPDATED_SAME_DATE) (hb : row.costRuleBefore = some before) :
    rollbackRow undone row =
      (deserializeCoupangCostRuleRollbackSnapshot before >>= fun data =>
        updateRule row.costRuleId data undone) := by
  unfold rollbackRow
  rw [h.find]
  simp only
  rw [if_neg h.passes, hop, hb]

theorem FoundAsLeft.removed (h : FoundAsLeft undone row current) (hop : row.costRuleOperation = .CREATED) :
    rollbackRow undone row = .ok (deleteRule row.costRuleId undone) := by
  unfold rollbackRow
  rw [h.find]
  simp only
  rw [if_neg h.passes, hop]

/-- **An update is undone.** -/
theorem HasUpdated.undo (h : HasUpdated rules old data rules' row) (hinv : HistoryInv [] rules)
    (hinv' : HistoryInv [] rules') (hu : Undone exact undone rules') (he : exact old.coupangProductId) :
    ∃ undone', rollbackRow undone row = .ok undone' ∧ Undone exact undone' rules := by
  have hmem : data.update old ∈ rules' := by
    rw [h.table]
    exact mem_map.mpr ⟨old, h.mem, if_pos rfl⟩
  have hids : (undone.map (·.id)).Nodup := by
    rw [hu.ids]
    exact hinv'.ids
  let restore := fun r : CoupangCostRule => if r.id = old.id then (restoring old).update r else r
  have hback : rules = rules'.map restore := by
    rw [h.table, map_map]
    refine ((map_congr_left fun r hr => ?_).trans (map_id' rules)).symm
    by_cases hi : r.id = old.id
    · simp only [Function.comp_apply, if_pos hi]
      rw [eq_of_rule_id hinv.ids hr h.mem hi]
      exact if_pos rfl
    · simp only [Function.comp_apply, if_neg hi]
      exact if_neg hi
  have hundone : Undone exact (undone.map restore) rules := by
    rw [hback]
    unfold Undone
    rw [forall₂_map_left_iff, forall₂_map_right_iff]
    refine forall₂_imp_mem hu fun b t ht ⟨hw, hexact⟩ => ?_
    by_cases hi : t.id = old.id
    · -- the rule of the row: its product holds exactly
      have ht' : t = data.update old := eq_of_rule_id hinv'.ids ht hmem hi
      have hbt : b = t := hexact (by rw [ht']; exact he)
      rw [hbt]
      exact ⟨rfl, fun _ => rfl⟩
    · have hbi : ¬ b.id = old.id := by
        rw [id_of_withoutEnd hw]
        exact hi
      simp only [restore, if_neg hi, if_neg hbi]
      exact ⟨hw, hexact⟩
  refine ⟨undone.map restore, ?_, hundone⟩
  have hfound : FoundAsLeft undone row (data.update old) :=
    ⟨(findRule_eq_some hids).mpr ⟨hu.mem hmem he, h.rule.symm⟩, h.product, h.after⟩
  rw [hfound.restored h.operation h.before, deserialize_serialize (hinv.datesReadBack h.mem), h.rule]
  refine updateRule_ok _ rfl (fun r hr s hs => hundone.id_of_sameStart hinv hr hs) fun r hr hi => ?_
  obtain ⟨t, ht, et⟩ := hundone.exists_mem hr
  have hids' : ((undone.map restore).map (·.id)).Nodup := by
    rw [hundone.ids]
    exact hinv.ids
  rw [eq_of_rule_id hids' hr (hundone.mem h.mem he) hi]
  exact hinv.validRange h.mem

variable {new : CoupangCostRule}

theorem HasCreated.mem (h : HasCreated rules new rules' row) :
    close costDated (ofProduct new.coupangProductId (rules ++ [new])) new ∈ rules' := by
  rw [h.table]
  exact mem_map.mpr ⟨new, mem_append_right _ (mem_singleton_self _), if_pos rfl⟩

/-- **A creation is undone**, up to the ends of the product. -/
theorem HasCreated.undo (h : HasCreated rules new rules' row) (hinv' : HistoryInv [] rules')
    (hu : Undone exact undone rules') (he : exact new.coupangProductId) (hmono : ∀ p, exact' p → exact p)
    (hnot : ¬ exact' new.coupangProductId) :
    ∃ undone', rollbackRow undone row = .ok undone' ∧ Undone exact' undone' rules := by
  have hmem := h.mem
  have hids : (undone.map (·.id)).Nodup := by
    rw [hu.ids]
    exact hinv'.ids
  refine ⟨deleteRule new.id undone, ?_, ?_⟩
  · have hfound : FoundAsLeft undone row
        (close costDated (ofProduct new.coupangProductId (rules ++ [new])) new) :=
      ⟨(findRule_eq_some hids).mpr ⟨hu.mem hmem he, h.rule.symm⟩, h.product, h.after⟩
    rw [hfound.removed h.operation, h.rule]
  · let ended := fun r : CoupangCostRule => if r.coupangProductId = new.coupangProductId then
      close costDated (ofProduct new.coupangProductId (rules ++ [new])) r else r
    have hdelete : deleteRule new.id rules' = rules.map ended := by
      rw [h.table]
      unfold deleteRule closeProduct
      rw [map_append, filter_append, filter_eq_self.mpr, filter_eq_nil_iff.mpr, append_nil]
      · intro r hr
        rw [map_singleton, mem_singleton] at hr
        rw [hr, if_pos rfl]
        exact fun hne => of_decide_eq_true hne rfl
      · intro r hr
        obtain ⟨s, hs, rfl⟩ := mem_map.mp hr
        refine decide_eq_true ?_
        split
        · exact h.fresh s hs
        · exact h.fresh s hs
    have hdeleted : Undone exact (deleteRule new.id undone) (deleteRule new.id rules') := by
      refine rel_filter (fun b t hbt => ?_) hu
      show decide (b.id ≠ new.id) = true ↔ decide (t.id ≠ new.id) = true
      rw [id_of_withoutEnd hbt.1]
    rw [hdelete] at hdeleted
    refine (forall₂_map_right_iff.mp hdeleted).imp fun b t ⟨hw, hexact⟩ => ⟨?_, fun ht => ?_⟩
    · rw [hw]
      simp only [ended]
      split
      · rfl
      · rfl
    · have hne : ¬ t.coupangProductId = new.coupangProductId := fun e => hnot (e ▸ ht)
      simp only [ended, if_neg hne] at hexact
      exact hexact (hmono _ ht)

/-! ## 5. Undoing a file -/

/-- The product has a rule that starts on the day. -/
def StartsOn (d : Int) (rules : List CoupangCostRule) (p : String) : Prop :=
  ∃ r ∈ rules, r.coupangProductId = p ∧ r.effectiveFrom = d

theorem StartsOn.update (h : HasUpdated rules old data rules' row) (hinv : HistoryInv [] rules)
    (hs : StartsOn d rules p) : StartsOn d rules' p := by
  obtain ⟨r, hr, hp, hd⟩ := hs
  rw [h.table]
  refine ⟨_, mem_map_of_mem hr, ?_⟩
  by_cases hi : r.id = old.id
  · rw [if_pos hi]
    refine ⟨hp, ?_⟩
    show data.effectiveFrom.getD _ = d
    rw [h.start, Option.getD_some, ← hd, eq_of_rule_id hinv.ids hr h.mem hi]
  · rw [if_neg hi]
    exact ⟨hp, hd⟩

theorem StartsOn.close {q : String} (hs : StartsOn d rules p) :
    StartsOn d (closeProduct q rules) p := by
  obtain ⟨r, hr, hp, hd⟩ := hs
  refine ⟨_, mem_map_of_mem hr, ?_⟩
  split
  · exact ⟨hp, hd⟩
  · exact ⟨hp, hd⟩

theorem StartsOn.append (hs : StartsOn d rules p) (new : CoupangCostRule) :
    StartsOn d (rules ++ [new]) p := by
  obtain ⟨r, hr, h⟩ := hs
  exact ⟨r, mem_append_left _ hr, h⟩

theorem StoredRowOk.of_updated (h : HasUpdated rules old data rules' row) (hinv : HistoryInv [] rules)
    (hinv' : HistoryInv [] rules') : StoredRowOk row where
  product := by
    rw [h.product]
    exact (hinv.clean old h.mem).2
  rule := by
    rw [h.rule]
    exact (hinv.clean old h.mem).1
  after := by
    refine ⟨data.update old, hinv'.datesReadBack ?_, h.after⟩
    rw [h.table]
    exact mem_map.mpr ⟨old, h.mem, if_pos rfl⟩
  before := .inr ⟨h.operation, old, hinv.datesReadBack h.mem, h.before⟩

theorem StoredRowOk.of_created (h : HasCreated rules new rules' row) (hinv' : HistoryInv [] rules') :
    StoredRowOk row := by
  have hmem := h.mem
  obtain ⟨hid, hp⟩ := hinv'.clean _ hmem
  refine ⟨?_, ?_, ⟨_, hinv'.datesReadBack hmem, h.after⟩, .inl ⟨h.operation, h.before⟩⟩
  · rw [h.product]
    exact hp
  · rw [h.rule]
    exact hid

variable {lines : List CostFileLine}

/-- **The rows of a file, undone from the last one on.** By induction on the lines; what is exact
    are the products that had a rule of the day before, and those no row names. -/
theorem undo_applyCostFile (hd : ReadsBack d) :
    ∀ {rules rules' : List CoupangCostRule} {applied : List AppliedRow}, HistoryInv [] rules →
      FreshLines rules lines → applyCostFile d lines rules = .ok (rules', applied) →
      (∀ row ∈ applied, StoredRowOk row) ∧
        ∃ undone, applied.reverse.foldlM rollbackRow rules' = .ok undone ∧
          Undone (fun p => StartsOn d rules p ∨ p ∉ applied.map (·.productId)) undone rules := by
  induction lines with
  | nil =>
    intro rules rules' applied h _ ha
    cases ha
    exact ⟨fun row hr => (nomatch hr), rules, rfl, Undone.refl _ rules⟩
  | cons line lines ih =>
    intro rules rules' applied h hf ha
    obtain ⟨hid, hp⟩ := hf.clean line mem_cons_self
    cases hrow : line.parsedRow with
    | none =>
      rw [applyCostFile_skip hrow] at ha
      exact ih h (hf.tail fun i hi => .inr hi) ha
    | some row =>
      obtain ⟨table, first, rest, h1, h2, rfl⟩ := applyCostFile_cons hrow ha
      have hfresh := hf.fresh line mem_cons_self
      obtain ⟨ht, hids⟩ := h.applyCostFileRow hd hid hp hfresh h1
      obtain ⟨hrest, undone, hundo, hU⟩ := ih ht (hf.tail hids) h2
      have hfold : ∀ undone', rollbackRow undone first = .ok undone' →
          (first :: rest).reverse.foldlM rollbackRow rules' = .ok undone' := by
        intro undone' hstep
        rw [reverse_cons, foldlM_append, hundo]
        show [first].foldlM rollbackRow undone = _
        rw [foldlM_cons, hstep]
        rfl
      rcases applyCostFileRow_cases h hd hid hp hfresh h1 with ⟨old, data, hup, hod⟩ | ⟨new, hcr, hnd⟩
      · have hstarts : StartsOn d table old.coupangProductId :=
          StartsOn.update hup h ⟨old, hup.mem, rfl, hod⟩
        obtain ⟨undone', hstep, hU'⟩ := hup.undo h ht hU (.inl hstarts)
        refine ⟨forall_mem_cons.mpr ⟨.of_updated hup h ht, hrest⟩, undone',
          hfold undone' hstep, hU'.mono fun p hp => ?_⟩
        rcases hp with hp | hp
        · exact .inl (StartsOn.update hup h hp)
        · exact .inr fun hm => hp (mem_cons_of_mem _ hm)
      · have hstarts : StartsOn d table new.coupangProductId := by
          rw [hcr.table]
          exact StartsOn.close ⟨new, mem_append_right _ (mem_singleton_self _), rfl, hnd⟩
        have hmono : ∀ p, StartsOn d rules p ∨ p ∉ (first :: rest).map (·.productId) →
            StartsOn d table p ∨ p ∉ rest.map (·.productId) := by
          rintro p (hp | hp)
          · refine .inl ?_
            rw [hcr.table]
            exact (hp.append new).close
          · exact .inr fun hm => hp (mem_cons_of_mem _ hm)
        have hnot : ¬ (StartsOn d rules new.coupangProductId ∨
            new.coupangProductId ∉ (first :: rest).map (·.productId)) := by
          rintro (⟨r, hr, hrp, hrd⟩ | hm)
          · exact hcr.absent r hr hrp (hrd.trans hnd.symm)
          · refine hm ?_
            rw [← hcr.product]
            exact mem_cons_self
        obtain ⟨undone', hstep, hU'⟩ := hcr.undo ht hU (.inl hstarts) hmono hnot
        exact ⟨forall_mem_cons.mpr ⟨.of_created hcr ht, hrest⟩, undone', hfold undone' hstep, hU'⟩

theorem Undone.starts (h : Undone exact undone rules) (p : String) :
    (ofProduct p undone).map costDated.start = (ofProduct p rules).map costDated.start := by
  have hfilter : (undone.map withoutEnd).filter (fun r => r.coupangProductId = p) =
      (rules.map withoutEnd).filter fun r => r.coupangProductId = p := by
    rw [h.map_eq fun _ _ e => e]
  rw [filter_map, filter_map] at hfilter
  have hmap := congrArg (map costDated.start) hfilter
  rw [map_map, map_map] at hmap
  exact hmap

/-- The normalisation of a product makes its rules exact again. -/
theorem Undone.closeProduct {rest : List String} (hinv : HistoryInv [] rules)
    (h : Undone (fun q => q ∉ p :: rest) undone rules) :
    Undone (fun q => q ∉ rest) (closeProduct p undone) rules := by
  unfold Undone Coupang.closeProduct
  rw [forall₂_map_left_iff]
  refine forall₂_imp_mem h fun b t ht ⟨hw, hexact⟩ => ?_
  by_cases hp : t.coupangProductId = p
  · have hclose : close costDated (ofProduct p undone) b = t := by
      calc close costDated (ofProduct p undone) b
          = close costDated (ofProduct p rules) b := close_congr (fun s => by rw [h.starts]) b
        _ = { withoutEnd b with effectiveTo := closedStop costDated (ofProduct p rules) b } := rfl
        _ = { withoutEnd t with effectiveTo := closedStop costDated (ofProduct p rules) t } := by
            rw [hw, closedStop_of_start (D := costDated) _ (start_of_withoutEnd hw)]
        _ = close costDated (ofProduct p rules) t := rfl
        _ = t := (hinv.contiguous p).close_eq (mem_ofProduct.mpr ⟨ht, hp⟩)
    rw [if_pos ((product_of_withoutEnd hw).trans hp), hclose]
    exact ⟨rfl, fun _ => rfl⟩
  · rw [if_neg fun e => hp ((product_of_withoutEnd hw).symm.trans e)]
    exact ⟨hw, fun hr => hexact fun hm => (mem_cons.mp hm).elim hp hr⟩

/-- **The closing normalisation**: it succeeds and restores the table. -/
theorem normalize_undone (hinv : HistoryInv [] rules) {ps : List String} :
    ∀ {undone : List CoupangCostRule}, Undone (fun p => p ∉ ps) undone rules →
      ps.foldlM (fun table id => normalizeCoupangCostRuleRanges id table) undone = .ok rules := by
  induction ps with
  | nil =>
    intro undone h
    have e : Forall₂ (· = ·) undone rules := h.imp fun _ _ hbt => hbt.2 not_mem_nil
    rw [forall₂_eq_eq_eq] at e
    rw [e]
    rfl
  | cons p ps ih =>
    intro undone h
    have hids : (undone.map (·.id)).Nodup := by
      rw [h.ids]
      exact hinv.ids
    have hdistinct : ((ofProduct p undone).map (·.effectiveFrom)).Nodup := by
      show ((ofProduct p undone).map costDated.start).Nodup
      rw [h.starts]
      exact (hinv.contiguous p).distinct
    rw [foldlM_cons, normalizeCoupangCostRuleRanges_eq hids, if_pos hdistinct]
    exact ih (h.closeProduct hinv)

/-- **The rollback of a file restores the table.** -/
theorem rollback_applyCostFile (hd : ReadsBack d) {applied : List AppliedRow} (hinv : HistoryInv [] rules)
    (hf : FreshLines rules lines) (ha : applyCostFile d lines rules = .ok (rules', applied)) :
    rollbackImportedCoupangCostRules applied rules' = .ok rules := by
  obtain ⟨hrows, undone, hundo, hU⟩ := undo_applyCostFile hd hinv hf ha
  unfold rollbackImportedCoupangCostRules
  simp only [bind_eq_ok]
  refine ⟨undone, hundo, normalize_undone hinv (hU.mono fun p hp => .inr fun hm => hp ?_)⟩
  rw [mem_insertionSort, mem_uniqueNonEmpty]
  · obtain ⟨row, hrow, rfl⟩ := mem_map.mp hm
    exact mem_map.mpr ⟨row, hrow, rfl⟩
  · intro p hp
    obtain ⟨row, hrow, e⟩ := mem_map.mp hp
    cases e
    exact (hrows row hrow).product

/-! ## 6. A rule that has changed -/

/-- A turn of the rollback leaves the other rules alone. -/
theorem findRule_rollbackRow (h : rollbackRow rules row = .ok rules') (hne : row.costRuleId ≠ id) :
    findRule id rules' = findRule id rules := by
  obtain ⟨current, -, -, -, hcases⟩ := rollbackRow_cases h
  rcases hcases with ⟨before, data, -, -, -, hu⟩ | ⟨-, rfl⟩
  · rw [updateRule_eq_ok hu]
    unfold findRule
    rw [find?_map]
    have hfind : rules.find? ((fun r : CoupangCostRule => decide (r.id = id)) ∘
        fun r => if r.id = row.costRuleId then data.update r else r) =
        rules.find? fun r => r.id = id := by
      congr 1
      funext r
      simp only [Function.comp_apply]
      split
      · rfl
      · rfl
    rw [hfind]
    cases e : rules.find? fun r => r.id = id with
    | none => rfl
    | some r =>
      have hr : r.id = id := by simpa using find?_some e
      rw [Option.map_some, if_neg fun hi => hne (hi.symm.trans hr)]
  · unfold findRule deleteRule
    rw [find?_filter]
    congr 1
    funext r
    by_cases hr : r.id = id
    · simp [hr, Ne.symm hne]
    · simp [hr]

variable {rows : List AppliedRow}

/-- **A rollback that goes through found every rule as the last row of the rule has left it.** -/
theorem findRule_of_rollbackRows :
    ∀ {rules rules' : List CoupangCostRule}, rows.foldlM rollbackRow rules = .ok rules' →
      rows.find? (fun r => r.costRuleId = id) = some row →
      ∃ current, findRule id rules = some current ∧ current.coupangProductId = row.productId ∧
        serializeCoupangCostRuleRollbackSnapshot current = row.costRuleAfter := by
  induction rows with
  | nil =>
    intro rules rules' _ hfind
    cases hfind
  | cons first rest ih =>
    intro rules rules' h hfind
    rw [foldlM_cons, bind_eq_ok] at h
    obtain ⟨table, hstep, hrest⟩ := h
    by_cases hi : first.costRuleId = id
    · rw [find?_cons_of_pos (by exact decide_eq_true hi)] at hfind
      cases hfind
      obtain ⟨current, hc, hp, hs, -⟩ := rollbackRow_cases hstep
      rw [hi] at hc
      exact ⟨current, hc, hp, hs⟩
    · rw [find?_cons_of_neg (by simpa using hi)] at hfind
      obtain ⟨current, hc, hp, hs⟩ := ih hrest hfind
      rw [findRule_rollbackRow hstep hi] at hc
      exact ⟨current, hc, hp, hs⟩

/-- The columns of a rule with its product; no operation writes the others. -/
def ruleColumns (r : CoupangCostRule) : CoupangCostRule := { r with createdAt := 0 }

theorem ruleColumns_eq (hi : r.id = s.id) (hp : r.coupangProductId = s.coupangProductId)
    (h : restoring r = restoring s) :
    ruleColumns r = ruleColumns s := by
  cases s
  simp only [restoring, CostData.mk.injEq, Option.some.injEq] at h
  simp only [ruleColumns, hi, hp, h]

/-! ## 7. Uploads -/

variable {store : CostStore}
variable {upload : CostUpload}

theorem find?_upload (h : (store.uploads.map (·.id)).Nodup) (hu : upload ∈ store.uploads) :
    store.uploads.find? (fun u => u.id = upload.id) = some upload := by
  cases e : store.uploads.find? fun u => u.id = upload.id with
  | none => exact absurd (decide_eq_true rfl) (find?_eq_none.mp e upload hu)
  | some u =>
    rw [inj_on_of_nodup_map h (mem_of_find?_eq_some e) hu (by simpa using find?_some e)]

/-- **Import and delete**: the store is the one before. -/
theorem deleteCostUpload_importCostFile {clock : String} {body : Body} {next : CostStore}
    (h : CostInv store) (hf : FreshFile store file) (hn : importCostFile clock body file store = .ok next) :
    deleteCostUpload file.uploadId next = .ok store := by
  have hinv := h.importCostFile hf hn
  obtain ⟨d, costRules, appliedRows, hd, ha, rfl⟩ := importCostFile_eq_ok hn
  obtain ⟨hrows, -⟩ := undo_applyCostFile hd h.costs hf.lines ha
  have hfind := find?_upload hinv.uploadIds
    (mem_append_right store.uploads (mem_singleton_self (storedUpload file d appliedRows)))
  have huploads : (store.uploads ++ [storedUpload file d appliedRows]).filter
      (fun u => u.id ≠ file.uploadId) = store.uploads := by
    rw [filter_append, filter_eq_self.mpr, filter_cons_of_neg, filter_nil, append_nil]
    · simp [storedUpload]
    · exact fun u hu => decide_eq_true (hf.upload u hu)
  have herrors : (store.rowErrors ++ file.errors).filter (fun e => e.uploadBatchId ≠ file.uploadId) =
      store.rowErrors := by
    rw [filter_append, filter_eq_self.mpr, filter_eq_nil_iff.mpr, append_nil]
    · intro e he
      obtain ⟨line, -, hm⟩ := mem_flatMap.mp he
      obtain ⟨issue, -, rfl⟩ := mem_map.mp hm
      exact fun hne => of_decide_eq_true hne rfl
    · intro e he
      obtain ⟨u, hu, eu⟩ := h.errors e he
      rw [← eu]
      exact decide_eq_true (hf.upload u hu)
  unfold deleteCostUpload
  rw [show (storedUpload file d appliedRows).id = file.uploadId from rfl] at hfind
  rw [hfind]
  simp only [bind_eq_ok]
  refine ⟨appliedRows, rollbackAppliedRows_storedUpload hrows, store.costRules,
    rollback_applyCostFile hd h.costs hf.lines ha, ?_⟩
  rw [huploads, herrors]
  rfl

/-- The rules an upload has taken snapshots of. -/
def CostUpload.snapshottedRules (upload : CostUpload) : List String :=
  match rollbackAppliedRows upload.columnSchema upload.validRowCount with
  | .ok rows => rows.map (·.costRuleId)
  | .error _ => []

theorem exists_undone_of_rollback (h : rollbackImportedCoupangCostRules rows rules = .ok rules') :
    ∃ undone, rows.reverse.foldlM rollbackRow rules = .ok undone := by
  unfold rollbackImportedCoupangCostRules at h
  simp only [bind_eq_ok] at h
  obtain ⟨undone, hu, -⟩ := h
  exact ⟨undone, hu⟩

/-- Two tables on which the same rows are rolled back agree on the rules of the rows. -/
theorem ruleColumns_of_rollbacks {table table' : List CoupangCostRule} (hinv : HistoryInv [] rules)
    (hinv' : HistoryInv [] rules') (h : rollbackImportedCoupangCostRules rows rules = .ok table)
    (h' : rollbackImportedCoupangCostRules rows rules' = .ok table') (hid : id ∈ rows.map (·.costRuleId)) :
    (findRule id rules).map ruleColumns = (findRule id rules').map ruleColumns := by
  obtain ⟨undone, hu⟩ := exists_undone_of_rollback h
  obtain ⟨undone', hu'⟩ := exists_undone_of_rollback h'
  cases e : rows.reverse.find? fun r => r.costRuleId = id with
  | none =>
    obtain ⟨row, hrow, hi⟩ := mem_map.mp hid
    exact absurd (decide_eq_true hi) (find?_eq_none.mp e row (mem_reverse.mpr hrow))
  | some row =>
    obtain ⟨r, hr, hrp, hrs⟩ := findRule_of_rollbackRows hu e
    obtain ⟨s, hs, hsp, hss⟩ := findRule_of_rollbackRows hu' e
    obtain ⟨hrm, hri⟩ := (findRule_eq_some hinv.ids).mp hr
    obtain ⟨hsm, hsi⟩ := (findRule_eq_some hinv'.ids).mp hs
    rw [hr, hs, Option.map_some]
    congr 1
    refine ruleColumns_eq (hri.trans hsi.symm) (hrp.trans hsp.symm) ?_
    exact restoring_eq_of_serialize (hinv.datesReadBack hrm) (hinv'.datesReadBack hsm)
      (hrs.trans hss.symm)

/-- **A changed rule stops the deletion.** -/
theorem deleteCostUpload_of_changed {store' : CostStore} (h : CostInv store) (h' : CostInv store')
    (hu : upload ∈ store.uploads) (hu' : ∀ u ∈ store'.uploads, u.id = upload.id → u = upload)
    {before : CostStore} (hdelete : deleteCostUpload upload.id store = .ok before)
    (hid : id ∈ upload.snapshottedRules) (hchanged : (findRule id store'.costRules).map ruleColumns ≠
      (findRule id store.costRules).map ruleColumns) :
    ∃ e, deleteCostUpload upload.id store' = .error e := by
  cases hd : deleteCostUpload upload.id store' with
  | error e => exact ⟨e, rfl⟩
  | ok after =>
    obtain ⟨u, rows, table, hfind, hrows, hroll, -⟩ := deleteCostUpload_eq_ok hdelete
    obtain ⟨u', rows', table', hfind', hrows', hroll', -⟩ := deleteCostUpload_eq_ok hd
    have eu : u = upload := by
      rw [find?_upload h.uploadIds hu] at hfind
      exact (Option.some.inj hfind).symm
    have eu' : u' = upload :=
      hu' u' (mem_of_find?_eq_some hfind') (by simpa using find?_some hfind')
    rw [eu] at hrows
    rw [eu', hrows] at hrows'
    cases hrows'
    unfold CostUpload.snapshottedRules at hid
    rw [hrows] at hid
    exact absurd (ruleColumns_of_rollbacks h'.costs h.costs hroll' hroll hid) hchanged

/-- Uploads on top of each other, with their ids, the last one first. -/
inductive ImportedStack (store : CostStore) : List String → CostStore → Prop
  | base : ImportedStack store [] store
  | push {ids : List String} {top last : CostStore} {clock : String} {body : Body} {file : CostFile} :
      ImportedStack store ids top → FreshFile top file →
      importCostFile clock body file top = .ok last → ImportedStack store (file.uploadId :: ids) last

variable {ids : List String} {last : CostStore}

theorem ImportedStack.inv (h : CostInv store) (hs : ImportedStack store ids last) : CostInv last := by
  induction hs with
  | base => exact h
  | push _ hf hn ih => exact ih.importCostFile hf hn

/-- **A stack of uploads is unwound from its top.** -/
theorem ImportedStack.unwind (h : CostInv store) (hs : ImportedStack store ids last) :
    ids.foldlM (fun s id => deleteCostUpload id s) last = .ok store := by
  induction hs with
  | base => rfl
  | push hs hf hn ih =>
    rw [foldlM_cons, deleteCostUpload_importCostFile (hs.inv h) hf hn]
    exact ih

/-- **The deletion of a margin or price-text upload** undoes its import; a stack of uploads is
    unwound from its top, down to the store below any of them; and once a rule the upload has
    taken a snapshot of is no longer as the import has left it, the deletion fails and changes
    nothing, in whatever store the upload is still the one imported. -/
theorem deleteCostUpload_undoes_import {store : CostStore} (h : CostReachable store) :
    (∀ clock body file next, FreshFile store file →
      importCostFile clock body file store = .ok next →
        deleteCostUpload file.uploadId next = .ok store) ∧
    (∀ lower middle upper top, ImportedStack store lower middle → ImportedStack middle upper top →
      upper.foldlM (fun s id => deleteCostUpload id s) top = .ok middle) ∧
    (∀ clock body file next later upload id, FreshFile store file →
      importCostFile clock body file store = .ok next → CostReachable later →
      upload ∈ next.uploads → upload.id = file.uploadId →
      (∀ u ∈ later.uploads, u.id = upload.id → u = upload) → id ∈ upload.snapshottedRules →
      (findRule id later.costRules).map ruleColumns ≠ (findRule id next.costRules).map ruleColumns →
        (∃ e, deleteCostUpload upload.id later = .error e) ∧
          attempt (deleteCostUpload upload.id) later = later) := by
  refine ⟨fun clock body file next hf hn => ?_, fun lower middle upper top hl hu => ?_, ?_⟩
  · exact deleteCostUpload_importCostFile h.inv hf hn
  · exact hu.unwind (hl.inv h.inv)
  · intro clock body file next later upload id hf hn hlater hu hi hsame hid hchanged
    have hdelete := deleteCostUpload_importCostFile h.inv hf hn
    rw [← hi] at hdelete
    obtain ⟨e, he⟩ := deleteCostUpload_of_changed (h.inv.importCostFile hf hn) hlater.inv hu hsame
      hdelete hid hchanged
    refine ⟨⟨e, he⟩, ?_⟩
    unfold attempt
    rw [he]

def priceLine (rowNumber : Nat) (stampId : String) (price : ℚ) : CostFileLine where
  rowNumber := rowNumber
  standardName := "p"
  productId := "p"
  stamp := { id := stampId, createdAt := 3, today := 0 }
  parsedRow := some (.priceText { itemName := "p", salePriceKrw := price } none)
  issues := []

/-- A price list that names its product twice. -/
def twicePriced : CostFile where
  uploadId := "u1"
  sourceType := .PRICE_TEXT
  lines := [priceLine 1 "r3" 900, priceLine 2 "r4" 950]

def twicePricedStore : CostStore :=
  attempt (importCostFile "2026-07-05" [] twicePriced) twoCostRules

theorem freshFile_twicePriced : FreshFile twoCostRules twicePriced := by
  have hids : twoCostRules.costRules.map (·.id) = ["r1", "r2"] := by decide +kernel
  have huploads : twoCostRules.uploads.map (·.id) = [] := by decide +kernel
  refine ⟨fun u hu => ?_, by decide, by decide, fun line hl r hr e => ?_⟩
  · rw [map_eq_nil_iff.mp huploads] at hu
    cases hu
  · have hm : line.stamp.id ∈ twoCostRules.costRules.map (·.id) := e ▸ mem_map_of_mem hr
    rw [hids] at hm
    have hl' : line.stamp.id ∈ ["r3", "r4"] := mem_map_of_mem (f := fun l => l.stamp.id) hl
    revert hm
    rcases mem_pair.mp hl' with e | e
    · rw [e]
      decide
    · rw [e]
      decide

theorem importCostFile_twicePriced :
    importCostFile "2026-07-05" [] twicePriced twoCostRules = .ok twicePricedStore := by
  have hok : (importCostFile "2026-07-05" [] twicePriced twoCostRules).isOk = true := by
    decide +kernel
  unfold twicePricedStore attempt
  cases e : importCostFile "2026-07-05" [] twicePriced twoCostRules with
  | ok next => rfl
  | error e' =>
    rw [e] at hok
    cases hok

theorem deleteCostUpload_undoes_import_twicePriced :
    (twicePricedStore.costRules.map fun r => (r.id, r.effectiveFrom, r.effectiveTo)) =
        [("r1", 20635, some 20638), ("r2", 20644, none), ("r3", 20639, some 20643)] ∧
      deleteCostUpload "u1" twicePricedStore = .ok twoCostRules :=
  ⟨by decide +kernel, (deleteCostUpload_undoes_import costReachable_twoCostRules).1
    "2026-07-05" [] twicePriced twicePricedStore freshFile_twicePriced importCostFile_twicePriced⟩

/-- The sale price of the file's rule, corrected by hand. -/
def repriced (price : ℚ) (store : CostStore) : CostStore :=
  attempt (onCostRules (correctProductCostRule true "p" "r3" [("salePriceKrw", .num price)])) store

/-- **Changed and set back**: two later corrections write the rule of the upload, and the deletion
    goes through all the same, since it compares the columns alone. -/
theorem deleteCostUpload_of_setBack :
    CostReachable (repriced 950 (repriced 2000 twicePricedStore)) ∧
      twicePricedStore.uploads.map (·.snapshottedRules) = [["r3", "r3"]] ∧
      (findRule "r3" (repriced 2000 twicePricedStore).costRules).map (·.salePriceKrw.value) = some 2000 ∧
      (findRule "r3" twicePricedStore.costRules).map (·.salePriceKrw.value) = some 950 ∧
      (deleteCostUpload "u1" (repriced 950 (repriced 2000 twicePricedStore))).isOk = true := by
  refine ⟨?_, by decide +kernel, by decide +kernel, by decide +kernel, by decide +kernel⟩
  have himported : CostReachable twicePricedStore :=
    costReachable_twoCostRules.step (.importCostFile _ _ _ freshFile_twicePriced)
  exact (himported.step (.correctProductCostRule _ _ _ _)).step (.correctProductCostRule _ _ _ _)

end AdsManagement.Coupang
