/-
  File:      Coupang/SalesRevenue.lean
  Subject:   DOES A SALES IMPORT KEEP THE REVENUE OF ITS FILE? Exactly when the database takes
             every row and the rows whose key repeats in the file, all but one per key, add up
             to what the columns round away from the others.

  The logical key of a sale row leaves out the sale method. A key that repeats inside one file
  is treated like a key an earlier import has stored: with SKIP the later row is stored as not
  current, otherwise it supersedes the earlier one. The import of ads adds such rows up first.

  * `importRow_append` -- rows of other keys are a frame of the loop;
  * `importedRows_foldl` -- what an import of valid rows leaves, in closed form.
-/
import AdsManagement.Lib.LastOfKey
import AdsManagement.Coupang.UploadInverse

namespace AdsManagement.Coupang

open Common Lib List

variable {δ : Type}

/-! ## 1. Rows of other keys are a frame -/

section Frame

variable {old : List (StoredRow δ)} (code : String) (policy : ConflictPolicy) (batchId : Nat)

theorem ofKey_append_left {k : String} (h : ∀ r ∈ old, r.logicalKey ≠ k) (rows : List (StoredRow δ)) :
    ofKey k (old ++ rows) = ofKey k rows := by
  have hn : ofKey k old = [] := filter_eq_nil_iff.mpr fun r hr => by simp [h r hr]
  rw [ofKey_append, hn, nil_append]

variable {row : ImportRow δ}

theorem planRow_append (h : ∀ r ∈ old, r.logicalKey ≠ row.logicalKey) (rows : List (StoredRow δ)) :
    planRow code policy row (old ++ rows) = planRow code policy row rows := by
  unfold planRow existingRows
  rw [ofKey_append_left h]

variable {rows : List (StoredRow δ)}

/-- The ids that are demoted belong to rows of the key. -/
theorem mem_demoted_ids {l : List (StoredRow δ)}
    (hl : l.Sublist (planRow code policy row rows).existingCurrentRows) {i : Nat} (hi : i ∈ l.map (·.id)) :
    ∃ r ∈ rows, r.id = i := by
  obtain ⟨r, hr, rfl⟩ := mem_map.mp hi
  have hm := ((mem_existingCurrentRows code policy).mp (hl.subset hr)).1
  exact ⟨r, (mem_ofKey.mp hm).1, rfl⟩

theorem clearCurrent_append {ids : List Nat} (h : ∀ r ∈ old, r.id ∉ ids) (rows : List (StoredRow δ)) :
    clearCurrent ids (old ++ rows) = old ++ clearCurrent ids rows := by
  have ho : clearCurrent ids old = old := by
    refine (map_congr_left fun r hr => ?_).trans (map_id old)
    rw [if_neg (h r hr)]
    rfl
  unfold clearCurrent at ho ⊢
  rw [map_append, ho]

theorem demoteRows_append (hid : ∀ r ∈ old, ∀ s ∈ rows, r.id ≠ s.id) :
    demoteRows (planRow code policy row rows) (old ++ rows) =
      old ++ demoteRows (planRow code policy row rows) rows := by
  have hout : ∀ l : List (StoredRow δ), l.Sublist (planRow code policy row rows).existingCurrentRows →
      ∀ r ∈ old, r.id ∉ l.map (·.id) := by
    intro l hl r hr hi
    obtain ⟨s, hs, e⟩ := mem_demoted_ids code policy hl hi
    exact hid r hr s hs e.symm
  unfold demoteRows
  split
  · exact clearCurrent_append (hout _ (Sublist.refl _)) rows
  · split
    · exact clearCurrent_append (hout _ (drop_sublist 1 _)) rows
    · rfl

theorem mem_id_demoteRows {plan : RowPlan δ} {r : StoredRow δ} (h : r ∈ demoteRows plan rows) :
    ∃ s ∈ rows, s.id = r.id := by
  have hclear : ∀ ids, r ∈ clearCurrent ids rows → ∃ s ∈ rows, s.id = r.id := by
    intro ids hr
    obtain ⟨s, hs, rfl⟩ := mem_map.mp hr
    exact ⟨s, hs, by split <;> rfl⟩
  unfold demoteRows at h
  split at h
  · exact hclear _ h
  · split at h
    · exact hclear _ h
    · exact ⟨r, h, rfl⟩

/-- One turn of the loop leaves the rows of other keys alone and does not see them. -/
theorem importRow_append {state : ImportState δ} {entry : Stamp × ImportRow δ}
    (hkey : ∀ r ∈ old, r.logicalKey ≠ entry.2.logicalKey)
    (hid : ∀ r ∈ old, ∀ s ∈ state.rows, r.id ≠ s.id) :
    importRow code policy batchId { state with rows := old ++ state.rows } entry =
      { importRow code policy batchId state entry with
          rows := old ++ (importRow code policy batchId state entry).rows } := by
  unfold importRow
  simp only [planRow_append code policy hkey, demoteRows_append code policy hid, append_assoc]

end Frame

/-- The loop of an import leaves the rows of other keys alone and does not see them. -/
theorem foldl_importRow_append (code : String) (policy : ConflictPolicy) (batchId : Nat)
    {old : List (StoredRow δ)} :
    ∀ (entries : List (Stamp × ImportRow δ)) (state : ImportState δ),
      (∀ r ∈ old, r.logicalKey ∉ entries.map (·.2.logicalKey)) →
      (∀ r ∈ old, ∀ s ∈ state.rows, r.id ≠ s.id) →
      (∀ r ∈ old, r.id ∉ entries.map (·.1.id)) →
      entries.foldl (importRow code policy batchId) { state with rows := old ++ state.rows } =
        { entries.foldl (importRow code policy batchId) state with
            rows := old ++ (entries.foldl (importRow code policy batchId) state).rows }
  | [], _, _, _, _ => rfl
  | entry :: entries, state, hkey, hid, hfresh => by
    have hk : ∀ r ∈ old, r.logicalKey ≠ entry.2.logicalKey := by
      intro r hr e
      exact hkey r hr (by rw [e]; exact mem_cons_self)
    have hid' : ∀ r ∈ old, ∀ s ∈ (importRow code policy batchId state entry).rows, r.id ≠ s.id := by
      intro r hr s hs
      rcases mem_append.mp hs with hs | hs
      · obtain ⟨t, ht, e⟩ := mem_id_demoteRows hs
        rw [← e]
        exact hid r hr t ht
      · rw [mem_singleton.mp hs]
        intro e
        exact hfresh r hr (by rw [e]; exact mem_cons_self)
    rw [foldl_cons, importRow_append code policy batchId hk hid]
    exact foldl_importRow_append code policy batchId entries (importRow code policy batchId state entry)
      (fun r hr hm => hkey r hr (mem_cons_of_mem _ hm)) hid'
      (fun r hr hm => hfresh r hr (mem_cons_of_mem _ hm))

/-! ## 2. The current rows an import leaves -/

/-- The rows of the file that end as the current ones: the first of each key with SKIP, the
    last otherwise. -/
def survivors {α : Type} (key : α → String) : ConflictPolicy → List α → List α
  | .SKIP, l => (lastOfKey key l.reverse).reverse
  | .OVERWRITE, l => lastOfKey key l
  | .NEW_VERSION, l => lastOfKey key l

/-- The other rows of the file. -/
def dropped {α : Type} (key : α → String) : ConflictPolicy → List α → List α
  | .SKIP, l => withLater key l.reverse
  | .OVERWRITE, l => withLater key l
  | .NEW_VERSION, l => withLater key l

variable {α : Type}

/-- What one more row of the file does to the survivors. -/
theorem survivors_append_singleton (key : α → String) (policy : ConflictPolicy) (l : List α) (b : α) :
    survivors key policy (l ++ [b]) =
      if policy = .SKIP ∧ key b ∈ l.map key then survivors key policy l
      else (survivors key policy l).filter (fun a => key a ≠ key b) ++ [b] := by
  cases policy with
  | SKIP =>
    simp only [survivors, reverse_append, reverse_singleton, singleton_append,
      lastOfKey, map_reverse, mem_reverse, true_and]
    split
    · rfl
    · rename_i h
      rw [reverse_cons, filter_eq_self.mpr]
      intro a ha
      have hm : a ∈ l := by
        have := (lastOfKey_sublist key l.reverse).subset (mem_reverse.mp ha)
        exact mem_reverse.mp this
      refine decide_eq_true fun e => h ?_
      rw [← e]
      exact mem_map_of_mem hm
  | OVERWRITE | NEW_VERSION => simp [survivors, lastOfKey_append_singleton]

/-- Among accepted rows, a row without issues ends as current unless SKIP finds its key. -/
theorem isCurrent_storedRow {rows : List (StoredRow δ)} (h : TableInv rows)
    (hacc : ∀ r ∈ rows, r.accepted = true) (code : String) (policy : ConflictPolicy) (batchId : Nat)
    (stamp : Stamp) {row : ImportRow δ} (hrow : row.issues = []) :
    (storedRow batchId stamp row (planRow code policy row rows)).isCurrent = true ↔
      ¬ (policy = .SKIP ∧ row.logicalKey ∈ rows.map (·.logicalKey)) := by
  have hstatus : (planRow code policy row rows).validationStatus ≠ .ERROR := by
    show validationStatusFor row.issues _ row.productId ≠ .ERROR
    rw [hrow]
    exact validationStatusFor_nil_ne_error _ _
  show (planRow code policy row rows).storedState.isCurrent = true ↔ _
  match hl : (planRow code policy row rows).existingCurrentRows,
      length_existingCurrentRows h code policy row with
  | [], _ =>
    rw [(storedState_of_nil hl).2]
    refine ⟨fun _ => ?_, fun _ => bne_iff_ne.mpr hstatus⟩
    rintro ⟨-, hk⟩
    obtain ⟨r, hr, e⟩ := mem_map.mp hk
    obtain ⟨c, hc, hcur⟩ := (h.keys row.logicalKey).exists_current r (mem_ofKey.mpr ⟨hr, e⟩) (hacc r hr)
    have := (mem_existingCurrentRows code policy).mpr ⟨hc, hcur⟩
    rw [hl] at this
    cases this
  | [c], _ =>
    have hc : c ∈ ofKey row.logicalKey rows := by
      refine ((mem_existingCurrentRows code policy).mp ?_).1
      rw [hl]
      exact mem_singleton.mpr rfl
    have hk : row.logicalKey ∈ rows.map (·.logicalKey) :=
      mem_map.mpr ⟨c, (mem_ofKey.mp hc).1, (mem_ofKey.mp hc).2⟩
    rw [storedState_planRow, hl, resolveCoupangRowStoredState, if_neg hstatus]
    cases policy <;> simp [resolveCoupangRowImportDecision, hk]

/-- What an import of rows without issues into an empty table leaves. -/
structure ImportedRows (policy : ConflictPolicy) (batchId : Nat)
    (entries : List (Stamp × ImportRow δ)) (rows : List (StoredRow δ)) : Prop where
  inv : TableInv rows
  accepted : ∀ r ∈ rows, r.accepted = true
  batch : ∀ r ∈ rows, r.uploadBatchId = batchId
  keys : rows.map (·.logicalKey) = entries.map (·.2.logicalKey)
  current : (rows.filter (·.isCurrent)).map (fun r => (r.logicalKey, r.data)) =
    (survivors (·.2.logicalKey) policy entries).map (fun e => (e.2.logicalKey, e.2.data))

theorem mem_clearKey {k : String} {rows : List (StoredRow δ)} {r : StoredRow δ}
    (h : r ∈ clearKey k rows) : ∃ s ∈ rows, r = s ∨ r = s.clear := by
  obtain ⟨s, hs, rfl⟩ := mem_map.mp h
  refine ⟨s, hs, ?_⟩
  split
  · exact .inr rfl
  · exact .inl rfl

theorem filter_current_clearKey (k : String) (rows : List (StoredRow δ)) :
    (clearKey k rows).filter (·.isCurrent) =
      (rows.filter (·.isCurrent)).filter (fun r => r.logicalKey ≠ k) := by
  induction rows with
  | nil => rfl
  | cons r rows ih =>
    have e : clearKey k (r :: rows) = (if r.logicalKey = k then r.clear else r) :: clearKey k rows := rfl
    rw [e, filter_cons, ih]
    by_cases hk : r.logicalKey = k
    · rw [if_pos hk, if_neg (by simp [StoredRow.clear]), filter_cons]
      split
      · rw [filter_cons, if_neg (by simp [hk])]
      · rfl
    · rw [if_neg hk, filter_cons]
      split
      · rw [filter_cons, if_pos (by simp [hk])]
      · rfl

variable {policy : ConflictPolicy} {batchId : Nat}

/-- One more row without issues. -/
theorem ImportedRows.turn {entries : List (Stamp × ImportRow δ)} {state : ImportState δ}
    (h : ImportedRows policy batchId entries state.rows) (code : String) {entry : Stamp × ImportRow δ}
    (hrow : entry.2.issues = []) (hinv : TableInv (importRow code policy batchId state entry).rows) :
    ImportedRows policy batchId (entries ++ [entry]) (importRow code policy batchId state entry).rows := by
  have hcur := isCurrent_storedRow h.inv h.accepted code policy batchId entry.1 hrow
  obtain ⟨hdem, hplaced⟩ := importRow_rows h.inv code policy batchId entry.1 entry.2
  have erows : (importRow code policy batchId state entry).rows =
      demoteRows (planRow code policy entry.2 state.rows) state.rows ++
        [storedRow batchId entry.1 entry.2 (planRow code policy entry.2 state.rows)] := rfl
  rw [erows] at hinv ⊢
  generalize hn : storedRow batchId entry.1 entry.2 (planRow code policy entry.2 state.rows) = n
    at hcur hdem hplaced hinv ⊢
  have nkey : n.logicalKey = entry.2.logicalKey := by rw [← hn]; rfl
  have nbatch : n.uploadBatchId = batchId := by rw [← hn]; rfl
  have ndata : n.data = entry.2.data := by rw [← hn]; rfl
  have nacc : n.accepted = true := by
    have : (planRow code policy entry.2 state.rows).validationStatus ≠ .ERROR := by
      show validationStatusFor entry.2.issues _ entry.2.productId ≠ .ERROR
      rw [hrow]
      exact validationStatusFor_nil_ne_error _ _
    rw [← hn]
    exact accepted_iff.mpr this
  rw [hdem] at hinv ⊢
  have hold : ∀ r ∈ (if n.isCurrent then clearKey n.logicalKey state.rows else state.rows),
      ∃ s ∈ state.rows, r = s ∨ r = s.clear := by
    intro r hr
    split at hr
    · exact mem_clearKey hr
    · exact ⟨r, hr, .inl rfl⟩
  refine ⟨hinv, ?_, ?_, ?_, ?_⟩
  · intro r hr
    rcases mem_append.mp hr with hr | hr
    · obtain ⟨s, hs, rfl | rfl⟩ := hold r hr
      · exact h.accepted _ hs
      · exact h.accepted s hs
    · rw [mem_singleton.mp hr]
      exact nacc
  · intro r hr
    rcases mem_append.mp hr with hr | hr
    · obtain ⟨s, hs, rfl | rfl⟩ := hold r hr
      · exact h.batch _ hs
      · exact h.batch s hs
    · rw [mem_singleton.mp hr]
      exact nbatch
  · have e : (if n.isCurrent then clearKey n.logicalKey state.rows else state.rows).map
        (·.logicalKey) = state.rows.map (·.logicalKey) := by
      split
      · unfold clearKey
        rw [map_map]
        refine map_congr_left fun r _ => ?_
        simp only [Function.comp_apply]
        split <;> rfl
      · rfl
    rw [map_append, e, h.keys, map_append, map_singleton, map_singleton, nkey]
  · rw [survivors_append_singleton, filter_append]
    rw [h.keys] at hcur
    by_cases hs : policy = .SKIP ∧ entry.2.logicalKey ∈ entries.map (·.2.logicalKey)
    · have hnc : n.isCurrent = false := Bool.eq_false_iff.mpr fun hc => hcur.mp hc hs
      rw [if_pos hs, hnc, filter_singleton, hnc]
      simpa using h.current
    · have hnc : n.isCurrent = true := hcur.mpr hs
      have ef : ∀ l : List (StoredRow δ), (l.filter (fun r => r.logicalKey ≠ n.logicalKey)).map
          (fun r => (r.logicalKey, r.data)) =
          (l.map fun r => (r.logicalKey, r.data)).filter (fun p => p.1 ≠ n.logicalKey) := by
        intro l
        rw [filter_map]
        rfl
      rw [if_neg hs, hnc, if_pos rfl, filter_singleton, hnc, filter_current_clearKey,
        map_append, ef, h.current, filter_map]
      simp [Function.comp_def, nkey, ndata]

/-- **The rows an import leaves**, from an empty table: in closed form. -/
theorem importedRows_foldl (code : String) (policy : ConflictPolicy) (batchId : Nat)
    (entries : List (Stamp × ImportRow δ)) (hnd : (entries.map (·.1.id)).Nodup)
    (hclean : ∀ entry ∈ entries, IsClean entry.2.logicalKey)
    (hrow : ∀ entry ∈ entries, entry.2.issues = []) :
    ImportedRows policy batchId entries (importRows code policy batchId entries []).rows := by
  induction entries using reverseRecOn with
  | nil =>
    refine ⟨TableInv.nil, ?_, ?_, rfl, ?_⟩
    · intro r hr; cases hr
    · intro r hr; cases hr
    · cases policy <;> rfl
  | append_singleton entries entry ih =>
    have hinv : TableInv (importRows code policy batchId (entries ++ [entry]) []).rows := by
      refine TableInv.importRows TableInv.nil code policy batchId ⟨?_, ?_⟩ hclean
      · rw [map_map]
        exact hnd
      · intro s _ r hr; cases hr
    have h := ih
      (hnd.sublist ((sublist_append_left entries [entry]).map _))
      (fun e he => hclean e (mem_append_left _ he))
      (fun e he => hrow e (mem_append_left _ he))
    unfold importRows at h hinv ⊢
    rw [foldl_append, foldl_cons] at hinv ⊢
    exact h.turn code (hrow entry (mem_append_right _ (mem_singleton.mpr rfl))) hinv

theorem sum_survivors_add_sum_dropped (key : α → String) (policy : ConflictPolicy) (f : α → ℚ) (l : List α) :
    ((survivors key policy l).map f).sum + ((dropped key policy l).map f).sum = (l.map f).sum := by
  cases policy with
  | SKIP =>
    simp only [survivors, dropped, map_reverse, sum_reverse]
    rw [sum_lastOfKey_add_sum_withLater, map_reverse, sum_reverse]
  | OVERWRITE | NEW_VERSION => exact sum_lastOfKey_add_sum_withLater key f l

theorem length_survivors_eq_iff (key : α → String) (policy : ConflictPolicy) (l : List α) :
    (survivors key policy l).length = l.length ↔ (l.map key).Nodup := by
  cases policy with
  | SKIP =>
    have h := length_lastOfKey_eq_iff key l.reverse
    rw [length_reverse, map_reverse, nodup_reverse] at h
    simp only [survivors, length_reverse]
    exact h
  | OVERWRITE | NEW_VERSION => exact length_lastOfKey_eq_iff key l

theorem survivors_map {β : Type} (key : α → String) (policy : ConflictPolicy) (g : β → α) (l : List β) :
    survivors key policy (l.map g) = (survivors (fun b => key (g b)) policy l).map g := by
  cases policy with
  | SKIP => rw [survivors, survivors, ← map_reverse, lastOfKey_map, map_reverse]
  | OVERWRITE | NEW_VERSION => exact lastOfKey_map key g l

theorem mem_of_mem_survivors {key : α → String} {l : List α} {a : α} (h : a ∈ survivors key policy l) :
    a ∈ l := by
  cases policy with
  | SKIP => exact mem_reverse.mp ((lastOfKey_sublist key l.reverse).subset (mem_reverse.mp h))
  | OVERWRITE | NEW_VERSION => exact (lastOfKey_sublist key l).subset h

/-! ## 3. Sale amounts -/

inductive SaleAmount where
  | salesKrw
  | netSalesKrw
  | salesQuantity
deriving DecidableEq

def SaleAmount.ofRow : SaleAmount → ParsedCoupangSaleRow → ℚ
  | salesKrw, row => row.salesKrw
  | netSalesKrw, row => row.netSalesKrw
  | salesQuantity, row => row.salesQuantity

def SaleAmount.ofLine : SaleAmount → SaleLineData → ℚ
  | salesKrw, line => line.salesKrw
  | netSalesKrw, line => line.netSalesKrw
  | salesQuantity, line => line.salesQuantity

/-- The scale of the column of an amount. -/
def SaleAmount.scale : SaleAmount → Nat
  | salesKrw => 2
  | netSalesKrw => 2
  | salesQuantity => 4

/-- The amount of a row of the file. -/
def SaleAmount.ofFileRow (amount : SaleAmount) (row : ParsedCoupangSalesRowResult) : ℚ :=
  (row.parsedRow.map amount.ofRow).getD 0

/-- What its column holds of it. -/
def SaleAmount.stored (amount : SaleAmount) (row : ParsedCoupangSalesRowResult) : ℚ :=
  columnValue amount.scale (amount.ofFileRow row)

/-- A row whose insert the database does not refuse: the numbers are within their columns, and
    no text holds the character U+0000. -/
def fitsSaleColumns (row : ParsedCoupangSaleRow) : Bool :=
  [row.salesKrw, row.totalSalesKrw, row.cancelAmountKrw, row.netSalesKrw].all (fitsColumn 14 2) &&
  [row.salesQuantity, row.totalSalesQuantity, row.cancelQuantity, row.instantCancelQuantity].all
    (fitsColumn 14 4) &&
  decide (-2 ^ 31 ≤ row.orderCount ∧ row.orderCount < 2 ^ 31) &&
  [some row.optionName, some row.productName, row.optionId, row.registeredProductId, row.category,
    row.saleMethod].reduceOption.all fun text => '\x00' ∉ text.toList

/-- The transaction of `importSalesXlsx`: an insert the database refuses rolls it back. -/
def importSalesTransaction (hash : RecordHash) (matchText : MatchText) (conflictPolicy : ConflictPolicy)
    (batchId : Nat) (file : List (Stamp × ParsedCoupangSalesRowResult)) (store : CoupangStore) :
    Option CoupangStore :=
  if file.all fun entry => entry.2.parsedRow.all fitsSaleColumns then
    some (importSalesXlsx hash matchText conflictPolicy batchId file store)
  else none

/-- A row that parses without an issue. -/
def ParsedCoupangSalesRowResult.validates (row : ParsedCoupangSalesRowResult) : Bool :=
  row.issues.isEmpty && row.parsedRow.isSome

/-- The current rows of a batch: what the reports add up. -/
def currentOfBatch (batchId : Nat) (rows : List (StoredRow δ)) : List (StoredRow δ) :=
  rows.filter fun r => r.uploadBatchId = batchId && r.isCurrent

/-- The logical key the import gives a row of the file. -/
def saleRowKey (hash : RecordHash) (matchText : MatchText) (row : ParsedCoupangSalesRowResult) : String :=
  (saleImportRow hash matchText row).logicalKey

section Revenue

variable {hash : RecordHash} {matchText : MatchText} {row : ParsedCoupangSalesRowResult}

theorem saleImportRow_issues (h : row.validates = true) :
    (saleImportRow hash matchText row).issues = [] := by
  unfold ParsedCoupangSalesRowResult.validates at h
  rw [Bool.and_eq_true, List.isEmpty_iff] at h
  unfold saleImportRow
  cases row.parsedRow <;> simp [h.1]

/-- A row that validates is stored with the amounts of the file, rounded by their columns. -/
theorem ofLine_saleImportRow (h : row.validates = true) (amount : SaleAmount) :
    amount.ofLine (saleImportRow hash matchText row).data = amount.stored row := by
  unfold ParsedCoupangSalesRowResult.validates at h
  rw [Bool.and_eq_true] at h
  unfold saleImportRow SaleAmount.stored SaleAmount.ofFileRow
  cases hp : row.parsedRow with
  | none => rw [hp] at h; exact absurd h.2 (by simp)
  | some parsed => cases amount <;> rfl

end Revenue

/-! ## 4. The revenue of a file -/

section

variable {hash : RecordHash} {matchText : MatchText} (policy : ConflictPolicy)
  {file : List (Stamp × ParsedCoupangSalesRowResult)} {s : CoupangStore}
  (hvalid : ∀ entry ∈ file, entry.2.validates = true)
  (hkeys : ∀ r ∈ s.saleLines, r.logicalKey ∉ saleFileKeys hash matchText file)
  (hf : FreshStamps (file.map (·.1)) s.saleLines) (hnew : NewBatch batchId s)
include hvalid hkeys hf hnew

/-- The current rows of the batch do not depend on what the store held under other keys. -/
theorem currentOfBatch_importSales :
    (currentOfBatch batchId (importSalesXlsx hash matchText policy batchId file s).saleLines).map
        (fun r => r.data) =
      (survivors (·.2.logicalKey) policy (saleEntries hash matchText file)).map (fun e => e.2.data) := by
  have hids : (saleEntries hash matchText file).map (fun e => e.1.id) = (file.map (·.1)).map (·.id) := by
    unfold saleEntries
    rw [map_map, map_map]
    rfl
  have hrows := foldl_importRow_append "COUPANG_SALE_LINE_ALREADY_CURRENT" policy batchId
    (saleEntries hash matchText file)
    { rows := [], validRowCount := 0, warningCount := 0, errorCount := 0 } hkeys
    (fun r _ t ht => by cases ht)
    (fun r hr hm => by
      rw [hids] at hm
      obtain ⟨stamp, hs, e⟩ := mem_map.mp hm
      exact hf.fresh stamp hs r hr e.symm)
  have himp := importedRows_foldl "COUPANG_SALE_LINE_ALREADY_CURRENT" policy batchId
    (saleEntries hash matchText file) (by rw [hids]; exact hf.nodup)
    (isClean_saleEntries hash matchText file)
    (fun entry he => by
      obtain ⟨x, hx, rfl⟩ := mem_map.mp he
      exact saleImportRow_issues (hvalid x hx))
  have hold : currentOfBatch batchId s.saleLines = [] :=
    filter_eq_nil_iff.mpr fun r hr => by simp [hnew.saleLines r hr]
  have hlines : (importSalesXlsx hash matchText policy batchId file s).saleLines =
      s.saleLines ++ (importRows "COUPANG_SALE_LINE_ALREADY_CURRENT" policy batchId
        (saleEntries hash matchText file) []).rows := by
    have := congrArg ImportState.rows hrows
    rw [append_nil] at this
    exact this
  have hcur : currentOfBatch batchId (importRows "COUPANG_SALE_LINE_ALREADY_CURRENT" policy batchId
      (saleEntries hash matchText file) []).rows =
      (importRows "COUPANG_SALE_LINE_ALREADY_CURRENT" policy batchId
        (saleEntries hash matchText file) []).rows.filter (·.isCurrent) := by
    refine filter_congr fun r hr => ?_
    simp [himp.batch r hr]
  have hdata := congrArg (map Prod.snd) himp.current
  rw [map_map, map_map] at hdata
  rw [hlines, currentOfBatch, filter_append, ← currentOfBatch, hold, ← currentOfBatch, hcur]
  exact hdata

/-- What the columns round to over the rows of the file that end as the current ones. -/
theorem sum_currentOfBatch_importSales (amount : SaleAmount) :
    ((currentOfBatch batchId (importSalesXlsx hash matchText policy batchId file s).saleLines).map
        fun r => amount.ofLine r.data).sum =
      ((survivors (fun e => saleRowKey hash matchText e.2) policy file).map
        fun e => amount.stored e.2).sum := by
  have hdata := congrArg (fun l => (l.map amount.ofLine).sum)
    (currentOfBatch_importSales policy hvalid hkeys hf hnew)
  simp only [map_map, Function.comp_def] at hdata
  rw [hdata]
  unfold saleEntries
  rw [survivors_map, map_map]
  refine congrArg sum (map_congr_left fun e he => ?_)
  exact ofLine_saleImportRow (hvalid e (mem_of_mem_survivors he)) amount

end

/-- **When a sales import keeps the revenue of its file.** For every file whose rows validate and
    every store that holds none of its keys: the import goes through and an amount of the current
    rows of the batch adds up to that of the file exactly when the database takes every row, and
    the rows that share their key with an earlier row of the file (SKIP) or a later one
    (OVERWRITE, NEW_VERSION) add up to what the column adds to the other rows by rounding; and it
    goes through with as many current rows as the file has exactly when the database takes every
    row and no key repeats. -/
theorem importSales_conserves_iff (hash : RecordHash) (matchText : MatchText)
    (policy : ConflictPolicy) (batchId : Nat) (file : List (Stamp × ParsedCoupangSalesRowResult))
    (s : CoupangStore) (hvalid : ∀ entry ∈ file, entry.2.validates = true)
    (hkeys : ∀ r ∈ s.saleLines, r.logicalKey ∉ saleFileKeys hash matchText file)
    (hf : FreshStamps (file.map (·.1)) s.saleLines) (hnew : NewBatch batchId s) :
    (∀ amount : SaleAmount,
      (∃ next, importSalesTransaction hash matchText policy batchId file s = some next ∧
        ((currentOfBatch batchId next.saleLines).map fun r => amount.ofLine r.data).sum =
          (file.map fun e => amount.ofFileRow e.2).sum) ↔
        (∀ e ∈ file, e.2.parsedRow.all fitsSaleColumns = true) ∧
          ((dropped (fun e => saleRowKey hash matchText e.2) policy file).map
            fun e => amount.ofFileRow e.2).sum =
          ((survivors (fun e => saleRowKey hash matchText e.2) policy file).map
            fun e => amount.stored e.2 - amount.ofFileRow e.2).sum) ∧
    ((∃ next, importSalesTransaction hash matchText policy batchId file s = some next ∧
        (currentOfBatch batchId next.saleLines).length = file.length) ↔
      (∀ e ∈ file, e.2.parsedRow.all fitsSaleColumns = true) ∧
        (saleFileKeys hash matchText file).Nodup) := by
  have hgoes : ∀ P : CoupangStore → Prop,
      (∃ next, importSalesTransaction hash matchText policy batchId file s = some next ∧ P next) ↔
        (∀ e ∈ file, e.2.parsedRow.all fitsSaleColumns = true) ∧
          P (importSalesXlsx hash matchText policy batchId file s) := by
    intro P
    unfold importSalesTransaction
    rw [← all_eq_true]
    split
    · rename_i h
      simp [h]
    · rename_i h
      simp [h]
  constructor
  · intro amount
    rw [hgoes]
    refine and_congr_right fun _ => ?_
    have hsum := sum_survivors_add_sum_dropped (fun e => saleRowKey hash matchText e.2) policy
      (fun e => amount.ofFileRow e.2) file
    have hround : ∀ l : List (Stamp × ParsedCoupangSalesRowResult),
        (l.map fun e => amount.stored e.2).sum =
          (l.map fun e => amount.stored e.2 - amount.ofFileRow e.2).sum +
            (l.map fun e => amount.ofFileRow e.2).sum := by
      intro l
      rw [← sum_map_add]
      exact congrArg sum (map_congr_left fun e _ => (sub_add_cancel _ _).symm)
    rw [sum_currentOfBatch_importSales policy hvalid hkeys hf hnew, hround, ← hsum]
    constructor
    · intro h
      linarith
    · intro h
      linarith
  · rw [hgoes]
    refine and_congr_right fun _ => ?_
    have hlen := congrArg length (currentOfBatch_importSales policy hvalid hkeys hf hnew)
    rw [length_map, length_map] at hlen
    have hfile : (saleEntries hash matchText file).length = file.length := length_map _
    rw [hlen, ← hfile]
    exact length_survivors_eq_iff _ policy _

/-! ## 5. Two sale methods -/

/-- The sample row under a sale method, with an amount. -/
def sampleSaleRowBy (rowNumber : Nat) (saleMethod : String) (amount : ℚ) : ParsedCoupangSalesRowResult :=
  { sampleSaleRow with
    rowNumber
    parsedRow := sampleSaleRow.parsedRow.map fun row =>
      { row with saleMethod := some saleMethod, salesKrw := amount, netSalesKrw := amount } }

/-- One option on one day, sold by the seller and by rocket growth. -/
def twoMethodFile (seller growth : ℚ) : List (Stamp × ParsedCoupangSalesRowResult) :=
  [(⟨1, 1⟩, sampleSaleRowBy 2 "판매자배송" seller), (⟨2, 2⟩, sampleSaleRowBy 3 "로켓그로스" growth)]

/-- Half a won cent more by rocket growth: the column gives it to the seller's row. -/
theorem importSales_conserves_twoMethodFile :
    ∃ next, importSalesTransaction zeroHash noMatch .SKIP 1 (twoMethodFile 1000.005 0.005)
        ⟨[], []⟩ = some next ∧
      ((currentOfBatch 1 next.saleLines).map fun r => SaleAmount.salesKrw.ofLine r.data).sum =
        ((twoMethodFile 1000.005 0.005).map fun e => SaleAmount.salesKrw.ofFileRow e.2).sum :=
  ((importSales_conserves_iff zeroHash noMatch .SKIP 1 (twoMethodFile 1000.005 0.005) ⟨[], []⟩
    (by decide +kernel) (fun _ hr => (not_mem_nil hr).elim)
    ⟨by decide, fun _ _ _ hr => (not_mem_nil hr).elim⟩
    ⟨fun _ hr => (not_mem_nil hr).elim, fun _ hr => (not_mem_nil hr).elim⟩).1 .salesKrw).mpr
    (by decide +kernel)

/-- **The revenue of the second sale method is lost**: of the 3000 won of the file 1000 stay
    with SKIP. -/
theorem importSales_loses_second_method :
    ¬ ∀ (hash : RecordHash) (matchText : MatchText) (policy : ConflictPolicy) (batchId : Nat)
      (file : List (Stamp × ParsedCoupangSalesRowResult)) (s next : CoupangStore),
      (∀ entry ∈ file, entry.2.validates = true) →
      (∀ r ∈ s.saleLines, r.logicalKey ∉ saleFileKeys hash matchText file) →
      FreshStamps (file.map (·.1)) s.saleLines → NewBatch batchId s →
      importSalesTransaction hash matchText policy batchId file s = some next →
      ((currentOfBatch batchId next.saleLines).map fun r => r.data.salesKrw).sum =
        (file.map fun e => SaleAmount.salesKrw.ofFileRow e.2).sum := by
  intro hall
  have h := hall zeroHash noMatch .SKIP 1 (twoMethodFile 1000 2000) ⟨[], []⟩
    (importSalesXlsx zeroHash noMatch .SKIP 1 (twoMethodFile 1000 2000) ⟨[], []⟩) (by decide +kernel)
    (fun _ hr => (not_mem_nil hr).elim)
    ⟨by decide, fun _ _ _ hr => (not_mem_nil hr).elim⟩
    ⟨fun _ hr => (not_mem_nil hr).elim, fun _ hr => (not_mem_nil hr).elim⟩ (by decide +kernel)
  revert h
  decide +kernel

end AdsManagement.Coupang
