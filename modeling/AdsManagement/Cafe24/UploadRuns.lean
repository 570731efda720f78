/-
  File:      Cafe24/UploadRuns.lean
  Subject:   THE RUNS OF THE CAFE24 UPLOADS: imports and deletions keep the invariant of the store.

  * `StoreInv.importCafe24Csv` -- every way an import can end;
  * `deleteUpload_lines` -- what a deletion does to the lines, in closed form;
  * `Reachable.inv` -- the invariant holds after every run.
-/
import AdsManagement.Cafe24.UploadInvariant

namespace AdsManagement.Cafe24

open Common Lib Coupang List Function

variable {text : TextLocale} {rules : List Cafe24RuleInput} {store : Cafe24Store}
  {rulesAt : Nat → List Cafe24RuleInput} {env : ImportEnv} {file : Cafe24File}

/-! ## 1. Imports -/

/-- What the database promises an import: a new batch id, new row ids, one for each row. -/
structure ImportEnv.Fresh (env : ImportEnv) (file : Cafe24File) (store : Cafe24Store) : Prop where
  batchId : ∀ batch ∈ store.batches, batch.id ≠ env.batchId
  stamps : FreshStamps env.stamps store.lines
  length : env.stamps.length = file.rows.length

/-- The import gets to its rows, and their transaction is not undone. -/
def reachesRows (env : ImportEnv) (file : Cafe24File) : Bool :=
  (missingColumns file.headers).isEmpty && env.rowFailure.isNone

theorem map_fst_importEntries (hlen : env.stamps.length = file.rows.length)
    (rules : List Cafe24RuleInput) : (importEntries env rules file).map (·.1) = env.stamps := by
  unfold importEntries preparedRows
  refine map_fst_zip ?_
  rw [length_map, length_zipIdx, hlen]

theorem isPrepared_importEntries (env : ImportEnv) (rules : List Cafe24RuleInput) (file : Cafe24File) :
    ∀ entry ∈ importEntries env rules file, IsPrepared env.text rules entry.2 := by
  rintro ⟨stamp, row⟩ he
  obtain ⟨x, -, rfl⟩ := mem_map.mp (of_mem_zip he).2
  exact isPrepared_prepareRow _ _ _ _ _ _

/-- The store once the batch is created and the exchange rates are prepared. -/
def ratedStore (env : ImportEnv) (conflictPolicy : ConflictPolicy) (file : Cafe24File)
    (store : Cafe24Store) : Cafe24Store :=
  { store with
    batches := store.batches ++ [newBatch env conflictPolicy file store]
    rowErrors := store.rowErrors ++ (env.rateFailure.map fun message =>
      batchError env.batchId none none .WARNING "EXCHANGE_RATE_SYNC_FAILED" message).toList }

/-- The ways of an import, from the creation of the batch on. -/
theorem importAsNewBatch_eq (env : ImportEnv) (rules : List Cafe24RuleInput)
    (policy : ConflictPolicy) (file : Cafe24File) (store : Cafe24Store) :
    importAsNewBatch env rules policy file store =
      if missingColumns file.headers ≠ [] then
        rejectHeaders env.batchId (missingColumns file.headers)
          { store with batches := store.batches ++ [newBatch env policy file store] }
      else
        match env.rowFailure with
        | some (rowNumber, message) =>
          markCafe24ImportFailed env.batchId rowNumber message (ratedStore env policy file store)
        | none => (importTransaction policy env.batchId env.now
            (if env.rateFailure.isSome then 1 else 0) (importEntries env rules file)
            (ratedStore env policy file store)).1 := by
  unfold importAsNewBatch
  cases h : env.rateFailure with
  | none =>
    have hrated : ratedStore env policy file store =
        { store with batches := store.batches ++ [newBatch env policy file store] } := by
      simp [ratedStore, h]
    exact hrated ▸ rfl
  | some message =>
    unfold ratedStore
    rw [h]
    rfl

theorem updateBatch_self (batchId : Nat) (batches : List Cafe24UploadBatch) :
    updateBatch batchId id batches = batches := by
  refine (map_congr_left fun batch _ => ?_).trans (map_id batches)
  split <;> rfl

theorem StoreInv.ratedStore (h : StoreInv text rulesAt store) (policy : ConflictPolicy)
    (file : Cafe24File) (hnew : ∀ batch ∈ store.batches, batch.id ≠ env.batchId) :
    NoLines env.batchId store.lines ∧ StoreInv text rulesAt (ratedStore env policy file store) := by
  obtain ⟨hno, hcreated⟩ := h.create (newBatch env policy file store) hnew
  refine ⟨hno, ?_⟩
  have hupdate := hcreated.update_unlined id ((env.rateFailure.map fun message =>
      batchError env.batchId none none .WARNING "EXCHANGE_RATE_SYNC_FAILED" message).toList) hno
    (fun _ e => e) ⟨_, mem_append_right _ (mem_singleton.mpr rfl), rfl⟩ (by
      intro error he
      obtain ⟨message, -, rfl⟩ := Option.map_eq_some_iff.mp (Option.mem_toList.mp he)
      exact ⟨rfl, rfl⟩)
  rwa [updateBatch_self] at hupdate

/-- **From the creation of the batch on** every way keeps the invariant. -/
theorem StoreInv.importAsNewBatch (h : StoreInv text rulesAt store) (htext : env.text = text)
    (hfresh : env.Fresh file store) (rules : List Cafe24RuleInput) (policy : ConflictPolicy) :
    StoreInv text (update rulesAt env.batchId rules)
      (importAsNewBatch env rules policy file store) := by
  obtain ⟨hno, hrated⟩ := h.ratedStore policy file hfresh.batchId
  have hmem : newBatch env policy file store ∈ (Cafe24.ratedStore env policy file store).batches :=
    mem_append_right _ (mem_singleton.mpr rfl)
  have hrules : ∀ {s : Cafe24Store}, s.lines = store.lines → StoreInv text rulesAt s →
      StoreInv text (update rulesAt env.batchId rules) s := by
    intro s hs hinv
    refine hinv.congr_rules fun batch _ hne => update_of_ne ?_ _ _
    rintro e
    rw [e, hs] at hne
    exact hne (linesOf_eq_nil_iff.mpr hno)
  rw [importAsNewBatch_eq]
  split
  · -- columns are missing
    refine hrules rfl ?_
    have hcreated := (h.create (newBatch env policy file store) hfresh.batchId).2
    refine hcreated.update_unlined _ _ hno (fun _ e => e)
      ⟨_, mem_append_right _ (mem_singleton.mpr rfl), rfl⟩ ?_
    intro error he
    obtain ⟨column, -, rfl⟩ := mem_map.mp he
    exact ⟨rfl, rfl⟩
  · cases hf : env.rowFailure with
    | some failure =>
      -- the transaction is undone
      refine hrules rfl ?_
      refine hrated.update_unlined _ _ hno (fun _ e => e) ⟨_, hmem, rfl⟩ ?_
      intro error he
      rw [mem_singleton.mp he]
      exact ⟨rfl, rfl⟩
    | none =>
      have herrors : errorsOf env.batchId (Cafe24.ratedStore env policy file store).rowErrors =
          (env.rateFailure.map fun message =>
            batchError env.batchId none none .WARNING "EXCHANGE_RATE_SYNC_FAILED" message).toList := by
        have hnone : errorsOf env.batchId store.rowErrors = [] := by
          refine filter_eq_nil_iff.mpr fun error he => ?_
          obtain ⟨batch, hb, e⟩ := h.errorOwner error he
          rw [decide_eq_true_eq, ← e]
          exact hfresh.batchId batch hb
        show errorsOf env.batchId (store.rowErrors ++ _) = _
        unfold errorsOf at hnone ⊢
        rw [filter_append, hnone]
        refine filter_eq_self.mpr fun error he => ?_
        obtain ⟨message, -, rfl⟩ := Option.map_eq_some_iff.mp (Option.mem_toList.mp he)
        exact decide_eq_true rfl
      have hlen : (importEntries env rules file).length = file.rows.length := by
        have := congrArg length (map_fst_importEntries hfresh.length rules)
        rw [length_map] at this
        rw [this, hfresh.length]
      refine hrated.importTransaction hmem hno hlen.symm ?_ ?_ ?_ ?_ policy env.now
      · rw [← htext]
        exact isPrepared_importEntries env rules file
      · rw [map_fst_importEntries hfresh.length]
        exact hfresh.stamps
      · intro error he
        have he' : error ∈ errorsOf env.batchId (Cafe24.ratedStore env policy file store).rowErrors := he
        rw [herrors] at he'
        obtain ⟨message, -, rfl⟩ := Option.map_eq_some_iff.mp (Option.mem_toList.mp he')
        exact ⟨rfl, rfl⟩
      · show _ = (errorsOf env.batchId (Cafe24.ratedStore env policy file store).rowErrors).length
        rw [herrors]
        cases env.rateFailure <;> rfl

/-- With SKIP an earlier upload of the same file is answered instead of a new batch. -/
def reusesBatch (policy : ConflictPolicy) (file : Cafe24File) (store : Cafe24Store) : Bool :=
  policy = .SKIP && (findReusableCafe24Duplicate file.hash store).isSome

theorem length_linesOf (batchId : Nat) (lines : List Cafe24OrderLine) :
    (linesOf batchId lines).length = storedRowCount lines batchId := by
  unfold linesOf storedRowCount
  rw [countP_eq_length_filter]

variable {batch : Cafe24UploadBatch} {fileHash : String}

section

variable (h : StoreInv text rulesAt store)
include h

/-- A batch that is answered again and was never imported has no lines. -/
theorem StoreInv.noLines_of_reusable
    (hf : findReusableCafe24Duplicate fileHash store = some batch) (hn : batch.importedAt.isNone = true) :
    NoLines batch.id store.lines := by
  have hm := mem_of_find?_eq_some hf
  rw [mem_insertionSort, mem_filter] at hm
  rw [← linesOf_eq_nil_iff]
  by_contra hne
  have hinv := h.batches batch hm.1 hne
  have hvalid : ¬ 0 < batch.validRowCount := by
    have := hinv.importedAt
    rw [Option.isNone_iff_eq_none.mp hn] at this
    simpa using this.symm
  have hstatus := hinv.status
  rw [if_neg fun hc => hvalid hc.2] at hstatus
  -- no ERROR line either, as the batch is IMPORTED
  have herr : ¬ batch.errorCount > 0 := by
    intro he
    rw [if_pos he] at hstatus
    rw [hstatus] at hm
    exact absurd hm.2 (by simp)
  have hsum := length_eq_countP_add_countP (fun line : Cafe24OrderLine => line.accepted)
    (l := linesOf batch.id store.lines)
  have h1 := hinv.validRowCount
  have h2 := hinv.errorCount
  have h3 : (linesOf batch.id store.lines).countP (fun line => decide ¬line.accepted = true) =
      (linesOf batch.id store.lines).countP fun line => !line.accepted :=
    countP_congr fun line _ => by simp
  have hpos := length_pos_iff.mpr hne
  omega

/-- A batch whose rows are not all stored has none. -/
theorem StoreInv.noLines_of_incomplete (hd : duplicatedIncomplete fileHash store = some batch) :
    NoLines batch.id store.lines := by
  obtain ⟨hf, hc⟩ := Option.filter_eq_some_iff.mp hd
  rw [← linesOf_eq_nil_iff]
  by_contra hne
  have hinv := h.batches batch (mem_of_find?_eq_some hf) hne
  rw [isCompleteCafe24UploadBatch, hinv.rowCount, length_linesOf] at hc
  simp at hc

/-- The recount of an earlier upload of the file whose rows are not all stored. -/
theorem StoreInv.refreshIncomplete (now : Nat) (file : Cafe24File) {next : Cafe24Store → Cafe24Store} :
    ∃ other : Cafe24Store, StoreInv text rulesAt other ∧ other.lines = store.lines ∧
      other.rowErrors = store.rowErrors ∧ other.batches.map (·.id) = store.batches.map (·.id) ∧
      next (refreshCafe24BatchIssueCounts now
        ((duplicatedIncomplete file.hash store).map (·.id)).toList store) = next other := by
  cases hd : duplicatedIncomplete file.hash store with
  | none => exact ⟨store, h, rfl, rfl, rfl, rfl⟩
  | some batch =>
    obtain ⟨hinv, hl, he, hb⟩ := h.refreshBatch now (h.noLines_of_incomplete hd)
    exact ⟨_, hinv, hl, he, hb, rfl⟩

/-- **How an import ends**: an earlier batch is answered and the lines stay, or a new batch is
    created in a store that differs in batches without lines only. -/
theorem StoreInv.importCafe24Csv_cases (env : ImportEnv)
    (rules : List Cafe24RuleInput) (policy : ConflictPolicy) (file : Cafe24File) :
    ∃ other : Cafe24Store, StoreInv text rulesAt other ∧ other.lines = store.lines ∧
      other.rowErrors = store.rowErrors ∧ other.batches.map (·.id) = store.batches.map (·.id) ∧
      importCafe24Csv env rules policy file store =
        if reusesBatch policy file store then other
        else Cafe24.importAsNewBatch env rules (importConflictPolicy policy file store) file other := by
  unfold importCafe24Csv reusesBatch
  by_cases hs : policy = .SKIP
  · rw [if_pos hs]
    cases hf : findReusableCafe24Duplicate file.hash store with
    | some batch =>
      simp only [hs]
      by_cases hn : batch.importedAt.isNone = true
      · obtain ⟨hinv, hl, he, hb⟩ := h.refreshBatch env.now (h.noLines_of_reusable hf hn)
        rw [if_pos hn]
        exact ⟨_, hinv, hl, he, hb, rfl⟩
      · rw [if_neg hn]
        exact ⟨store, h, rfl, rfl, rfl, rfl⟩
    | none =>
      simp only [Option.isSome_none, Bool.and_false]
      exact h.refreshIncomplete env.now file
  · simp only [hs, if_false]
    exact h.refreshIncomplete env.now file

end

theorem ImportEnv.Fresh.congr {other : Cafe24Store} (h : env.Fresh file store)
    (hl : other.lines = store.lines) (hb : other.batches.map (·.id) = store.batches.map (·.id)) :
    env.Fresh file other where
  batchId := by
    intro batch hm
    obtain ⟨b, hb', e⟩ := mem_of_map_id hb.symm hm
    rw [← e]
    exact h.batchId b hb'
  stamps := hl ▸ h.stamps
  length := h.length

/-- **An import keeps the invariant.** -/
theorem StoreInv.importCafe24Csv (h : StoreInv text rulesAt store) (htext : env.text = text)
    (hfresh : env.Fresh file store) (rules : List Cafe24RuleInput) (policy : ConflictPolicy) :
    StoreInv text (update rulesAt env.batchId rules)
      (importCafe24Csv env rules policy file store) := by
  obtain ⟨other, hinv, hl, -, hb, e⟩ := h.importCafe24Csv_cases env rules policy file
  have hfresh' := hfresh.congr hl hb
  rw [e]
  split
  · refine hinv.congr_rules fun batch hm _ => update_of_ne ?_ _ _
    exact hfresh'.batchId batch hm
  · exact hinv.importAsNewBatch htext hfresh' rules _

/-! ## 2. Deletions -/

/-- The keys whose current line a deletion removes. -/
def currentDeletedKeys (batchId : Nat) (lines : List Cafe24OrderLine) : List String :=
  uniqueNonEmpty (((lines.filter fun line => line.uploadBatchId = batchId).filter (·.isCurrent)).map
    fun line => some line.logicalKey)

variable {lines : List Cafe24OrderLine} {batchId : Nat}

theorem mem_currentDeletedKeys (hclean : ∀ r ∈ lines, IsClean r.logicalKey) {k : String} :
    k ∈ currentDeletedKeys batchId lines ↔ CurrentIn batchId k lines := by
  unfold currentDeletedKeys
  rw [mem_uniqueNonEmpty]
  · simp only [mem_map, mem_filter, decide_eq_true_eq, Option.some.injEq]
    constructor
    · rintro ⟨r, ⟨⟨hr, hb⟩, hc⟩, hk⟩
      exact ⟨r, hr, hb, hk, hc⟩
    · rintro ⟨r, hr, hb, hk, hc⟩
      exact ⟨r, ⟨⟨hr, hb⟩, hc⟩, hk⟩
  · intro s hs
    obtain ⟨r, hr, e⟩ := mem_map.mp hs
    cases e
    exact hclean r (mem_filter.mp (mem_filter.mp hr).1).1

/-- What is left of an accepted line's batch stays usable. -/
theorem AllUsable.kept {batches : List Cafe24UploadBatch} (h : AllUsable batches lines) (batchId : Nat) :
    AllUsable batches (kept batchId lines) := by
  intro line hl ha
  obtain ⟨hm, hne⟩ := mem_kept.mp hl
  have hcount : storedRowCount (Coupang.kept batchId lines) line.uploadBatchId =
      storedRowCount lines line.uploadBatchId := by
    unfold storedRowCount Coupang.kept
    rw [countP_filter]
    refine countP_congr fun r _ => ?_
    simp only [Bool.and_eq_true, decide_eq_true_eq]
    exact ⟨fun hr => hr.1, fun e => ⟨e, by rw [e]; exact hne⟩⟩
  have hu := h line hm ha
  unfold usableBatch at hu ⊢
  rw [hcount]
  exact hu

/-- **A deletion in closed form.** -/
theorem deleteUpload_eq (h : StoreInv text rulesAt store) (hb : ∃ batch ∈ store.batches, batch.id = batchId) :
    deleteUpload batchId store =
      { batches := store.batches.filter fun batch => batch.id ≠ batchId
        lines := (kept batchId store.lines).map fun r =>
          if r.logicalKey ∈ currentDeletedKeys batchId store.lines then
            restored lineElect (kept batchId store.lines) r else r
        rowErrors := store.rowErrors.filter fun error => error.uploadBatchId ≠ batchId } := by
  obtain ⟨batch, hm, hid⟩ := hb
  have hfound : (store.batches.find? fun batch => batch.id = batchId).isNone ≠ true := by
    rw [find?_batch h.batchIds hm hid]
    exact Bool.false_ne_true
  have hrestored : (restoreCurrentCafe24OrderLines (currentDeletedKeys batchId store.lines)
      { store with
        lines := kept batchId store.lines
        rowErrors := store.rowErrors.filter fun error => error.uploadBatchId ≠ batchId }).lines =
      (kept batchId store.lines).map fun r =>
        if r.logicalKey ∈ currentDeletedKeys batchId store.lines then
          restored lineElect (kept batchId store.lines) r else r := by
    refine restoreCurrentCafe24OrderLines_lines (ids_kept h.lines.ids batchId)
      (h.allUsable.kept batchId) fun k hk => ?_
    obtain ⟨r, hr, -, hrk, -⟩ := (mem_currentDeletedKeys h.lines.clean).mp hk
    rw [← hrk]
    exact h.lines.clean r hr
  unfold deleteUpload
  rw [if_neg hfound]
  exact congrArg (fun lines => Cafe24Store.mk (store.batches.filter fun batch => batch.id ≠ batchId) lines
    (store.rowErrors.filter fun error => error.uploadBatchId ≠ batchId)) hrestored

/-- **A deletion keeps the invariant.** -/
theorem StoreInv.deleteUpload (h : StoreInv text rulesAt store) (batchId : Nat) :
    StoreInv text rulesAt (deleteUpload batchId store) := by
  by_cases hb : ∃ batch ∈ store.batches, batch.id = batchId
  · rw [deleteUpload_eq h hb]
    have hcol : ∀ r : Cafe24OrderLine, (if r.logicalKey ∈ currentDeletedKeys batchId store.lines then
        restored lineElect (kept batchId store.lines) r else r).clear = r.clear := by
      intro r
      split <;> rfl
    refine ⟨⟨?_, ?_, fun k => ?_⟩, ?_, ?_, ?_, ?_, ?_⟩ <;> dsimp only
    · rw [map_map]
      refine (map_congr_left fun r _ => ?_) ▸ ids_kept h.lines.ids batchId
      simp only [comp_apply]
      split <;> rfl
    · intro r hr
      obtain ⟨s, hs, rfl⟩ := mem_map.mp hr
      have := h.lines.clean s (mem_kept.mp hs).1
      split <;> exact this
    · rw [ofKey_map (fun r _ => by split <;> rfl)]
      by_cases hk : k ∈ currentDeletedKeys batchId store.lines
      · rw [map_congr_left (g := restored lineElect (kept batchId store.lines))]
        · exact oneCurrent_restored elects_versionRank_lineElect (ids_kept h.lines.ids batchId) k
        · intro r hr
          rw [if_pos (by rw [(mem_ofKey.mp hr).2]; exact hk)]
      · rw [map_congr_left (g := id), map_id]
        · refine oneCurrent_kept (h.lines.keys k) fun r hr hrb hrk => ?_
          cases hc : r.isCurrent with
          | false => rfl
          | true => exact absurd ((mem_currentDeletedKeys h.lines.clean).mpr ⟨r, hr, hrb, hrk, hc⟩) hk
        · intro r hr
          rw [if_neg (by rw [(mem_ofKey.mp hr).2]; exact hk)]
          rfl
    · exact h.batchIds.sublist (filter_sublist.map _)
    · intro line hl
      obtain ⟨r, hr, rfl⟩ := mem_map.mp hl
      obtain ⟨hrm, hrb⟩ := mem_kept.mp hr
      obtain ⟨batch, hm, e⟩ := h.owner r hrm
      refine ⟨batch, mem_filter.mpr ⟨hm, by rw [e]; simpa using hrb⟩, ?_⟩
      rw [e]
      split <;> rfl
    · intro error he
      obtain ⟨he, hne⟩ := mem_filter.mp he
      obtain ⟨batch, hm, e⟩ := h.errorOwner error he
      exact ⟨batch, mem_filter.mpr ⟨hm, by rw [e]; exact hne⟩, e⟩
    · intro error he i hi
      obtain ⟨he, hne⟩ := mem_filter.mp he
      obtain ⟨line, hl, hid, hlb⟩ := h.errorLine error he i hi
      refine ⟨_, mem_map_of_mem (mem_kept.mpr ⟨hl, ?_⟩), ?_, ?_⟩
      · rw [hlb]
        simpa using hne
      · rw [← hid]
        split <;> rfl
      · rw [← hlb]
        split <;> rfl
    · intro batch hm hne
      obtain ⟨hm, hid⟩ := mem_filter.mp hm
      have hcl : clearedOf batch.id ((kept batchId store.lines).map fun r =>
          if r.logicalKey ∈ currentDeletedKeys batchId store.lines then
            restored lineElect (kept batchId store.lines) r else r) =
          clearedOf batch.id store.lines := by
        rw [clearedOf_map hcol]
        unfold clearedOf linesOf kept
        rw [filter_filter]
        congr 1
        refine filter_congr fun r _ => ?_
        by_cases e : r.uploadBatchId = batch.id
        · simp [e, hid]
        · simp [e]
      refine (h.batches batch hm ?_).congr hcl ?_
      · intro hn
        have hnil : clearedOf batch.id store.lines = [] := clearedOf_eq_nil (linesOf_eq_nil_iff.mp hn)
        rw [hnil] at hcl
        exact hne (map_eq_nil_iff.mp hcl)
      · unfold errorsOf
        rw [filter_filter]
        refine filter_congr fun error _ => ?_
        by_cases e : error.uploadBatchId = batch.id
        · simp [e, hid]
        · simp [e]
  · have hnone : (store.batches.find? fun batch => batch.id = batchId).isNone = true := by
      rw [Option.isNone_iff_eq_none, find?_eq_none]
      intro batch hm
      rw [decide_eq_true_eq]
      exact fun e => hb ⟨batch, hm, e⟩
    unfold Cafe24.deleteUpload
    rw [if_pos hnone]
    exact h

/-! ## 3. Runs -/

/-- The stores of all runs of imports and deletions; `rulesAt` keeps the rules of each import. -/
inductive Reachable (text : TextLocale) : Cafe24Store → (Nat → List Cafe24RuleInput) → Prop where
  | start (rulesAt : Nat → List Cafe24RuleInput) : Reachable text ⟨[], [], []⟩ rulesAt
  | imported {store : Cafe24Store} {rulesAt : Nat → List Cafe24RuleInput} (env : ImportEnv)
      (rules : List Cafe24RuleInput) (policy : ConflictPolicy) (file : Cafe24File) :
      Reachable text store rulesAt → env.text = text → env.Fresh file store →
      Reachable text (importCafe24Csv env rules policy file store)
        (update rulesAt env.batchId rules)
  | deleted {store : Cafe24Store} {rulesAt : Nat → List Cafe24RuleInput} (batchId : Nat) :
      Reachable text store rulesAt → Reachable text (deleteUpload batchId store) rulesAt

/-- **Every reachable store has the invariant.** -/
theorem Reachable.inv (h : Reachable text store rulesAt) : StoreInv text rulesAt store := by
  induction h with
  | start rulesAt =>
    refine ⟨⟨nodup_nil, ?_, fun k => OneCurrent.nil _⟩, nodup_nil, ?_, ?_, ?_, ?_⟩
    · exact fun _ h => (not_mem_nil h).elim
    · exact fun _ h => (not_mem_nil h).elim
    · exact fun _ h => (not_mem_nil h).elim
    · exact fun _ h => (not_mem_nil h).elim
    · exact fun _ h => (not_mem_nil h).elim
  | imported env rules policy file _ htext hfresh ih =>
    exact ih.importCafe24Csv htext hfresh rules policy
  | deleted batchId _ ih => exact ih.deleteUpload batchId

end AdsManagement.Cafe24
