/-
  File:      Cafe24/UploadInverse.lean
  Subject:   DOES `deleteUpload` UNDO AN IMPORT? Exactly when the line an import demotes is the
             newest accepted line of its key.

  A skipped line is stored with the version of the line it duplicates and a later `createdAt`. Once a
  later import has demoted both, the re-election takes the skipped line.

  * `lines_delete_import` -- import and deletion together, in closed form;
  * `restored_lineElect_iff` -- when a re-election confirms the flags of a key;
  * `batches_account_for_lines` -- counters and error records.
-/
import AdsManagement.Cafe24.UploadRuns

namespace AdsManagement.Cafe24

open Common Lib Coupang List Function

variable {text : TextLocale} {rules : List Cafe24RuleInput} {store : Cafe24Store}
  {rulesAt : Nat → List Cafe24RuleInput} {env : ImportEnv} {file : Cafe24File}

/-! ## 1. The keys of a file -/

/-- The keys of the rows of the file that have no issue. -/
def validKeys (file : Cafe24File) : List String :=
  (file.rows.filter fun rawRow => (parseRow rawRow).issues.isEmpty).map fun rawRow =>
    effectiveCafe24OrderLineKey (parseRow rawRow).parsedRow rawRow

section

variable (text : TextLocale) (hash : RecordHash) (rules : List Cafe24RuleInput)
  (duplicateKeys : List String) (rowNumber : Nat) (rawRow : RawRow)

theorem status_prepareRow_ne_error :
    (prepareRow text hash rules duplicateKeys rowNumber rawRow).validationStatus ≠ .ERROR ↔
      (parseRow rawRow).issues = [] := by
  rw [ne_eq, (isPrepared_prepareRow text hash rules duplicateKeys rowNumber rawRow).status_error_iff,
    not_not]
  unfold prepareRow
  generalize parseRow rawRow = parsed
  exact map_eq_nil_iff

theorem orderLineKey_prepareRow : (prepareRow text hash rules duplicateKeys rowNumber rawRow).orderLineKey =
      effectiveCafe24OrderLineKey (parseRow rawRow).parsedRow rawRow := by
  unfold prepareRow
  generalize parseRow rawRow = parsed
  rfl

end

variable {k : String}

theorem mem_acceptedKeys_importEntries (hlen : env.stamps.length = file.rows.length)
    (rules : List Cafe24RuleInput) :
    k ∈ acceptedKeys (importEntries env rules file) ↔ k ∈ validKeys file := by
  have hsnd : (importEntries env rules file).map (·.2) = preparedRows env.text env.hash rules file.rows := by
    refine map_snd_zip ?_
    unfold preparedRows
    rw [length_map, length_zipIdx, hlen]
  have hrows : acceptedKeys (importEntries env rules file) =
      ((preparedRows env.text env.hash rules file.rows).filter fun row =>
        row.validationStatus ≠ .ERROR).map (·.orderLineKey) := by
    rw [← hsnd, filter_map, map_map]
    rfl
  rw [hrows]
  unfold validKeys preparedRows
  simp only [mem_map, mem_filter, decide_eq_true_eq]
  constructor
  · rintro ⟨row, ⟨⟨x, hx, rfl⟩, hs⟩, rfl⟩
    refine ⟨x.1, ⟨?_, isEmpty_iff.mpr ((status_prepareRow_ne_error _ _ _ _ _ _).mp hs)⟩,
      (orderLineKey_prepareRow _ _ _ _ _ _).symm⟩
    have := mem_map_of_mem (f := Prod.fst) hx
    rwa [zipIdx_map_fst] at this
  · rintro ⟨rawRow, ⟨hr, hi⟩, rfl⟩
    rw [← zipIdx_map_fst 0 file.rows] at hr
    obtain ⟨x, hx, rfl⟩ := mem_map.mp hr
    exact ⟨_, ⟨⟨x, hx, rfl⟩, (status_prepareRow_ne_error _ _ _ _ _ _).mpr (isEmpty_iff.mp hi)⟩,
      orderLineKey_prepareRow _ _ _ _ _ _⟩

/-! ## 2. Import and deletion together -/

/-- The keys a deletion of the import elects anew. -/
def reelectedKeys (policy : ConflictPolicy) (file : Cafe24File) (lines : List Cafe24OrderLine) :
    List String :=
  (validKeys file).filter fun k => policy ≠ .SKIP || (existingCurrentLines k lines).isEmpty

variable {lines : List Cafe24OrderLine}

theorem mem_reelectedKeys {policy : ConflictPolicy} :
    k ∈ reelectedKeys policy file lines ↔
      k ∈ validKeys file ∧ (policy ≠ .SKIP ∨ existingCurrentLines k lines = []) := by
  unfold reelectedKeys
  simp only [List.mem_filter, Bool.or_eq_true, decide_eq_true_eq, List.isEmpty_iff]

theorem kept_of_noLines {batchId : Nat} (h : NoLines batchId lines) : kept batchId lines = lines :=
  filter_eq_self.mpr fun r hr => by simp [h r hr]

theorem not_currentIn_of_noLines {batchId : Nat} (h : NoLines batchId lines) (k : String) :
    ¬ CurrentIn batchId k lines := by
  rintro ⟨r, hr, hb, -⟩
  exact h r hr hb

/-- A deletion of a batch without lines. -/
theorem lines_deleteUpload_of_noLines (h : StoreInv text rulesAt store) {batchId : Nat}
    (hno : NoLines batchId store.lines) : (deleteUpload batchId store).lines = store.lines := by
  by_cases hb : ∃ batch ∈ store.batches, batch.id = batchId
  · rw [deleteUpload_eq h hb]
    rw [kept_of_noLines hno]
    refine (map_congr_left fun r _ => ?_).trans (map_id _)
    rw [if_neg fun hk => not_currentIn_of_noLines hno _ ((mem_currentDeletedKeys h.lines.clean).mp hk)]
    rfl
  · have hnone : (store.batches.find? fun batch => batch.id = batchId).isNone = true := by
      rw [Option.isNone_iff_eq_none, find?_eq_none]
      intro batch hm
      rw [decide_eq_true_eq]
      exact fun e => hb ⟨batch, hm, e⟩
    unfold deleteUpload
    rw [if_pos hnone]

/-- An import that stores no line is undone. -/
theorem lines_delete_import_of_no_rows (h : StoreInv text rulesAt store) (htext : env.text = text)
    (hfresh : env.Fresh file store) (rules : List Cafe24RuleInput) (policy : ConflictPolicy)
    (hrows : reusesBatch policy file store = true ∨ reachesRows env file = false) :
    (deleteUpload env.batchId (importCafe24Csv env rules policy file store)).lines = store.lines := by
  have hinv := h.importCafe24Csv htext hfresh rules policy
  obtain ⟨other, -, hl, -, -, e⟩ := h.importCafe24Csv_cases env rules policy file
  have hno : NoLines env.batchId store.lines := (h.create (newBatch env policy file store) hfresh.batchId).1
  have hsame : (importCafe24Csv env rules policy file store).lines = store.lines := by
    rw [e]
    by_cases hr : reusesBatch policy file store = true
    · rw [if_pos hr, hl]
    · rw [if_neg hr, importAsNewBatch_eq]
      have hreach := hrows.resolve_left hr
      by_cases hm : missingColumns file.headers = []
      · cases hf : env.rowFailure with
        | none =>
          unfold reachesRows at hreach
          rw [hm, hf] at hreach
          cases hreach
        | some failure =>
          rw [if_neg (not_not.mpr hm)]
          exact hl
      · rw [if_pos hm]
        exact hl
  rw [lines_deleteUpload_of_noLines hinv (by rw [hsame]; exact hno), hsame]

/-- The lines after an import that gets to its rows. -/
theorem lines_importAsNewBatch (hreach : reachesRows env file = true) (rules : List Cafe24RuleInput)
    (policy : ConflictPolicy) (store : Cafe24Store) :
    (importAsNewBatch env rules policy file store).lines =
        (importEntries env rules file).foldl (saveTurn policy env.batchId) store.lines ∧
      ∃ batch ∈ (importAsNewBatch env rules policy file store).batches, batch.id = env.batchId := by
  unfold reachesRows at hreach
  rw [Bool.and_eq_true, List.isEmpty_iff, Option.isNone_iff_eq_none] at hreach
  rw [importAsNewBatch_eq, if_neg (not_not.mpr hreach.1), hreach.2]
  rw [importTransaction_eq_row_by_row]
  refine ⟨importLoop_lines _ _ _ _ _ _, ?_⟩
  have hids : ∀ counters, (updateBatch env.batchId (countedBatch env.now counters)
      (ratedStore env policy file store).batches).map (·.id) =
      (ratedStore env policy file store).batches.map (·.id) :=
    fun counters => map_id_updateBatch _ _ fun _ e => e
  have hmem : newBatch env policy file store ∈ (ratedStore env policy file store).batches :=
    mem_append_right _ (mem_singleton.mpr rfl)
  exact mem_of_map_id (hids _) hmem

/-- **Importing a file and deleting its batch**: the lines are what they were, except that the
    lines of the keys the batch was current for have the flag of a new election. -/
theorem lines_delete_import (h : StoreInv text rulesAt store) (htext : env.text = text)
    (hfresh : env.Fresh file store) (rules : List Cafe24RuleInput) (policy : ConflictPolicy)
    (hreuse : reusesBatch policy file store = false) (hreach : reachesRows env file = true) :
    (deleteUpload env.batchId (importCafe24Csv env rules policy file store)).lines =
      store.lines.map fun r =>
        if r.logicalKey ∈ reelectedKeys (importConflictPolicy policy file store) file store.lines then
          restored lineElect store.lines r else r := by
  have hinv := h.importCafe24Csv htext hfresh rules policy
  obtain ⟨other, -, hl, -, hb, e⟩ := h.importCafe24Csv_cases env rules policy file
  have hno : NoLines env.batchId store.lines := (h.create (newBatch env policy file store) hfresh.batchId).1
  rw [if_neg (by rw [hreuse]; exact Bool.false_ne_true)] at e
  rw [e] at hinv ⊢
  generalize importConflictPolicy policy file store = used at hinv ⊢
  obtain ⟨hlines, hbatch⟩ := lines_importAsNewBatch hreach rules used other
  rw [hl] at hlines
  obtain ⟨-, ⟨f, hclears, hkept, hskip⟩, hcurrent⟩ := saved_foldl used env.batchId
    (importEntries env rules file) store.lines h.lines
    (by rw [map_fst_importEntries hfresh.length]; exact hfresh.stamps)
    (fun entry he => (isPrepared_importEntries env rules file entry he).clean)
  rw [← hlines] at hkept hskip hcurrent
  rw [kept_of_noLines hno] at hkept hskip
  have hmem : ∀ k, k ∈ currentDeletedKeys env.batchId (importAsNewBatch env rules used file other).lines ↔
      k ∈ reelectedKeys used file store.lines := by
    intro k
    rw [mem_currentDeletedKeys hinv.lines.clean, hcurrent,
      or_iff_right (not_currentIn_of_noLines hno k), mem_reelectedKeys,
      mem_acceptedKeys_importEntries hfresh.length]
  rw [deleteUpload_eq hinv hbatch]
  rw [hkept, map_map]
  refine map_congr_left fun r hr => ?_
  have hfk : (f r).logicalKey = r.logicalKey := by
    rcases hclears r with e | e
    · rw [e]
    · rw [e.1]; rfl
  simp only [comp_apply, hmem, hfk]
  by_cases hk : r.logicalKey ∈ reelectedKeys used file store.lines
  · rw [if_pos hk, if_pos hk, hclears.restored]
  · rw [if_neg hk, if_neg hk]
    by_cases hs : used = .SKIP
    · -- the skipped import leaves every line
      have hmap := hkept.symm.trans (hskip hs)
      exact map_inj_left.mp (hmap.trans (map_id _).symm) r hr
    · refine (hclears r).resolve_right fun hc => hk (mem_reelectedKeys.mpr ⟨?_, .inl hs⟩)
      exact (mem_acceptedKeys_importEntries hfresh.length rules).mp hc.2

/-! ## 3. When a re-election confirms the flags -/

/-- The current line of a key is the newest accepted line of the key. -/
def CurrentIsNewest (k : String) (lines : List Cafe24OrderLine) : Prop :=
  ∀ line ∈ lines, line.logicalKey = k → line.isCurrent = true →
    ∀ other ∈ lines, other.logicalKey = k → other.accepted = true → lineRank other ≤ lineRank line

instance (k : String) (lines : List Cafe24OrderLine) : Decidable (CurrentIsNewest k lines) :=
  inferInstanceAs (Decidable (∀ line ∈ lines, line.logicalKey = k → line.isCurrent = true →
    ∀ other ∈ lines, other.logicalKey = k → other.accepted = true → lineRank other ≤ lineRank line))

/-- The elected line is the newest accepted one. -/
theorem lineRank_le_of_elected {i : Nat} (h : elected lineElect k lines = some i) :
    ∃ c ∈ candidates k lines, c.id = i ∧ ∀ r ∈ candidates k lines, lineRank r ≤ lineRank c := by
  obtain ⟨x, hx, rfl⟩ := Option.map_eq_some_iff.mp h
  have ht := elects_lineElect.top _ _ hx
  obtain ⟨c, hc, rfl⟩ := mem_map.mp ht.mem
  exact ⟨c, hc, rfl, fun r hr => ht.le r.clear (mem_map_of_mem hr)⟩

/-- **The re-election confirms the flags of a key exactly when its current line is the newest.** -/
theorem restored_lineElect_iff (h : TableInv lines) (k : String) :
    (∀ r ∈ lines, r.logicalKey = k → restored lineElect lines r = r) ↔ CurrentIsNewest k lines := by
  constructor
  · intro hall line hl hk hc other ho hok ha
    have hel := (restored_eq_self_iff_flag.mp (hall line hl hk)).mp hc
    rw [hk] at hel
    obtain ⟨c, hcm, hid, htop⟩ := lineRank_le_of_elected hel
    rw [eq_of_id h.ids (mem_candidates.mp hcm).1 hl hid] at htop
    exact htop other (mem_candidates.mpr ⟨ho, hok, ha⟩)
  · intro hnew r hr hk
    rw [restored_eq_self_iff_flag, hk]
    have hcurrent : ∀ i, elected lineElect k lines = some i →
        ∃ d ∈ lines, d.logicalKey = k ∧ d.isCurrent = true ∧ d.id = i := by
      intro i hel
      obtain ⟨c, hcm, hid, htop⟩ := lineRank_le_of_elected hel
      obtain ⟨hc, hck, hca⟩ := mem_candidates.mp hcm
      obtain ⟨d, hd, hdc⟩ := (h.keys k).exists_current c (mem_ofKey.mpr ⟨hc, hck⟩) hca
      have hda := (h.keys k).accepted d hd hdc
      obtain ⟨hd, hdk⟩ := mem_ofKey.mp hd
      have hle := htop d (mem_candidates.mpr ⟨hd, hdk, hda⟩)
      have hge := hnew d hd hdk hdc c hc hck hca
      exact ⟨d, hd, hdk, hdc, (id_eq_of_lineRank (le_antisymm hle hge)).trans hid⟩
    constructor
    · intro hc
      have hacc := (h.keys k).accepted r (mem_ofKey.mpr ⟨hr, hk⟩) hc
      have hcm : r.clear ∈ (candidates k lines).map StoredRow.clear :=
        mem_map_of_mem (mem_candidates.mpr ⟨hr, hk, hacc⟩)
      obtain ⟨x, hx⟩ := elects_lineElect.found _ (ne_nil_of_mem hcm)
      have hel : elected lineElect k lines = some x.id := by
        unfold elected
        rw [hx]
        rfl
      obtain ⟨d, hd, hdk, hdc, hid⟩ := hcurrent _ hel
      rw [hel, ← hid, (h.keys k).eq_of_current (mem_ofKey.mpr ⟨hd, hdk⟩) (mem_ofKey.mpr ⟨hr, hk⟩) hdc hc]
    · intro hel
      obtain ⟨d, hd, -, hdc, hid⟩ := hcurrent _ hel
      rw [← eq_of_id h.ids hd hr hid]
      exact hdc

/-! ## 4. The theorem -/

/-- The condition: wherever the import replaces the current line of a key, that line is the
    newest accepted line of the key. -/
def ReplacesNewest (env : ImportEnv) (policy : ConflictPolicy) (file : Cafe24File) (store : Cafe24Store) :
    Prop :=
  reusesBatch policy file store = false → reachesRows env file = true →
    importConflictPolicy policy file store ≠ .SKIP → ∀ k ∈ validKeys file, CurrentIsNewest k store.lines

/-- A key without current line has nothing to confirm. -/
theorem currentIsNewest_of_none (h : existingCurrentLines k lines = []) : CurrentIsNewest k lines := by
  intro line hl hk hc
  rw [existingCurrentLines_eq_nil_iff.mp h line hl hk] at hc
  cases hc

/-- The flags are given back exactly when every re-election confirms the flags of its key. -/
theorem map_isCurrent_restored_iff (h : TableInv lines) (keys : List String) :
    (lines.map fun r => if r.logicalKey ∈ keys then restored lineElect lines r else r).map (·.isCurrent) =
        lines.map (·.isCurrent) ↔ ∀ k ∈ keys, CurrentIsNewest k lines := by
  rw [map_map, map_inj_left]
  simp only [comp_apply]
  constructor
  · intro hall k hk
    rw [← restored_lineElect_iff h]
    intro r hr hrk
    have hflag := hall r hr
    rw [if_pos (by rw [hrk]; exact hk)] at hflag
    rw [restored_eq_self_iff_flag, ← hflag]
    exact decide_eq_true_iff
  · intro hall r hr
    by_cases hk : r.logicalKey ∈ keys
    · rw [if_pos hk, (restored_lineElect_iff h _).mpr (hall _ hk) r hr rfl]
    · rw [if_neg hk]

/-- **When a deletion undoes an import.** In every reachable store each key has at most one
    current line; and importing a file and deleting its batch leaves the stored lines, and gives
    every one the flag it had exactly when wherever the import replaces the current line of a key,
    that line is the newest accepted line of the key by (importVersion, createdAt, id). -/
theorem delete_import_restores_flags_iff (h : Reachable text store rulesAt) :
    (∀ k, (currentRows k store.lines).length ≤ 1) ∧
    ∀ (env : ImportEnv) (rules : List Cafe24RuleInput) (policy : ConflictPolicy) (file : Cafe24File),
      env.text = text → env.Fresh file store →
      (deleteUpload env.batchId (importCafe24Csv env rules policy file store)).lines.map StoredRow.clear =
        store.lines.map StoredRow.clear ∧
      ((deleteUpload env.batchId (importCafe24Csv env rules policy file store)).lines.map (·.isCurrent) =
        store.lines.map (·.isCurrent) ↔ ReplacesNewest env policy file store) := by
  have hinv := h.inv
  refine ⟨fun k => (hinv.lines.keys k).atMost, ?_⟩
  intro env rules policy file htext hfresh
  by_cases hrows : reusesBatch policy file store = true ∨ reachesRows env file = false
  · rw [lines_delete_import_of_no_rows hinv htext hfresh rules policy hrows]
    refine ⟨rfl, iff_of_true rfl fun hreuse hreach => ?_⟩
    rcases hrows with e | e
    · rw [e] at hreuse; cases hreuse
    · rw [e] at hreach; cases hreach
  · rw [not_or, Bool.not_eq_true, Bool.not_eq_false] at hrows
    obtain ⟨hreuse, hreach⟩ := hrows
    rw [lines_delete_import hinv htext hfresh rules policy hreuse hreach]
    constructor
    · rw [map_map]
      refine map_congr_left fun r _ => ?_
      simp only [comp_apply]
      split <;> rfl
    · rw [map_isCurrent_restored_iff hinv.lines]
      constructor
      · intro hall _ _ hskip k hk
        exact hall k (mem_reelectedKeys.mpr ⟨hk, .inl hskip⟩)
      · intro hall k hk
        obtain ⟨hk, hs⟩ := mem_reelectedKeys.mp hk
        by_cases hskip : importConflictPolicy policy file store = .SKIP
        · exact currentIsNewest_of_none (hs.resolve_left fun hne => hne hskip)
        · exact hall hreuse hreach hskip k hk

/-! ### A skipped line that is elected -/

/-- A file of one row. -/
def oneRowFile (payment : String) : Cafe24File where
  hash := payment
  headers := CAFE24_ORDER_REQUIRED_KEYS.map (·.name)
  rows := [orderRow "20260101-1-01" "1000" payment]

/-- The n-th import, with batch id, row id and time `n`. -/
def numberedEnv (n : Nat) : ImportEnv where
  text := plainText
  hash := zeroHash
  batchId := n
  newHash := ""
  now := n
  stamps := [⟨n, n⟩]
  rateFailure := none
  rowFailure := none

def importedOnce : Cafe24Store :=
  importCafe24Csv (numberedEnv 1) [] .OVERWRITE (oneRowFile "card") ⟨[], [], []⟩

/-- The second file repeats the row, and the row is skipped. -/
def importedTwice : Cafe24Store := importCafe24Csv (numberedEnv 2) [] .SKIP (oneRowFile "cash") importedOnce

theorem fresh_numberedEnv {n : Nat} {payment : String} {store : Cafe24Store}
    (hb : ∀ batch ∈ store.batches, batch.id ≠ n) (hl : ∀ line ∈ store.lines, line.id ≠ n) :
    (numberedEnv n).Fresh (oneRowFile payment) store where
  batchId := hb
  stamps := by
    refine ⟨nodup_singleton _, fun stamp hs line hm => ?_⟩
    rw [mem_singleton.mp hs]
    exact hl line hm
  length := rfl

theorem reachable_importedOnce : Reachable plainText importedOnce (update (fun _ => []) 1 []) :=
  (Reachable.start _).imported (numberedEnv 1) [] .OVERWRITE (oneRowFile "card") rfl
    (fresh_numberedEnv (by decide) (by decide))

theorem reachable_importedTwice :
    Reachable plainText importedTwice (update (update (fun _ => []) 1 []) 2 []) :=
  reachable_importedOnce.imported (numberedEnv 2) [] .SKIP (oneRowFile "cash") rfl
    (fresh_numberedEnv (by decide +kernel) (by decide +kernel))

/-- With one line stored, an overwrite can be undone. -/
theorem delete_import_restores_flags_importedOnce :
    (deleteUpload 2 (importCafe24Csv (numberedEnv 2) [] .OVERWRITE (oneRowFile "cash") importedOnce)).lines.map
      (·.isCurrent) = importedOnce.lines.map (·.isCurrent) := by
  have h := ((delete_import_restores_flags_iff reachable_importedOnce).2 (numberedEnv 2) [] .OVERWRITE
    (oneRowFile "cash") rfl (fresh_numberedEnv (by decide +kernel) (by decide +kernel))).2
  exact h.mpr fun _ _ _ => by decide +kernel

/-- **A skipped line takes over**: the row is stored twice, the second time skipped; a
    third import that overwrites it, deleted at once, leaves the skipped line current. -/
theorem delete_import_not_inverse :
    ¬ ∀ (text : TextLocale) (store : Cafe24Store) (rulesAt : Nat → List Cafe24RuleInput),
      Reachable text store rulesAt →
      (∀ k, (currentRows k store.lines).length ≤ 1) ∧
      ∀ (env : ImportEnv) (rules : List Cafe24RuleInput) (policy : ConflictPolicy) (file : Cafe24File),
        env.text = text → env.Fresh file store →
        (deleteUpload env.batchId (importCafe24Csv env rules policy file store)).lines.map (·.isCurrent) =
          store.lines.map (·.isCurrent) := by
  intro hall
  have h := (hall plainText importedTwice _ reachable_importedTwice).2 (numberedEnv 3) [] .OVERWRITE
    (oneRowFile "bank") rfl (fresh_numberedEnv (by decide +kernel) (by decide +kernel))
  revert h
  decide +kernel

/-- **A batch accounts for its lines**, in every run of imports and deletions: each is accepted or counted
    as an error, the import FAILED when none is accepted, and the ERROR records are those of its lines. -/
theorem batches_account_for_lines (h : Reachable text store rulesAt) :
    ∀ batch ∈ store.batches, linesOf batch.id store.lines ≠ [] →
      (linesOf batch.id store.lines).length = batch.validRowCount + batch.errorCount ∧
      (batch.status = .FAILED ↔ ∀ line ∈ linesOf batch.id store.lines, line.accepted = false) ∧
      ∀ error, error.severity = .ERROR → (error ∈ errorsOf batch.id store.rowErrors ↔
        ∃ line ∈ linesOf batch.id store.lines, error ∈ lineErrors line) := by
  intro batch hb hlines
  have inv := h.inv.batches batch hb hlines
  have hcount : (linesOf batch.id store.lines).length = batch.validRowCount + batch.errorCount := by
    rw [inv.validRowCount, inv.errorCount, length_eq_countP_add_countP (·.accepted)]
    simp
  refine ⟨hcount, ?_, fun error hs => ?_⟩
  · have hpos : 0 < (linesOf batch.id store.lines).length := length_pos_iff.mpr hlines
    have hnone : batch.validRowCount = 0 ↔ ∀ line ∈ linesOf batch.id store.lines, line.accepted = false := by
      rw [inv.validRowCount, countP_eq_zero]
      simp
    rw [← hnone, inv.status]
    split_ifs with hboth herror <;> simp <;> omega
  · obtain ⟨unlined, hu, herrors⟩ := inv.errors
    rw [herrors, mem_append, mem_flatMap]
    refine or_iff_right fun hun => ?_
    rw [(hu error hun).2] at hs
    cases hs

theorem batches_account_for_lines_importedTwice : importedTwice.batches.length = 2 ∧
    ∀ batch ∈ importedTwice.batches,
      (linesOf batch.id importedTwice.lines).length = batch.validRowCount + batch.errorCount ∧
      (batch.status = .FAILED ↔ ∀ line ∈ linesOf batch.id importedTwice.lines, line.accepted = false) := by
  have hlines : ∀ batch ∈ importedTwice.batches, linesOf batch.id importedTwice.lines ≠ [] := by
    decide +kernel
  refine ⟨by decide +kernel, fun batch hb => ?_⟩
  obtain ⟨hcount, hfailed, -⟩ := batches_account_for_lines reachable_importedTwice batch hb (hlines batch hb)
  exact ⟨hcount, hfailed⟩

end AdsManagement.Cafe24
