/-
  File:      Cafe24/Rematch.lean
  Subject:   MATCHING AGAIN: what `rematchCafe24Lines` leaves as it is when the rules have not
             changed since the lines were imported.

  The lines and error records stay. The batches are recounted, and the recount adds up the error
  records where the import adds up the rows with errors: a row with two of them counts twice.

  * `rematchCafe24Lines_eq` -- the run over the pages in closed form;
  * `rematch_unchanged_iff` -- when a batch keeps its counters; a second run changes nothing.
-/
import AdsManagement.Coupang.RematchPages
import AdsManagement.Cafe24.UploadInverse

namespace AdsManagement.Cafe24

open Common Lib Coupang List Function

/-! ## 1. The loop over the pages -/

/-- The lines `rematchCafe24Lines` asks for. -/
def isRematchCandidate (range : DateRange) (batchIds : List Nat) (line : Cafe24OrderLine) : Bool :=
  line.isCurrent && batchIds.contains line.uploadBatchId && line.data.orderDate.any range.holds &&
    line.accepted

/-- The loop. Its cursor takes `orderDate!`: the filter has left out missing dates. -/
def orderLinePaging (text : TextLocale) (rules : List Cafe24RuleInput) (range : DateRange)
    (batchIds : List Nat) : Paging Cafe24OrderLine RowCursor RowOrder Nat where
  selects := isRematchCandidate range batchIds
  key line := rowOrder line.data.orderDate line.rowNumber line.id
  id := (·.id)
  cursor line := ⟨line.data.orderDate.getD 0, line.rowNumber, line.id⟩
  after cursor line := afterCursor cursor line.data.orderDate line.rowNumber line.id
  write := writeRematch text rules

structure Cafe24RematchResult where
  scannedCount : Nat
  matchedCount : Nat
  stillUnmatchedCount : Nat
  ambiguousCount : Nat

/-- The counters of the loop, read off the lines it has visited. -/
def rematchResult (text : TextLocale) (rules : List Cafe24RuleInput) (visited : List Cafe24OrderLine) :
    Cafe24RematchResult :=
  let reasons := visited.map fun line => (lineMatch text rules line).reason
  { scannedCount := visited.length
    matchedCount := reasons.countP (· = .MATCHED)
    stillUnmatchedCount := reasons.countP (· = .NO_MATCH)
    ambiguousCount := reasons.countP (· = .AMBIGUOUS_MATCH) }

/-- `rematchCafe24Lines`. Without fuel there is no result. -/
def rematchCafe24Lines (text : TextLocale) (rules : List Cafe24RuleInput) (range : DateRange)
    (take fuel now : Nat) (store : Cafe24Store) : Option (Cafe24Store × Cafe24RematchResult) :=
  let batchIds := completeCafe24BatchIds range store
  if batchIds.length = 0 then some (store, rematchResult text rules [])
  else
    ((orderLinePaging text rules range batchIds).run take fuel ⟨store.lines, none, []⟩).map fun final =>
      (refreshCafe24BatchIssueCounts now (final.visited.map (·.uploadBatchId)).eraseDups
        { store with
          lines := final.table
          rowErrors := final.visited.foldl (rematchErrors text rules) store.rowErrors },
        rematchResult text rules final.visited)

variable {text : TextLocale} {rules : List Cafe24RuleInput} {store : Cafe24Store}
  {rulesAt : Nat → List Cafe24RuleInput} {range : DateRange}

/-- A line that is matched again is no ERROR line. -/
theorem accepted_writeRematch (text : TextLocale) (rules : List Cafe24RuleInput) (line : Cafe24OrderLine) :
    (writeRematch text rules line line).accepted = true := by
  rw [accepted_iff]
  unfold writeRematch
  generalize lineMatch text rules line = result
  dsimp only
  cases result.reason with
  | MATCHED =>
    dsimp only
    split <;> decide
  | NO_MATCH | AMBIGUOUS_MATCH => exact fun e => by cases e

theorem lawful_orderLinePaging (text : TextLocale) (rules : List Cafe24RuleInput) (range : DateRange)
    (batchIds : List Nat) : (orderLinePaging text rules range batchIds).Lawful where
  after_iff r s hr hs := by
    have hdate : ∀ {line : Cafe24OrderLine}, isRematchCandidate range batchIds line = true →
        ∃ d, line.data.orderDate = some d := by
      intro line h
      cases hd : line.data.orderDate with
      | none => simp [isRematchCandidate, hd] at h
      | some d => exact ⟨d, rfl⟩
    obtain ⟨d, hd⟩ := hdate hr
    obtain ⟨e, he⟩ := hdate hs
    simp only [orderLinePaging, hd, he]
    exact afterCursor_iff
  id_of_key r s h := id_of_rowOrder h
  write_id r := rfl
  write_key r := rfl
  write_selects r hr := by
    have hacc := accepted_writeRematch text rules r
    simp only [orderLinePaging, isRematchCandidate, Bool.and_eq_true] at hr ⊢
    exact ⟨hr.1, hacc⟩

/-! ## 2. The error records -/

/-- An error record the rematch of a line deletes. -/
def isMatchError (lineId : Nat) (error : Cafe24UploadRowError) : Bool :=
  error.orderLineId = some lineId &&
    (error.errorCode = "CAFE24_PRODUCT_UNMATCHED" || error.errorCode = "CAFE24_PRODUCT_AMBIGUOUS")

/-- The match errors on record for a line are those of its match. -/
def ErrorsMatch (text : TextLocale) (rules : List Cafe24RuleInput)
    (rowErrors : List Cafe24UploadRowError) (line : Cafe24OrderLine) : Prop :=
  (rowErrors.filter (isMatchError line.id)).Perm
    ((matchWarnings (lineMatch text rules line)).map (rowErrorOf line.uploadBatchId line.id line.rowNumber))

variable {rowErrors : List Cafe24UploadRowError} {line : Cafe24OrderLine}

/-- Deleting the match errors of a line and creating them again. -/
theorem perm_rematchErrors (h : ErrorsMatch text rules rowErrors line) :
    (rematchErrors text rules rowErrors line).Perm rowErrors := by
  have hsplit := filter_append_perm (fun error => !isMatchError line.id error) rowErrors
  simp only [Bool.not_not] at hsplit
  exact (Perm.append_left _ h.symm).trans hsplit

theorem ErrorsMatch.of_perm {rowErrors' : List Cafe24UploadRowError}
    (h : ErrorsMatch text rules rowErrors line) (hp : rowErrors'.Perm rowErrors) :
    ErrorsMatch text rules rowErrors' line :=
  (hp.filter _).trans h

/-- The visited lines, one after the other, leave the error records up to their order. -/
theorem perm_foldl_rematchErrors :
    ∀ (visited : List Cafe24OrderLine) {rowErrors : List Cafe24UploadRowError},
      (∀ line ∈ visited, ErrorsMatch text rules rowErrors line) →
      (visited.foldl (rematchErrors text rules) rowErrors).Perm rowErrors
  | [], _, _ => Perm.refl _
  | line :: visited, rowErrors, h => by
    have hp := perm_rematchErrors (h line mem_cons_self)
    have hrest := perm_foldl_rematchErrors visited
      fun l hl => (h l (mem_cons_of_mem _ hl)).of_perm hp
    exact hrest.trans hp

variable {lines : List Cafe24OrderLine}

/-- The line of an id, in a table where ids are distinct. -/
theorem filter_id_eq_singleton (hids : (lines.map (·.id)).Nodup) (hl : line ∈ lines) :
    (lines.filter fun r => r.id = line.id) = [line] := by
  induction lines with
  | nil => cases hl
  | cons r rest ih =>
    obtain ⟨hn, hids⟩ := nodup_cons.mp hids
    rcases mem_cons.mp hl with rfl | hl
    · rw [filter_cons_of_pos (by simp), filter_eq_nil_iff.mpr]
      intro s hs
      rw [decide_eq_true_eq]
      exact fun e => hn (mem_map.mpr ⟨s, hs, e⟩)
    · rw [filter_cons_of_neg, ih hids hl]
      rw [decide_eq_true_eq]
      exact fun e => hn (mem_map.mpr ⟨line, hl, e.symm⟩)

/-- The match errors of one line among the errors of all lines. -/
theorem filter_isMatchError_flatMap (hids : (lines.map (·.id)).Nodup) (hl : line ∈ lines) :
    (lines.flatMap lineErrors).filter (isMatchError line.id) =
      (lineErrors line).filter (isMatchError line.id) := by
  have hother : ∀ r : Cafe24OrderLine, r.id ≠ line.id →
      (lineErrors r).filter (isMatchError line.id) = [] := by
    intro r hne
    refine filter_eq_nil_iff.mpr fun error he => ?_
    obtain ⟨issue, -, rfl⟩ := mem_map.mp he
    simp [isMatchError, rowErrorOf, hne]
  rw [filter_flatMap]
  have hdrop : lines.flatMap (fun r => (lineErrors r).filter (isMatchError line.id)) =
      (lines.filter fun r => r.id = line.id).flatMap
        fun r => (lineErrors r).filter (isMatchError line.id) := by
    clear hids hl
    induction lines with
    | nil => rfl
    | cons r rest ih =>
      by_cases e : r.id = line.id
      · rw [filter_cons_of_pos (by simp [e]), flatMap_cons, flatMap_cons, ih]
      · rw [filter_cons_of_neg (by simp [e]), flatMap_cons, ih, hother r e, nil_append]
  rw [hdrop, filter_id_eq_singleton hids hl, flatMap_singleton]

/-- **The match errors on record are those of the line's match**, in a store with the invariant. -/
theorem StoreInv.errorsMatch (h : StoreInv text rulesAt store) (hl : line ∈ store.lines)
    (ha : line.accepted = true) :
    ErrorsMatch text (rulesAt line.uploadBatchId) store.rowErrors line := by
  obtain ⟨batch, hb, hid⟩ := h.owner line hl
  have hmem : line ∈ linesOf batch.id store.lines := mem_linesOf.mpr ⟨hl, hid.symm⟩
  have hinv := h.batches batch hb (ne_nil_of_mem hmem)
  obtain ⟨unlined, hun, herr⟩ := hinv.errors
  have hline := hinv.lines line hmem
  have hids : ((linesOf batch.id store.lines).map (·.id)).Nodup :=
    h.lines.ids.sublist (filter_sublist.map _)
  -- the match errors of the line are errors of its batch
  have hbatch : store.rowErrors.filter (isMatchError line.id) =
      (errorsOf batch.id store.rowErrors).filter (isMatchError line.id) := by
    unfold errorsOf
    rw [filter_filter]
    refine filter_congr fun error he => ?_
    by_cases hm : isMatchError line.id error = true
    · have hi : error.orderLineId = some line.id := by
        unfold isMatchError at hm
        rw [Bool.and_eq_true, decide_eq_true_eq] at hm
        exact hm.1
      obtain ⟨r, hr, hrid, hrb⟩ := h.errorLine error he _ hi
      rw [← hrb, eq_of_id h.lines.ids hr hl hrid, hid]
      simp
    · simp [hm]
  have hnone : unlined.filter (isMatchError line.id) = [] := by
    refine filter_eq_nil_iff.mpr fun error he => ?_
    simp [isMatchError, (hun error he).1]
  unfold ErrorsMatch
  rw [hbatch, herr, filter_append, hnone, filter_isMatchError_flatMap hids hmem]
  unfold lineErrors
  rw [filter_map]
  refine Perm.map _ (((hline.issues ha).filter _).trans ?_)
  have hcode : ∀ issue : RowIssue, (isMatchError line.id ∘ rowErrorOf line.uploadBatchId line.id line.rowNumber)
      issue = (decide (issue.errorCode = "CAFE24_PRODUCT_UNMATCHED") ||
        decide (issue.errorCode = "CAFE24_PRODUCT_AMBIGUOUS")) := by
    intro issue
    show (decide (some line.id = some line.id) && _) = _
    rw [decide_eq_true rfl]
    rfl
  rw [hid, filter_append]
  have hretained : (nonMatchIssues line.validationErrors).filter
      (isMatchError line.id ∘ rowErrorOf line.uploadBatchId line.id line.rowNumber) = [] := by
    refine filter_eq_nil_iff.mpr fun issue hi => ?_
    have hc := (mem_filter.mp hi).2
    rw [hcode]
    simpa using hc
  have hwarn : ∀ result, (matchWarnings result).filter
      (isMatchError line.id ∘ rowErrorOf line.uploadBatchId line.id line.rowNumber) =
      matchWarnings result := by
    intro result
    refine filter_eq_self.mpr fun issue hi => ?_
    rw [hcode]
    unfold matchWarnings at hi
    split at hi
    · cases hi
    · rw [mem_singleton.mp hi]; rfl
    · rw [mem_singleton.mp hi]; rfl
  rw [hretained, hwarn, nil_append]

/-! ## 3. The recount -/

/-- The batch with a given id is complete. -/
def BatchComplete (store : Cafe24Store) (batchId : Nat) : Prop :=
  ∀ batch ∈ store.batches, batch.id = batchId →
    isCompleteCafe24UploadBatch batch.rowCount (storedRowCount store.lines batchId) = true

/-- Recounting a complete batch. -/
theorem refreshBatch_complete (hids : (store.batches.map (·.id)).Nodup) (now : Nat) {batchId : Nat}
    (hc : BatchComplete store batchId) :
    refreshBatch now store batchId = { store with
      batches := store.batches.map fun batch =>
        if batch.id = batchId then refreshedBatch now store batch else batch } := by
  unfold refreshBatch
  cases hf : store.batches.find? fun batch => batch.id = batchId with
  | none =>
    have hnone : ∀ batch ∈ store.batches, batch.id ≠ batchId := by
      intro batch hm
      simpa using find?_eq_none.mp hf batch hm
    rw [map_congr_left (g := id), map_id]
    intro batch hm
    rw [if_neg (hnone batch hm)]
    rfl
  | some found =>
    have hm := mem_of_find?_eq_some hf
    have hid : found.id = batchId := by simpa using find?_some hf
    dsimp only
    rw [if_pos (hc found hm hid)]
    congr 1
    refine map_congr_left fun batch hb => ?_
    by_cases e : batch.id = batchId
    · rw [if_pos e, if_pos e, inj_on_of_nodup_map hids hb hm (e.trans hid.symm)]
    · rw [if_neg e, if_neg e]

/-- **Recounting complete batches**: each listed batch is recounted from the lines and errors. -/
theorem refreshCafe24BatchIssueCounts_complete (now : Nat) :
    ∀ (batchIds : List Nat) {store : Cafe24Store}, batchIds.Nodup →
      (store.batches.map (·.id)).Nodup → (∀ i ∈ batchIds, BatchComplete store i) →
      refreshCafe24BatchIssueCounts now batchIds store =
        { store with
          batches := store.batches.map fun batch =>
            if batch.id ∈ batchIds then refreshedBatch now store batch else batch }
  | [], store, _, _, _ => by
    unfold refreshCafe24BatchIssueCounts
    simp
  | i :: batchIds, store, hnd, hids, hc => by
    obtain ⟨hi, hnd⟩ := nodup_cons.mp hnd
    have hone := refreshBatch_complete hids now (hc i mem_cons_self)
    have hids' : ((refreshBatch now store i).batches.map (·.id)).Nodup := by
      rw [hone]
      rw [map_map]
      refine (map_congr_left fun batch _ => ?_) ▸ hids
      simp only [comp_apply]
      split <;> rfl
    have hc' : ∀ j ∈ batchIds, BatchComplete (refreshBatch now store i) j := by
      intro j hj batch hb e
      rw [hone] at hb ⊢
      obtain ⟨b, hm, rfl⟩ := mem_map.mp hb
      have hne : b.id ≠ i := by
        rintro rfl
        rw [if_pos rfl] at e
        exact hi (e ▸ hj)
      rw [if_neg hne] at e ⊢
      exact hc j (mem_cons_of_mem _ hj) b hm e
    show refreshCafe24BatchIssueCounts now batchIds (refreshBatch now store i) = _
    rw [refreshCafe24BatchIssueCounts_complete now batchIds hnd hids' hc', hone]
    congr 1
    rw [map_map]
    refine map_congr_left fun batch _ => ?_
    simp only [comp_apply]
    by_cases e : batch.id = i
    · have hni : (refreshedBatch now store batch).id ∉ batchIds := by
        show batch.id ∉ batchIds
        rw [e]
        exact hi
      rw [if_pos e, if_neg hni, if_pos (by rw [e]; exact mem_cons_self)]
    · simp only [mem_cons, e, false_or]
      rfl

/-! ## 4. The run in closed form -/

/-- The lines a rematch visits. -/
def isVisited (range : DateRange) (store : Cafe24Store) (line : Cafe24OrderLine) : Bool :=
  isRematchCandidate range (completeCafe24BatchIds range store) line

def visitedBatches (range : DateRange) (store : Cafe24Store) : List Nat :=
  (store.lines.filter (isVisited range store)).map (·.uploadBatchId)

/-- The lines after a rematch. -/
def rematchedLines (text : TextLocale) (rules : List Cafe24RuleInput) (range : DateRange)
    (store : Cafe24Store) : List Cafe24OrderLine :=
  store.lines.map fun line => if isVisited range store line then writeRematch text rules line line else line

/-- What the run over the pages needs: primary keys, and the error records of what it visits. -/
structure RematchReady (text : TextLocale) (rules : List Cafe24RuleInput) (range : DateRange)
    (store : Cafe24Store) : Prop where
  lineIds : (store.lines.map (·.id)).Nodup
  batchIds : (store.batches.map (·.id)).Nodup
  errors : ∀ line ∈ store.lines, isVisited range store line = true →
    ErrorsMatch text rules store.rowErrors line

theorem complete_of_mem_completeCafe24BatchIds (hids : (store.batches.map (·.id)).Nodup) {i : Nat}
    (hi : i ∈ completeCafe24BatchIds range store) : BatchComplete store i := by
  obtain ⟨batch, hm, rfl⟩ := mem_map.mp hi
  obtain ⟨hm, hu⟩ := mem_filter.mp hm
  obtain ⟨hm, -⟩ := mem_filter.mp hm
  intro other ho e
  rw [inj_on_of_nodup_map hids ho hm e]
  unfold isUsableCafe24UploadBatch at hu
  rw [Bool.and_eq_true] at hu
  exact hu.2

variable {f : Cafe24OrderLine → Cafe24OrderLine}

theorem storedRowCount_map (hf : ∀ line, (f line).uploadBatchId = line.uploadBatchId)
    (lines : List Cafe24OrderLine) (batchId : Nat) :
    storedRowCount (lines.map f) batchId = storedRowCount lines batchId := by
  unfold storedRowCount
  rw [countP_map]
  refine countP_congr fun line _ => ?_
  simp only [comp_apply, hf]

theorem mem_visitedBatches {i : Nat} (hi : i ∈ visitedBatches range store) :
    i ∈ completeCafe24BatchIds range store := by
  obtain ⟨line, hl, rfl⟩ := mem_map.mp hi
  have hv := (mem_filter.mp hl).2
  unfold isVisited isRematchCandidate at hv
  simp only [Bool.and_eq_true, contains_iff_mem] at hv
  exact hv.1.1.2

variable {fuel take : Nat}

/-- **The run over the pages in closed form**, for every page size. -/
theorem rematchCafe24Lines_eq (h : RematchReady text rules range store) (htake : 1 ≤ take)
    (hfuel : store.lines.length < fuel) (now : Nat) :
    ∃ rowErrors counts, rowErrors.Perm store.rowErrors ∧
      rematchCafe24Lines text rules range take fuel now store =
        some ({ batches := store.batches.map fun batch =>
                  if batch.id ∈ visitedBatches range store then
                    refreshedBatch now ⟨[], rematchedLines text rules range store, rowErrors⟩ batch
                  else batch
                lines := rematchedLines text rules range store
                rowErrors }, counts) := by
  unfold rematchCafe24Lines
  dsimp only
  by_cases hnil : completeCafe24BatchIds range store = []
  · have hnone : ∀ line, isVisited range store line = false := by
      unfold isVisited isRematchCandidate
      rw [hnil]
      simp
    have hl : rematchedLines text rules range store = store.lines := by
      unfold rematchedLines
      simp [hnone]
    have hv : visitedBatches range store = [] := by
      unfold visitedBatches
      simp [hnone]
    refine ⟨store.rowErrors, rematchResult text rules [], Perm.refl _, ?_⟩
    rw [hnil, length_nil, hl, hv]
    simp
  · rw [if_neg (by rw [length_eq_zero_iff]; exact hnil)]
    obtain ⟨final, hrun, hvisited, htable⟩ := Paging.run_eq
      (lawful_orderLinePaging text rules range (completeCafe24BatchIds range store)) h.lineIds htake hfuel
    have hperm : final.visited.Perm (store.lines.filter (isVisited range store)) := by
      rw [hvisited]
      exact Paging.perm_sort _
    have herrors : ∀ line ∈ final.visited, ErrorsMatch text rules store.rowErrors line := by
      intro line hl
      obtain ⟨hm, hv⟩ := mem_filter.mp (hperm.subset hl)
      exact h.errors line hm hv
    have hlines : final.table = rematchedLines text rules range store := htable
    have hmem : ∀ i, i ∈ (final.visited.map (·.uploadBatchId)).eraseDups ↔
        i ∈ visitedBatches range store := by
      intro i
      rw [mem_eraseDups]
      exact (hperm.map _).mem_iff
    have hp := perm_foldl_rematchErrors _ herrors
    rw [hrun, Option.map_some, hlines]
    generalize final.visited.foldl (rematchErrors text rules) store.rowErrors = rowErrors at hp ⊢
    refine ⟨rowErrors, rematchResult text rules final.visited, hp, ?_⟩
    have hcomplete : ∀ i ∈ (final.visited.map (·.uploadBatchId)).eraseDups,
        BatchComplete ⟨store.batches, rematchedLines text rules range store, rowErrors⟩ i := by
      intro i hi batch hb e
      have hc := complete_of_mem_completeCafe24BatchIds h.batchIds
        (mem_visitedBatches ((hmem i).mp hi)) batch hb e
      unfold rematchedLines
      rw [storedRowCount_map fun line => by split <;> rfl]
      exact hc
    have hrefresh : refreshCafe24BatchIssueCounts now (final.visited.map (·.uploadBatchId)).eraseDups
        ⟨store.batches, rematchedLines text rules range store, rowErrors⟩ = _ :=
      refreshCafe24BatchIssueCounts_complete now _ (nodup_eraseDups _) h.batchIds hcomplete
    rw [hrefresh]
    simp only [hmem]
    rfl

/-! ## 5. What the recount changes -/

/-- The number of issues of severity ERROR. -/
def errorIssues (line : Cafe24OrderLine) : Nat :=
  line.validationErrors.countP fun issue => issue.severity = .ERROR

def errorRecords (batchId : Nat) (rowErrors : List Cafe24UploadRowError) : Nat :=
  (errorsOf batchId rowErrors).countP fun error => error.severity = .ERROR

/-- A sum of numbers that are at least the marks is their count exactly when none exceeds it. -/
theorem sum_eq_countP_iff {α : Type} {f : α → Nat} {p : α → Bool} :
    ∀ (l : List α), (∀ x ∈ l, (p x = true → 1 ≤ f x) ∧ (p x = false → f x = 0)) →
      l.countP p ≤ (l.map f).sum ∧ ((l.map f).sum = l.countP p ↔ ∀ x ∈ l, f x ≤ 1)
  | [], _ => ⟨Nat.le_refl 0, iff_of_true rfl fun _ h => (not_mem_nil h).elim⟩
  | x :: l, h => by
    obtain ⟨hle, hiff⟩ := sum_eq_countP_iff l fun y hy => h y (mem_cons_of_mem _ hy)
    obtain ⟨hpos, hzero⟩ := h x mem_cons_self
    rw [map_cons, sum_cons, countP_cons, forall_mem_cons]
    cases hp : p x with
    | true =>
      have h1 := hpos hp
      rw [if_pos rfl]
      refine ⟨by omega, ?_⟩
      rw [← hiff]
      omega
    | false =>
      have h0 := hzero hp
      rw [if_neg Bool.false_ne_true, h0]
      refine ⟨by omega, ?_⟩
      rw [← hiff]
      omega

variable {batch : Cafe24UploadBatch}

/-- The error records of a batch are the ERROR issues of its lines; they are as many as its
    ERROR lines exactly when no line has two. -/
theorem BatchInv.errorRecords_eq_iff (h : BatchInv text rules store batch) :
    (errorRecords batch.id store.rowErrors = batch.errorCount ↔
      ∀ line ∈ linesOf batch.id store.lines, errorIssues line ≤ 1) ∧
    (0 < errorRecords batch.id store.rowErrors ↔ 0 < batch.errorCount) := by
  obtain ⟨unlined, hun, herr⟩ := h.errors
  have hsum : errorRecords batch.id store.rowErrors = ((linesOf batch.id store.lines).map errorIssues).sum := by
    unfold errorRecords
    rw [herr, countP_append, countP_flatMap]
    have h0 : unlined.countP (fun error => decide (error.severity = .ERROR)) = 0 := by
      refine countP_eq_zero.mpr fun error he => ?_
      simp [(hun error he).2]
    rw [h0, Nat.zero_add]
    congr 1
    refine map_congr_left fun line _ => ?_
    unfold lineErrors
    rw [comp_apply, countP_map]
    rfl
  have hmarks : ∀ line ∈ linesOf batch.id store.lines,
      ((!line.accepted) = true → 1 ≤ errorIssues line) ∧ ((!line.accepted) = false → errorIssues line = 0) := by
    intro line hl
    have hsev := (h.lines line hl).severity
    constructor
    · intro hn
      rw [Bool.not_eq_true'] at hn
      have hnot : ¬ ∀ issue ∈ line.validationErrors, issue.severity = .WARNING := by
        rw [← hsev, hn]
        exact Bool.false_ne_true
      push Not at hnot
      obtain ⟨issue, hi, hne⟩ := hnot
      refine countP_pos_iff.mpr ⟨issue, hi, ?_⟩
      cases hs : issue.severity with
      | ERROR => rfl
      | WARNING => exact absurd hs hne
    · intro hn
      rw [Bool.not_eq_false'] at hn
      refine countP_eq_zero.mpr fun issue hi => ?_
      rw [hsev.mp hn issue hi]
      decide
  obtain ⟨hle, hiff⟩ := sum_eq_countP_iff _ hmarks
  rw [hsum, h.errorCount]
  refine ⟨hiff, ?_⟩
  constructor
  · intro hpos
    by_contra hzero
    have hc : (linesOf batch.id store.lines).countP (fun line => !line.accepted) = 0 := by omega
    have hall : ∀ n ∈ (linesOf batch.id store.lines).map errorIssues, n = 0 := by
      intro n hn
      obtain ⟨line, hl, rfl⟩ := mem_map.mp hn
      have := countP_eq_zero.mp hc line hl
      exact (hmarks line hl).2 (by simpa using this)
    rw [sum_eq_zero hall] at hpos
    omega
  · omega

/-- A change of the lines that the recount does not see. -/
structure SameCounts (f : Cafe24OrderLine → Cafe24OrderLine) : Prop where
  batch : ∀ line, (f line).uploadBatchId = line.uploadBatchId
  date : ∀ line, (f line).data.orderDate = line.data.orderDate

/-- **The recount of a batch** whose lines and errors are what they were up to the order of the
    errors: only the error counter can change. -/
theorem BatchInv.refreshedBatch_eq (h : BatchInv text rules store batch) (hvalid : 0 < batch.validRowCount)
    (hf : SameCounts f) (hacc : ∀ line ∈ store.lines, (f line).accepted = line.accepted)
    (hp : rowErrors.Perm store.rowErrors) (now : Nat) :
    refreshedBatch now ⟨[], store.lines.map f, rowErrors⟩ batch =
      { batch with errorCount := errorRecords batch.id store.rowErrors } := by
  have hlines : (store.lines.map f).filter (fun line => line.uploadBatchId = batch.id) =
      (linesOf batch.id store.lines).map f :=
    filter_map_of_keeps fun line _ => by rw [hf.batch]
  have hperm : (rowErrors.filter fun error => error.uploadBatchId = batch.id).Perm
      (errorsOf batch.id store.rowErrors) := hp.filter _
  have hw : (rowErrors.filter fun error => error.uploadBatchId = batch.id).countP
      (fun error => error.severity = .WARNING) = batch.warningCount := by
    rw [hperm.countP_eq, h.warningCount]
  have he : (rowErrors.filter fun error => error.uploadBatchId = batch.id).countP
      (fun error => error.severity = .ERROR) = errorRecords batch.id store.rowErrors :=
    hperm.countP_eq _
  have hv : ((linesOf batch.id store.lines).map f).countP (·.accepted) = batch.validRowCount := by
    rw [h.validRowCount, countP_map]
    refine countP_congr fun line hl => ?_
    rw [comp_apply, hacc line (mem_linesOf.mp hl).1]
  have hd : ((linesOf batch.id store.lines).map f).filterMap (·.data.orderDate) =
      (linesOf batch.id store.lines).filterMap (·.data.orderDate) := by
    rw [filterMap_map]
    refine filterMap_congr fun line _ => ?_
    rw [comp_apply, hf.date]
  have hcomplete : isCompleteCafe24UploadBatch batch.rowCount
      ((linesOf batch.id store.lines).map f).length = true := by
    rw [h.rowCount]
    simp [isCompleteCafe24UploadBatch]
  have himported : batch.importedAt.isSome = true := by
    rw [h.importedAt]
    exact decide_eq_true hvalid
  have hpos := h.errorRecords_eq_iff.2
  have hstatus : batch.status =
      if errorRecords batch.id store.rowErrors > 0 ∧ batch.validRowCount > 0 then .PARTIAL
      else if errorRecords batch.id store.rowErrors > 0 then .FAILED else .IMPORTED := by
    rw [h.status]
    simp only [hpos]
  obtain ⟨time, htime⟩ := Option.isSome_iff_exists.mp himported
  unfold refreshedBatch
  simp only [hlines, hw, he, hv, hd, hcomplete, Bool.not_true, Bool.false_eq_true, false_and, if_false,
    ← h.orderStart, ← h.orderEnd, hvalid, and_self, if_true, htime, Option.getD_some]
  rw [hstatus]
  simp only [hvalid]

/-! ## 6. Matching again with the rules of the import -/

theorem nonMatchIssues_nonMatchIssues (issues : List RowIssue) :
    nonMatchIssues (nonMatchIssues issues) = nonMatchIssues issues := by
  unfold nonMatchIssues
  rw [filter_filter]
  simp only [Bool.and_self]

/-- A line that was matched again stays as it is. -/
theorem writeRematch_writeRematch (text : TextLocale) (rules : List Cafe24RuleInput)
    (line : Cafe24OrderLine) :
    writeRematch text rules (writeRematch text rules line line) (writeRematch text rules line line) =
      writeRematch text rules line line := by
  have hmatch : lineMatch text rules (writeRematch text rules line line) = lineMatch text rules line := rfl
  have hissues : nonMatchIssues (writeRematch text rules line line).validationErrors =
      nonMatchIssues line.validationErrors := by
    show nonMatchIssues (nonMatchIssues line.validationErrors ++ matchWarnings _) = _
    rw [nonMatchIssues_append, nonMatchIssues_nonMatchIssues, nonMatchIssues_matchWarnings, append_nil]
  rw [writeRematch, hissues]
  rfl

/-- A line after a rematch of the store. -/
def rematchedLine (text : TextLocale) (rules : List Cafe24RuleInput) (range : DateRange)
    (store : Cafe24Store) (line : Cafe24OrderLine) : Cafe24OrderLine :=
  if isVisited range store line then writeRematch text rules line line else line

theorem sameCounts_rematchedLine : SameCounts (rematchedLine text rules range store) where
  batch line := by unfold rematchedLine; split <;> rfl
  date line := by unfold rematchedLine; split <;> rfl

theorem accepted_of_isVisited (h : isVisited range store line = true) : line.accepted = true := by
  unfold isVisited isRematchCandidate at h
  rw [Bool.and_eq_true] at h
  exact h.2

theorem accepted_rematchedLine (line : Cafe24OrderLine) :
    (rematchedLine text rules range store line).accepted = line.accepted := by
  unfold rematchedLine
  split
  · next hv => rw [accepted_writeRematch, accepted_of_isVisited hv]
  · rfl

/-- The columns of a line apart from the order of its issues. -/
def matchColumns (line : Cafe24OrderLine) : Cafe24OrderLine := { line with validationErrors := [] }

/-- A rematch has changed nothing: not the lines, up to the order of their issues, not the error
    records, up to their order, and not the batches. -/
structure RematchUnchanged (store final : Cafe24Store) : Prop where
  lines : final.lines.map matchColumns = store.lines.map matchColumns
  issues : Forall₂ (fun a b : Cafe24OrderLine => a.validationErrors.Perm b.validationErrors)
    final.lines store.lines
  rowErrors : final.rowErrors.Perm store.rowErrors
  batches : final.batches = store.batches

/-- The rules are those every line of the run was imported with. -/
def RulesUnchanged (range : DateRange) (rules : List Cafe24RuleInput)
    (rulesAt : Nat → List Cafe24RuleInput) (store : Cafe24Store) : Prop :=
  ∀ line ∈ store.lines, isVisited range store line = true → rulesAt line.uploadBatchId = rules

/-- No row of a batch the rematch recounts has more than one error. -/
def OneErrorPerRow (range : DateRange) (store : Cafe24Store) : Prop :=
  ∀ line ∈ store.lines, line.uploadBatchId ∈ visitedBatches range store → errorIssues line ≤ 1

instance (range : DateRange) (store : Cafe24Store) : Decidable (OneErrorPerRow range store) :=
  inferInstanceAs (Decidable (∀ line ∈ store.lines,
    line.uploadBatchId ∈ visitedBatches range store → errorIssues line ≤ 1))

section

variable (h : StoreInv text rulesAt store) (hrules : RulesUnchanged range rules rulesAt store)
include h hrules

/-- A line of the run and its batch. -/
theorem StoreInv.lineInv_of_visited (hl : line ∈ store.lines)
    (hv : isVisited range store line = true) : LineInv text rules line := by
  obtain ⟨batch, hb, hid⟩ := h.owner line hl
  have hmem : line ∈ linesOf batch.id store.lines := mem_linesOf.mpr ⟨hl, hid.symm⟩
  have hline := (h.batches batch hb (ne_nil_of_mem hmem)).lines line hmem
  rwa [hid, hrules line hl hv] at hline

theorem StoreInv.rematchReady : RematchReady text rules range store where
  lineIds := h.lines.ids
  batchIds := h.batchIds
  errors := by
    intro line hl hv
    rw [← hrules line hl hv]
    exact h.errorsMatch hl (accepted_of_isVisited hv)

end

/-- A batch of the run: its invariant, and that it has an accepted line. -/
theorem StoreInv.batchInv_of_visited (h : StoreInv text rulesAt store) (hb : batch ∈ store.batches)
    (hv : batch.id ∈ visitedBatches range store) :
    BatchInv text (rulesAt batch.id) store batch ∧ 0 < batch.validRowCount := by
  obtain ⟨line, hl, hid⟩ := mem_map.mp hv
  obtain ⟨hl, hv⟩ := mem_filter.mp hl
  have hmem : line ∈ linesOf batch.id store.lines := mem_linesOf.mpr ⟨hl, hid⟩
  have hinv := h.batches batch hb (ne_nil_of_mem hmem)
  refine ⟨hinv, ?_⟩
  rw [hinv.validRowCount]
  exact countP_pos_iff.mpr ⟨line, hmem, accepted_of_isVisited hv⟩

/-- The batch with its errors counted by record. -/
def recounted (range : DateRange) (store : Cafe24Store) (batch : Cafe24UploadBatch) : Cafe24UploadBatch :=
  if batch.id ∈ visitedBatches range store then
    { batch with errorCount := errorRecords batch.id store.rowErrors }
  else batch

/-- **The first run**: lines up to the order of issues, errors up to order, batches recounted. -/
theorem StoreInv.rematch_eq (h : StoreInv text rulesAt store)
    (hrules : RulesUnchanged range rules rulesAt store) (take : Nat) (htake : 1 ≤ take)
    (hfuel : store.lines.length < fuel) (now : Nat) :
    ∃ rowErrors counts, rowErrors.Perm store.rowErrors ∧
      rematchCafe24Lines text rules range take fuel now store =
        some (⟨store.batches.map (recounted range store),
          store.lines.map (rematchedLine text rules range store), rowErrors⟩, counts) := by
  obtain ⟨rowErrors, counts, hp, e⟩ := rematchCafe24Lines_eq (h.rematchReady hrules) htake hfuel now
  refine ⟨rowErrors, counts, hp, e.trans ?_⟩
  have hbatches : (store.batches.map fun batch =>
      if batch.id ∈ visitedBatches range store then
        refreshedBatch now ⟨[], rematchedLines text rules range store, rowErrors⟩ batch else batch) =
      store.batches.map (recounted range store) := by
    refine map_congr_left fun batch hb => ?_
    unfold recounted
    by_cases hv : batch.id ∈ visitedBatches range store
    · obtain ⟨hinv, hvalid⟩ := h.batchInv_of_visited hb hv
      rw [if_pos hv, if_pos hv]
      exact hinv.refreshedBatch_eq hvalid sameCounts_rematchedLine
        (fun line _ => accepted_rematchedLine line) hp now
    · rw [if_neg hv, if_neg hv]
  rw [hbatches]
  rfl

/-- The rematch of a store visits the lines it visited. -/
theorem isVisited_rematched (rowErrors : List Cafe24UploadRowError) (line : Cafe24OrderLine) :
    isVisited range ⟨store.batches.map (recounted range store),
      store.lines.map (rematchedLine text rules range store), rowErrors⟩
      (rematchedLine text rules range store line) = isVisited range store line := by
  have hcol : ∀ batch, (recounted range store batch).id = batch.id ∧
      (recounted range store batch).status = batch.status ∧
      (recounted range store batch).rowCount = batch.rowCount ∧
      (recounted range store batch).orderStart = batch.orderStart ∧
      (recounted range store batch).orderEnd = batch.orderEnd := by
    intro batch
    unfold recounted
    split <;> exact ⟨rfl, rfl, rfl, rfl, rfl⟩
  have hids : completeCafe24BatchIds range ⟨store.batches.map (recounted range store),
      store.lines.map (rematchedLine text rules range store), rowErrors⟩ =
      completeCafe24BatchIds range store := by
    unfold completeCafe24BatchIds
    simp only [filter_map, map_map, comp_def, hcol,
      storedRowCount_map sameCounts_rematchedLine.batch]
  unfold isVisited
  rw [hids]
  unfold isRematchCandidate
  rw [accepted_rematchedLine, sameCounts_rematchedLine.batch, sameCounts_rematchedLine.date]
  congr 3
  unfold rematchedLine
  split <;> rfl

section

variable (h : StoreInv text rulesAt store) (hrules : RulesUnchanged range rules rulesAt store)
  (hp : rowErrors.Perm store.rowErrors)
include h hrules hp

/-- The lines of a rematch are ready for another one. -/
theorem StoreInv.rematchReady_again :
    RematchReady text rules range ⟨store.batches.map (recounted range store),
      store.lines.map (rematchedLine text rules range store), rowErrors⟩ := by
  have hready := h.rematchReady hrules
  refine ⟨?_, ?_, ?_⟩
  · rw [map_map]
    refine (map_congr_left fun line _ => ?_) ▸ h.lines.ids
    simp only [comp_apply, rematchedLine]
    split <;> rfl
  · rw [map_map]
    refine (map_congr_left fun batch _ => ?_) ▸ h.batchIds
    simp only [comp_apply, recounted]
    split <;> rfl
  · intro line' hl hv
    obtain ⟨line, hm, rfl⟩ := mem_map.mp hl
    rw [isVisited_rematched] at hv
    have herr := (hready.errors line hm hv).of_perm hp
    unfold rematchedLine
    rw [if_pos hv]
    exact herr

/-- **A second run changes nothing.** -/
theorem StoreInv.rematch_again (htake : 1 ≤ take) (hfuel : store.lines.length < fuel) (now : Nat) :
    ∃ again counts, rematchCafe24Lines text rules range take fuel now
        ⟨store.batches.map (recounted range store),
          store.lines.map (rematchedLine text rules range store), rowErrors⟩ = some (again, counts) ∧
      again.lines = store.lines.map (rematchedLine text rules range store) ∧
      again.rowErrors.Perm rowErrors ∧ again.batches = store.batches.map (recounted range store) := by
  obtain ⟨rowErrors', counts, hp', e⟩ := rematchCafe24Lines_eq (h.rematchReady_again hrules hp) htake
    (by rw [length_map]; exact hfuel) now
  have hlines : rematchedLines text rules range ⟨store.batches.map (recounted range store),
      store.lines.map (rematchedLine text rules range store), rowErrors⟩ =
      store.lines.map (rematchedLine text rules range store) := by
    unfold rematchedLines
    rw [map_map]
    refine map_congr_left fun line _ => ?_
    simp only [comp_apply, isVisited_rematched]
    unfold rematchedLine
    by_cases hv : isVisited range store line = true
    · rw [if_pos hv, if_pos hv, writeRematch_writeRematch]
    · rw [if_neg hv]
  have hvisited : visitedBatches range ⟨store.batches.map (recounted range store),
      store.lines.map (rematchedLine text rules range store), rowErrors⟩ = visitedBatches range store := by
    unfold visitedBatches
    simp only [filter_map, map_map, comp_def, isVisited_rematched, sameCounts_rematchedLine.batch]
  refine ⟨_, counts, e, hlines, hp', ?_⟩
  rw [hlines, hvisited, map_map]
  refine map_congr_left fun batch hb => ?_
  simp only [comp_apply]
  by_cases hv : batch.id ∈ visitedBatches range store
  · obtain ⟨hinv, hvalid⟩ := h.batchInv_of_visited hb hv
    have hrec : recounted range store batch =
        { batch with errorCount := errorRecords batch.id store.rowErrors } := by
      unfold recounted
      rw [if_pos hv]
    rw [hrec, if_pos hv]
    -- the old error counter is not read
    exact hinv.refreshedBatch_eq hvalid sameCounts_rematchedLine
      (fun line _ => accepted_rematchedLine line) (hp'.trans hp) now
  · have hrec : recounted range store batch = batch := by
      unfold recounted
      rw [if_neg hv]
    rw [hrec, if_neg hv]

end

/-- The recount leaves the batches exactly when no row of theirs has two errors. -/
theorem StoreInv.map_recounted_eq_iff (h : StoreInv text rulesAt store) :
    store.batches.map (recounted range store) = store.batches ↔ OneErrorPerRow range store := by
  have hiff : store.batches.map (recounted range store) = store.batches ↔
      ∀ batch ∈ store.batches, recounted range store batch = batch := by
    conv_lhs => rw [← map_id store.batches, map_map, map_inj_left]
    rfl
  have hone : ∀ batch ∈ store.batches, batch.id ∈ visitedBatches range store →
      (recounted range store batch = batch ↔
        ∀ line ∈ linesOf batch.id store.lines, errorIssues line ≤ 1) := by
    intro batch hb hv
    rw [← ((h.batchInv_of_visited hb hv).1.errorRecords_eq_iff).1]
    unfold recounted
    rw [if_pos hv]
    constructor
    · exact fun e => congrArg Cafe24UploadBatch.errorCount e
    · exact fun e => by rw [e]
  rw [hiff]
  constructor
  · intro hall line hl hv
    obtain ⟨batch, hb, hid⟩ := h.owner line hl
    rw [← hid] at hv
    exact (hone batch hb hv).mp (hall batch hb) line (mem_linesOf.mpr ⟨hl, hid.symm⟩)
  · intro hall batch hb
    by_cases hv : batch.id ∈ visitedBatches range store
    · refine (hone batch hb hv).mpr fun line hl => ?_
      obtain ⟨hl, hid⟩ := mem_linesOf.mp hl
      exact hall line hl (by rw [hid]; exact hv)
    · unfold recounted
      rw [if_neg hv]

/-- **Matching again with unchanged rules.** From every reachable store, for every date range and
    page size, the rematch ends; it leaves every line, error record and batch as it was exactly
    when no row of a batch it recounts has more than one error. A second rematch changes nothing. -/
theorem rematch_unchanged_iff (h : Reachable text store rulesAt) (rules : List Cafe24RuleInput)
    (range : DateRange) (hrules : RulesUnchanged range rules rulesAt store) (take : Nat)
    (htake : 1 ≤ take) (now : Nat) :
    ∃ enough, ∀ fuel, enough ≤ fuel → ∃ final counts,
      rematchCafe24Lines text rules range take fuel now store = some (final, counts) ∧
      (RematchUnchanged store final ↔ OneErrorPerRow range store) ∧
      ∃ again counts', rematchCafe24Lines text rules range take fuel now final = some (again, counts') ∧
        RematchUnchanged final again := by
  have hinv := h.inv
  refine ⟨store.lines.length + 1, fun fuel hfuel => ?_⟩
  obtain ⟨rowErrors, counts, hp, e⟩ := hinv.rematch_eq hrules take htake (Nat.lt_of_succ_le hfuel) now
  obtain ⟨again, counts', e', hl', hp', hb'⟩ := hinv.rematch_again hrules hp htake
    (Nat.lt_of_succ_le hfuel) now
  refine ⟨_, counts, e, ?_, again, counts', e', ?_⟩
  · have hline : ∀ line ∈ store.lines, matchColumns (rematchedLine text rules range store line) =
        matchColumns line ∧ (rematchedLine text rules range store line).validationErrors.Perm
          line.validationErrors := by
      intro line hl
      unfold rematchedLine
      by_cases hv : isVisited range store line = true
      · have hinv' := hinv.lineInv_of_visited hrules hl hv
        have ha := accepted_of_isVisited hv
        rw [if_pos hv, hinv'.rematched ha]
        exact ⟨rfl, (hinv'.issues ha).symm⟩
      · rw [if_neg hv]
        exact ⟨rfl, Perm.refl _⟩
    constructor
    · exact fun hu => hinv.map_recounted_eq_iff.mp hu.batches
    · intro hone
      refine ⟨?_, ?_, hp, hinv.map_recounted_eq_iff.mpr hone⟩
      · rw [map_map]
        exact map_congr_left fun line hl => (hline line hl).1
      · rw [forall₂_map_left_iff, forall₂_same]
        exact fun line hl => (hline line hl).2
  · refine ⟨?_, ?_, hp', hb'⟩
    · rw [hl']
    · rw [hl']
      exact forall₂_same.mpr fun line _ => Perm.refl _

/-! ### A row with two errors -/

/-- The day of the sample rows. -/
def sampleRange : DateRange := ⟨20454, 20454⟩

/-- With one error at most in a row, a rematch changes nothing. -/
theorem rematch_unchanged_importedOnce :
    visitedBatches sampleRange importedOnce = [1] ∧
    ∃ enough, ∀ fuel, enough ≤ fuel → ∃ final counts,
      rematchCafe24Lines plainText [] sampleRange 1000 fuel 9 importedOnce = some (final, counts) ∧
      RematchUnchanged importedOnce final := by
  refine ⟨by decide +kernel, ?_⟩
  obtain ⟨enough, h⟩ := rematch_unchanged_iff reachable_importedOnce [] sampleRange
    (fun line _ _ => by simp) 1000 (by decide) 9
  refine ⟨enough, fun fuel hfuel => ?_⟩
  obtain ⟨final, counts, e, hiff, -⟩ := h fuel hfuel
  exact ⟨final, counts, e, hiff.mpr (by decide +kernel)⟩

/-- A file whose second row has neither an order number nor a line order number. -/
def twoErrorFile : Cafe24File where
  hash := "two"
  headers := CAFE24_ORDER_REQUIRED_KEYS.map (·.name)
  rows := [orderRow "20260101-1-01" "1000" "card",
    ("주문번호", "") :: (orderRow "" "1000" "card").tail]

def twoErrorEnv : ImportEnv := { numberedEnv 1 with stamps := [⟨1, 1⟩, ⟨2, 1⟩] }

def twoErrorStore : Cafe24Store := importCafe24Csv twoErrorEnv [] .SKIP twoErrorFile ⟨[], [], []⟩

theorem reachable_twoErrorStore :
    Reachable plainText twoErrorStore (update (fun _ => []) 1 []) :=
  (Reachable.start _).imported twoErrorEnv [] .SKIP twoErrorFile rfl
    ⟨by decide, ⟨by decide, by decide⟩, rfl⟩

/-- **A row with two errors is counted twice**: the import says one error, the rematch two. -/
theorem rematch_changes_errorCount :
    ¬ ∀ (text : TextLocale) (store : Cafe24Store) (rulesAt : Nat → List Cafe24RuleInput),
      Reachable text store rulesAt → ∀ (rules : List Cafe24RuleInput) (range : DateRange),
        RulesUnchanged range rules rulesAt store → ∀ take, 1 ≤ take → ∀ now,
          ∃ enough, ∀ fuel, enough ≤ fuel → ∃ final counts,
            rematchCafe24Lines text rules range take fuel now store = some (final, counts) ∧
              RematchUnchanged store final := by
  intro hall
  have hrules : RulesUnchanged sampleRange [] (update (fun _ => []) 1 []) twoErrorStore :=
    fun line _ _ => by simp
  have hinv := reachable_twoErrorStore.inv
  obtain ⟨enough, h⟩ := hall plainText twoErrorStore _ reachable_twoErrorStore [] sampleRange hrules
    1000 (by decide) 9
  obtain ⟨final, counts, e, hu⟩ := h (enough + twoErrorStore.lines.length + 1) (by omega)
  obtain ⟨rowErrors, counts', -, e'⟩ := hinv.rematch_eq hrules 1000 (by decide)
    (show twoErrorStore.lines.length < enough + twoErrorStore.lines.length + 1 by omega) 9
  obtain ⟨rfl, -⟩ := Prod.mk.inj (Option.some.inj (e.symm.trans e'))
  have hone := hinv.map_recounted_eq_iff.mp hu.batches
  revert hone
  decide +kernel

end AdsManagement.Cafe24
