/-
  File:      Cafe24/UploadInvariant.lean
  Subject:   WHAT EVERY RUN KEEPS: every order line key has at most one current line, and every
             batch with lines says of them what can be counted.

  The facts about a batch do not read the flags of its lines, so a re-election leaves them.
  Which rules the lines of a batch were matched with is kept beside the store (`rulesAt`).

  * `BatchInv` -- counters, error records and match columns of a batch;
  * `StoreInv.importCafe24Csv`, `StoreInv.deleteUpload` -- the operations keep the invariant;
  * `Reachable.inv` -- so does every run.
-/
import AdsManagement.Cafe24.SavedRows
import AdsManagement.Cafe24.Reelection

namespace AdsManagement.Cafe24

open Common Lib Coupang List Function

/-! ## 1. The lines and errors of a batch -/

def linesOf (batchId : Nat) (lines : List Cafe24OrderLine) : List Cafe24OrderLine :=
  lines.filter fun line => line.uploadBatchId = batchId

def errorsOf (batchId : Nat) (rowErrors : List Cafe24UploadRowError) : List Cafe24UploadRowError :=
  rowErrors.filter fun error => error.uploadBatchId = batchId

/-- The error records of a line: one for each entry of its `validationErrors`. -/
def lineErrors (line : Cafe24OrderLine) : List Cafe24UploadRowError :=
  line.validationErrors.map (rowErrorOf line.uploadBatchId line.id line.rowNumber)

/-- A line is as its rules left it: matching it again only moves the match warnings to the end
    of its issues; and it is an ERROR line exactly when it has an issue of that severity. -/
structure LineInv (text : TextLocale) (rules : List Cafe24RuleInput) (line : Cafe24OrderLine) : Prop where
  rematched : line.accepted = true → writeRematch text rules line line =
    { line with validationErrors :=
        nonMatchIssues line.validationErrors ++ matchWarnings (lineMatch text rules line) }
  issues : line.accepted = true → line.validationErrors.Perm
    (nonMatchIssues line.validationErrors ++ matchWarnings (lineMatch text rules line))
  severity : line.accepted = true ↔ ∀ issue ∈ line.validationErrors, issue.severity = .WARNING

/-- What a batch with lines says about them. -/
structure BatchInv (text : TextLocale) (rules : List Cafe24RuleInput) (store : Cafe24Store)
    (batch : Cafe24UploadBatch) : Prop where
  rowCount : batch.rowCount = (linesOf batch.id store.lines).length
  validRowCount : batch.validRowCount = (linesOf batch.id store.lines).countP (·.accepted)
  errorCount : batch.errorCount = (linesOf batch.id store.lines).countP fun line => !line.accepted
  errors : ∃ unlined, (∀ error ∈ unlined, error.orderLineId = none ∧ error.severity = .WARNING) ∧
    errorsOf batch.id store.rowErrors = unlined ++ (linesOf batch.id store.lines).flatMap lineErrors
  warningCount : batch.warningCount =
    (errorsOf batch.id store.rowErrors).countP fun error => error.severity = .WARNING
  status : batch.status =
    if batch.errorCount > 0 ∧ batch.validRowCount > 0 then .PARTIAL
    else if batch.errorCount > 0 then .FAILED else .IMPORTED
  orderStart : batch.orderStart = minOf ((linesOf batch.id store.lines).filterMap (·.data.orderDate))
  orderEnd : batch.orderEnd = maxOf ((linesOf batch.id store.lines).filterMap (·.data.orderDate))
  importedAt : batch.importedAt.isSome = decide (0 < batch.validRowCount)
  lines : ∀ line ∈ linesOf batch.id store.lines, LineInv text rules line

/-- The invariant of the store. `rulesAt` says with which rules a batch was imported. -/
structure StoreInv (text : TextLocale) (rulesAt : Nat → List Cafe24RuleInput) (store : Cafe24Store) :
    Prop where
  lines : TableInv store.lines
  batchIds : (store.batches.map (·.id)).Nodup
  owner : ∀ line ∈ store.lines, ∃ batch ∈ store.batches, batch.id = line.uploadBatchId
  errorOwner : ∀ error ∈ store.rowErrors, ∃ batch ∈ store.batches, batch.id = error.uploadBatchId
  errorLine : ∀ error ∈ store.rowErrors, ∀ i, error.orderLineId = some i →
    ∃ line ∈ store.lines, line.id = i ∧ line.uploadBatchId = error.uploadBatchId
  batches : ∀ batch ∈ store.batches, linesOf batch.id store.lines ≠ [] →
    BatchInv text (rulesAt batch.id) store batch

variable {text : TextLocale} {rules : List Cafe24RuleInput} {store : Cafe24Store}
  {rulesAt : Nat → List Cafe24RuleInput}

/-! ## 2. The flags play no part -/

variable {line : Cafe24OrderLine}

theorem LineInv.of_clear {other : Cafe24OrderLine} (h : LineInv text rules line)
    (e : line.clear = other.clear) : LineInv text rules other := by
  have hother : other = { line with isCurrent := other.isCurrent } := by
    have : other = { other.clear with isCurrent := other.isCurrent } := rfl
    rw [this, ← e]
    rfl
  rw [hother]
  exact ⟨fun ha => congrArg (fun l : Cafe24OrderLine => { l with isCurrent := other.isCurrent })
    (h.rematched ha), h.issues, h.severity⟩

theorem accepted_clear (line : Cafe24OrderLine) : line.clear.accepted = line.accepted := rfl

theorem lineErrors_clear (line : Cafe24OrderLine) : lineErrors line.clear = lineErrors line := rfl

variable {lines : List Cafe24OrderLine}

/-- A fact about the lines up to their flags. -/
theorem countP_accepted_of_clear {lines' : List Cafe24OrderLine}
    (h : lines.map StoredRow.clear = lines'.map StoredRow.clear) (p : Bool → Bool) :
    lines.countP (fun line => p line.accepted) = lines'.countP fun line => p line.accepted := by
  have hc : ∀ l : List Cafe24OrderLine, l.countP (fun line => p line.accepted) =
      (l.map StoredRow.clear).countP fun line => p line.accepted := by
    intro l
    rw [countP_map]
    rfl
  exact (hc lines).trans ((congrArg _ h).trans (hc lines').symm)

variable {batch : Cafe24UploadBatch}

/-- Two stores that give a batch the same lines up to flags, and the same errors. -/
theorem BatchInv.congr {store' : Cafe24Store} (h : BatchInv text rules store batch)
    (hl : (linesOf batch.id store'.lines).map StoredRow.clear =
      (linesOf batch.id store.lines).map StoredRow.clear)
    (he : errorsOf batch.id store'.rowErrors = errorsOf batch.id store.rowErrors) :
    BatchInv text rules store' batch := by
  have hdates : ∀ l : List Cafe24OrderLine, l.filterMap (·.data.orderDate) =
      (l.map StoredRow.clear).filterMap (·.data.orderDate) := by
    intro l
    rw [filterMap_map]
    rfl
  have herrs : ∀ l : List Cafe24OrderLine, l.flatMap lineErrors =
      (l.map StoredRow.clear).flatMap lineErrors := by
    intro l
    rw [flatMap_map]
    rfl
  refine ⟨?_, ?_, ?_, ?_, ?_, h.status, ?_, ?_, h.importedAt, ?_⟩
  · rw [h.rowCount, ← length_map, ← hl, length_map]
  · rw [h.validRowCount]
    exact countP_accepted_of_clear hl.symm id
  · rw [h.errorCount]
    exact countP_accepted_of_clear hl.symm not
  · obtain ⟨unlined, hu, e⟩ := h.errors
    refine ⟨unlined, hu, ?_⟩
    rw [he, e, herrs, ← hl, ← herrs]
  · rw [h.warningCount, he]
  · rw [h.orderStart, hdates, ← hl, ← hdates]
  · rw [h.orderEnd, hdates, ← hl, ← hdates]
  · intro line hline
    have hm : line.clear ∈ (linesOf batch.id store.lines).map StoredRow.clear := by
      rw [← hl]
      exact mem_map_of_mem hline
    obtain ⟨other, ho, e⟩ := mem_map.mp hm
    exact (h.lines other ho).of_clear e

variable {batches : List Cafe24UploadBatch}

/-- A batch is found by its id. -/
theorem find?_batch (hnd : (batches.map (·.id)).Nodup) (hb : batch ∈ batches) {i : Nat} (hi : batch.id = i) :
    batches.find? (fun b => b.id = i) = some batch := by
  cases hf : batches.find? fun b => b.id = i with
  | none =>
    rw [find?_eq_none] at hf
    exact absurd hi (by simpa using hf batch hb)
  | some other =>
    have hid := find?_some hf
    simp only [decide_eq_true_eq] at hid
    rw [inj_on_of_nodup_map hnd (mem_of_find?_eq_some hf) hb (hid.trans hi.symm)]

/-- Every accepted line belongs to a usable batch. -/
theorem StoreInv.allUsable (h : StoreInv text rulesAt store) : AllUsable store.batches store.lines := by
  intro line hl ha
  obtain ⟨batch, hb, hid⟩ := h.owner line hl
  have hmem : line ∈ linesOf batch.id store.lines := mem_filter.mpr ⟨hl, by simp [hid]⟩
  have hinv := h.batches batch hb (ne_nil_of_mem hmem)
  have hvalid : 0 < batch.validRowCount := by
    rw [hinv.validRowCount]
    exact countP_pos_iff.mpr ⟨line, hmem, ha⟩
  have hfind : store.batches.find? (fun b => b.id = line.uploadBatchId) = some batch :=
    find?_batch h.batchIds hb hid
  unfold usableBatch
  rw [hfind]
  have hcount : storedRowCount store.lines line.uploadBatchId = (linesOf batch.id store.lines).length := by
    unfold storedRowCount linesOf
    rw [countP_eq_length_filter, hid]
  simp only [Option.any_some, isUsableCafe24UploadBatch, isCompleteCafe24UploadBatch, hcount,
    hinv.rowCount, hinv.status]
  by_cases he : batch.errorCount > 0
  · simp [he, hvalid]
  · simp [he]

/-! ## 3. A line as it is imported -/

theorem severity_matchWarnings (result : Cafe24MatchResult) :
    ∀ issue ∈ matchWarnings result, issue.severity = .WARNING := by
  unfold matchWarnings
  intro issue hi
  split at hi
  · cases hi
  · rw [mem_singleton.mp hi]; rfl
  · rw [mem_singleton.mp hi]; rfl

theorem nonMatchIssues_append (l m : List RowIssue) :
    nonMatchIssues (l ++ m) = nonMatchIssues l ++ nonMatchIssues m := filter_append l m

theorem nonMatchIssues_matchWarnings (result : Cafe24MatchResult) :
    nonMatchIssues (matchWarnings result) = [] := by
  unfold matchWarnings
  split <;> rfl

/-- A match names the product of a rule. -/
theorem isTruthy_matchLine {row : Cafe24MatchInput} (h : (matchLine text rules row).reason = .MATCHED) :
    isTruthy (matchLine text rules row).productId = true := by
  unfold matchLine at h ⊢
  dsimp only at h ⊢
  split at h
  · cases h
  · next rule _ => exact bne_iff_ne.mpr rule.hasProduct
  · cases h

/-- What the loop knows of a row it saves. -/
structure IsPrepared (text : TextLocale) (rules : List Cafe24RuleInput) (row : PreparedRow) : Prop where
  clean : IsClean row.orderLineKey
  severity : ∀ issue ∈ row.issues, issue.severity = .ERROR
  parsed : row.parsedRow.isSome = true ↔ row.issues = []
  matched : row.matched = row.parsedRow.map fun parsed =>
    matchLine text rules ⟨parsed.productNo, parsed.productName, parsed.optionName, parsed.orderDate⟩
  warnings : ∃ repeated, row.warnings = repeated ++ (row.matched.map matchWarnings).getD [] ∧
    nonMatchIssues repeated = repeated ∧ ∀ issue ∈ repeated, issue.severity = .WARNING
  productId : row.productId = (row.matched.filter fun r => r.reason = .MATCHED).bind (·.productId)
  ruleId : row.cafe24ProductRuleId = (row.matched.filter fun r => r.reason = .MATCHED).bind (·.matchRuleId)
  source : row.matchSource =
    if (row.matched.filter fun r => r.reason = .MATCHED).isSome then .RULE else .UNMATCHED
  status : row.validationStatus = rowStatus row.issues row.warnings row.productId

theorem isPrepared_prepareRow (text : TextLocale) (hash : RecordHash) (rules : List Cafe24RuleInput)
    (duplicateKeys : List String) (rowNumber : Nat) (rawRow : RawRow) :
    IsPrepared text rules (prepareRow text hash rules duplicateKeys rowNumber rawRow) := by
  have hparsed := parseRow_parsedRow_iff rawRow
  have hclean := isClean_effectiveCafe24OrderLineKey (parseRow rawRow).parsedRow rawRow
  unfold prepareRow
  generalize parseRow rawRow = parsed at hparsed hclean ⊢
  dsimp only
  generalize effectiveCafe24OrderLineKey parsed.parsedRow rawRow = key at hclean ⊢
  refine ⟨hclean, ?_, ?_, rfl,
    ⟨if duplicateKeys.contains key then [duplicateKeyWarning key] else [], rfl, ?_, ?_⟩,
    rfl, rfl, rfl, rfl⟩
  · intro issue hi
    obtain ⟨parse, -, rfl⟩ := mem_map.mp hi
    rfl
  · exact hparsed.trans map_eq_nil_iff.symm
  · split <;> rfl
  · intro issue hi
    split at hi
    · rw [mem_singleton.mp hi]; rfl
    · cases hi

variable {row : PreparedRow}

theorem IsPrepared.status_error_iff (h : IsPrepared text rules row) :
    row.validationStatus = .ERROR ↔ row.issues ≠ [] := by
  rw [h.status]
  unfold rowStatus
  cases row.issues with
  | cons issue issues => simp
  | nil =>
    simp only [length_nil, lt_self_iff_false, if_false]
    split
    · split <;> decide
    · split <;> decide

/-- The warnings of a row are warnings. -/
theorem IsPrepared.severity_warnings (h : IsPrepared text rules row) :
    ∀ issue ∈ row.warnings, issue.severity = .WARNING := by
  obtain ⟨repeated, e, -, hs⟩ := h.warnings
  intro issue hi
  rw [e] at hi
  rcases mem_append.mp hi with hi | hi
  · exact hs issue hi
  · cases hm : row.matched with
    | none => rw [hm] at hi; cases hi
    | some result => rw [hm] at hi; exact severity_matchWarnings result issue hi

/-- The columns of the line a row is saved as. -/
structure SavedAs (row : PreparedRow) (policyWarnings : List RowIssue) (line : Cafe24OrderLine) : Prop where
  key : line.logicalKey = row.orderLineKey
  number : line.rowNumber = row.rowNumber
  issues : line.validationErrors = row.issues ++ row.warnings ++ policyWarnings
  data : line.data = lineData row
  status : line.validationStatus =
    if policyWarnings.length > 0 ∧ row.validationStatus = .VALID then .WARNING else row.validationStatus
  policy : policyWarnings = [] ∨ policyWarnings = [alreadyCurrentWarning row.orderLineKey]

theorem savedAs_saveCafe24OrderLine (policy : ConflictPolicy) (batchId : Nat) (bulk : Bool)
    (lines : List Cafe24OrderLine) (stamp : Stamp) (row : PreparedRow) :
    SavedAs row (saveCafe24OrderLine policy batchId bulk lines stamp row).policyWarnings
      (saveCafe24OrderLine policy batchId bulk lines stamp row).line := by
  unfold saveCafe24OrderLine
  dsimp only
  refine ⟨rfl, rfl, rfl, rfl, rfl, ?_⟩
  generalize (resolveCafe24LineImportDecision policy _).skippedDuplicate = skipped
  cases skipped with
  | false => exact .inl rfl
  | true => exact .inr rfl

variable {policyWarnings : List RowIssue}

section

variable (h : SavedAs row policyWarnings line)
include h

theorem SavedAs.nonMatchIssues_policy : nonMatchIssues policyWarnings = policyWarnings := by
  rcases h.policy with e | e
  · rw [e]; rfl
  · rw [e]; rfl

theorem SavedAs.accepted_iff (hrow : IsPrepared text rules row) :
    line.accepted = true ↔ row.issues = [] := by
  rw [Coupang.accepted_iff, h.status, ← not_iff_not, not_not, ← ne_eq, ← hrow.status_error_iff]
  by_cases hv : row.validationStatus = .VALID
  · rw [hv]
    refine iff_of_false (fun e => ?_) (by decide)
    split at e <;> cases e
  · rw [if_neg fun hc => hv hc.2]

theorem SavedAs.severity_policy : ∀ issue ∈ policyWarnings, issue.severity = .WARNING := by
  intro issue hi
  rcases h.policy with e | e
  · rw [e] at hi; cases hi
  · rw [e] at hi; rw [mem_singleton.mp hi]; rfl

end

/-- The status of a row without issues, by its match. -/
theorem IsPrepared.status_eq (h : IsPrepared text rules row) (hi : row.issues = [])
    {result : Cafe24MatchResult} {parsed : ParsedCafe24OrderRow} (hp : row.parsedRow = some parsed)
    (hr : row.matched = some result) :
    row.validationStatus =
      match result.reason with
      | .MATCHED => if row.warnings.length > 0 then .WARNING else .VALID
      | .AMBIGUOUS_MATCH => .WARNING
      | .NO_MATCH => .UNMATCHED := by
  obtain ⟨repeated, hw, hnon, -⟩ := h.warnings
  have hres := h.matched
  rw [hr, hp, Option.map_some, Option.some.injEq] at hres
  have hno : ∀ issue ∈ repeated, issue.errorCode ≠ "CAFE24_PRODUCT_AMBIGUOUS" := by
    intro issue hm
    rw [← hnon] at hm
    have := (mem_filter.mp hm).2
    simp only [Bool.and_eq_true, decide_eq_true_eq] at this
    exact this.2
  rw [h.status, h.productId, hi, hr]
  unfold rowStatus
  cases hreason : result.reason with
  | MATCHED =>
    have ht : isTruthy result.productId = true := by
      rw [hres]
      exact isTruthy_matchLine (by rw [← hres]; exact hreason)
    simp [Option.filter, hreason, ht]
  | AMBIGUOUS_MATCH =>
    rw [hw, hr]
    simp [hreason, matchWarnings, warning]
  | NO_MATCH =>
    have hm : ∀ issue ∈ matchWarnings result, issue.errorCode ≠ "CAFE24_PRODUCT_AMBIGUOUS" := by
      unfold matchWarnings
      rw [hreason]
      intro issue hm
      rw [mem_singleton.mp hm]
      decide
    rw [hw, hr]
    simp only [Option.filter, hreason, isTruthy]
    simpa using ⟨hno, hm⟩

/-- **A saved line is as its rules left it.** -/
theorem SavedAs.lineInv (h : SavedAs row policyWarnings line) (hrow : IsPrepared text rules row) :
    LineInv text rules line := by
  obtain ⟨repeated, hw, hnon, -⟩ := hrow.warnings
  have hmatch : line.accepted = true → ∃ parsed result, row.issues = [] ∧
      row.parsedRow = some parsed ∧ row.matched = some result ∧ lineMatch text rules line = result := by
    intro ha
    have hi := (h.accepted_iff hrow).mp ha
    obtain ⟨parsed, hp⟩ := Option.isSome_iff_exists.mp (hrow.parsed.mpr hi)
    refine ⟨parsed, _, hi, hp, by rw [hrow.matched, hp]; rfl, ?_⟩
    unfold lineMatch
    rw [h.data]
    unfold lineData
    simp only [hp, Option.map_some, Option.getD_some, Option.bind_some]
  have hretained : ∀ {result}, row.issues = [] → row.matched = some result →
      nonMatchIssues line.validationErrors = repeated ++ policyWarnings ∧
        line.validationErrors = repeated ++ matchWarnings result ++ policyWarnings := by
    intro result hi hm
    rw [h.issues, hi, hw, hm, nil_append, Option.map_some, Option.getD_some, nonMatchIssues_append,
      nonMatchIssues_append, hnon, nonMatchIssues_matchWarnings, h.nonMatchIssues_policy, append_nil]
    exact ⟨rfl, rfl⟩
  refine ⟨fun ha => ?_, fun ha => ?_, ?_⟩
  · obtain ⟨parsed, result, hi, hp, hm, hl⟩ := hmatch ha
    have hstatus := hrow.status_eq hi hp hm
    obtain ⟨hr, -⟩ := hretained hi hm
    have hwarn : row.warnings = repeated ++ matchWarnings result := by rw [hw, hm]; rfl
    have hdata : line.data = { line.data with
        productId := if result.reason = .MATCHED then result.productId else none
        cafe24ProductRuleId := if result.reason = .MATCHED then result.matchRuleId else none
        matchSource := if result.reason = .MATCHED then .RULE else .UNMATCHED } := by
      rw [h.data]
      unfold lineData
      rw [hrow.productId, hrow.ruleId, hrow.source, hm]
      cases hreason : result.reason <;> simp [Option.filter, hreason]
    have hst : line.validationStatus =
        match result.reason with
        | .MATCHED => if (repeated ++ policyWarnings).length > 0 then .WARNING else .VALID
        | .AMBIGUOUS_MATCH => .WARNING
        | .NO_MATCH => .UNMATCHED := by
      rw [h.status, hstatus]
      cases hreason : result.reason with
      | MATCHED =>
        have hm0 : matchWarnings result = [] := by unfold matchWarnings; rw [hreason]
        rw [hwarn, hm0]
        rcases repeated with _ | ⟨a, l⟩ <;> rcases policyWarnings with _ | ⟨b, m⟩ <;> simp
      | AMBIGUOUS_MATCH | NO_MATCH => simp
    unfold writeRematch
    rw [hl, hr]
    simp only [← hdata]
    exact congrArg (fun status => { line with
      validationStatus := status
      validationErrors := repeated ++ policyWarnings ++ matchWarnings result }) hst.symm
  · obtain ⟨parsed, result, hi, hp, hm, hl⟩ := hmatch ha
    obtain ⟨hr, he⟩ := hretained hi hm
    rw [hr, he, hl, append_assoc, append_assoc]
    exact Perm.append_left _ perm_append_comm
  · rw [h.accepted_iff hrow, h.issues]
    constructor
    · intro hi issue hm
      rw [hi] at hm
      rcases mem_append.mp hm with hm | hm
      · exact hrow.severity_warnings issue hm
      · exact h.severity_policy issue hm
    · intro hall
      rw [eq_nil_iff_forall_not_mem]
      intro issue hm
      have hwn := hall issue (mem_append_left _ (mem_append_left _ hm))
      rw [hrow.severity issue hm] at hwn
      cases hwn

/-! ## 4. The counters of the loop -/

/-- The lines of a batch up to their flags. -/
def clearedOf (batchId : Nat) (lines : List Cafe24OrderLine) : List Cafe24OrderLine :=
  (linesOf batchId lines).map StoredRow.clear

/-- A change of flags is not seen. -/
theorem clearedOf_map {f : Cafe24OrderLine → Cafe24OrderLine} (hf : ∀ r, (f r).clear = r.clear)
    (batchId : Nat) (lines : List Cafe24OrderLine) :
    clearedOf batchId (lines.map f) = clearedOf batchId lines := by
  unfold clearedOf linesOf
  rw [filter_map, map_map]
  have hp : ((fun line : Cafe24OrderLine => decide (line.uploadBatchId = batchId)) ∘ f) =
      fun line => decide (line.uploadBatchId = batchId) := by
    funext r
    have hb : (f r).clear.uploadBatchId = r.clear.uploadBatchId := congrArg _ (hf r)
    rw [comp_apply, show (f r).uploadBatchId = r.uploadBatchId from hb]
  rw [hp]
  exact map_congr_left fun r _ => hf r

theorem clearedOf_append (batchId : Nat) (l m : List Cafe24OrderLine) :
    clearedOf batchId (l ++ m) = clearedOf batchId l ++ clearedOf batchId m := by
  unfold clearedOf linesOf
  rw [filter_append, map_append]

theorem clearedOf_clearCurrent (batchId : Nat) (ids : List Nat) (lines : List Cafe24OrderLine) :
    clearedOf batchId (clearCurrent ids lines) = clearedOf batchId lines :=
  clearedOf_map (fun r => by split <;> rfl) batchId lines

def warningsOf (errors : List Cafe24UploadRowError) : Nat :=
  errors.countP fun error => error.severity = .WARNING

/-- The counters agree with the lines the loop has stored. -/
structure LoopInv (text : TextLocale) (rules : List Cafe24RuleInput) (batchId warningCount : Nat)
    (rowErrors : List Cafe24UploadRowError) (turns : Nat) (state : ImportLoop) : Prop where
  path : state.newLines = none
  rowCount : (clearedOf batchId state.lines).length = turns
  validRowCount : state.counters.validRowCount = (clearedOf batchId state.lines).countP (·.accepted)
  errorCount : state.counters.errorCount =
    (clearedOf batchId state.lines).countP fun line => !line.accepted
  rowErrors : state.rowErrors = rowErrors ++ (clearedOf batchId state.lines).flatMap lineErrors
  warningCount : state.counters.warningCount =
    warningCount + warningsOf ((clearedOf batchId state.lines).flatMap lineErrors)
  orderStart : state.counters.orderStart =
    minOf ((clearedOf batchId state.lines).filterMap (·.data.orderDate))
  orderEnd : state.counters.orderEnd =
    maxOf ((clearedOf batchId state.lines).filterMap (·.data.orderDate))
  lines : ∀ line ∈ clearedOf batchId state.lines, LineInv text rules line

/-- The warnings among the errors of a saved line. -/
theorem SavedAs.warningsOf_lineErrors (h : SavedAs row policyWarnings line)
    (hrow : IsPrepared text rules row) :
    warningsOf (lineErrors line) = row.warnings.length + policyWarnings.length := by
  unfold warningsOf lineErrors
  rw [countP_map, h.issues, countP_append, countP_append]
  have h0 : row.issues.countP ((fun error : Cafe24UploadRowError => decide (error.severity = .WARNING)) ∘
      rowErrorOf line.uploadBatchId line.id line.rowNumber) = 0 := by
    refine countP_eq_zero.mpr fun issue hi => ?_
    simp [rowErrorOf, hrow.severity issue hi]
  have h1 : row.warnings.countP ((fun error : Cafe24UploadRowError => decide (error.severity = .WARNING)) ∘
      rowErrorOf line.uploadBatchId line.id line.rowNumber) = row.warnings.length := by
    refine countP_eq_length.mpr fun issue hi => ?_
    simp [rowErrorOf, hrow.severity_warnings issue hi]
  have h2 : policyWarnings.countP ((fun error : Cafe24UploadRowError => decide (error.severity = .WARNING)) ∘
      rowErrorOf line.uploadBatchId line.id line.rowNumber) = policyWarnings.length := by
    refine countP_eq_length.mpr fun issue hi => ?_
    simp [rowErrorOf, h.severity_policy issue hi]
  omega

variable {batchId warningCount : Nat} {rowErrors : List Cafe24UploadRowError}

/-- **One turn keeps the counters in step.** -/
theorem LoopInv.turn {turns : Nat} {state : ImportLoop}
    (h : LoopInv text rules batchId warningCount rowErrors turns state) (policy : ConflictPolicy)
    {entry : Stamp × PreparedRow} (hrow : IsPrepared text rules entry.2) :
    LoopInv text rules batchId warningCount rowErrors (turns + 1)
      (importTurn policy batchId state entry) := by
  have hs := savedAs_saveCafe24OrderLine policy batchId false state.lines entry.1 entry.2
  have hbatch : (saveCafe24OrderLine policy batchId false state.lines entry.1 entry.2).line.uploadBatchId =
      batchId := rfl
  unfold importTurn
  simp only [h.path, Option.isSome_none]
  generalize saveCafe24OrderLine policy batchId false state.lines entry.1 entry.2 = saved at hs hbatch ⊢
  have hlines : clearedOf batchId (clearCurrent saved.demotedIds state.lines ++ [saved.line]) =
      clearedOf batchId state.lines ++ [saved.line.clear] := by
    rw [clearedOf_append, clearedOf_clearCurrent]
    congr 1
    unfold clearedOf linesOf
    simp [hbatch]
  have hacc := hs.accepted_iff hrow
  have hdate : saved.line.data.orderDate = entry.2.parsedRow.bind (·.orderDate) := by
    rw [hs.data]
    rfl
  have hwarn := hs.warningsOf_lineErrors hrow
  have hlen : entry.2.issues.length > 0 ↔ ¬ saved.line.accepted = true := by
    rw [hacc, gt_iff_lt, length_pos_iff]
  refine ⟨rfl, ?_, ?_, ?_, ?_, ?_, ?_, ?_, ?_⟩
  · rw [hlines, length_append, h.rowCount]
    rfl
  · rw [hlines]
    show (if entry.2.issues.length > 0 then _ else _) = _
    rw [h.validRowCount]
    by_cases ha : saved.line.accepted = true
    · rw [if_neg fun hc => hlen.mp hc ha]
      simp [accepted_clear, ha]
    · rw [if_pos (hlen.mpr ha)]
      simp [accepted_clear, ha]
  · rw [hlines]
    show (if entry.2.issues.length > 0 then _ else _) = _
    rw [h.errorCount]
    by_cases ha : saved.line.accepted = true
    · rw [if_neg fun hc => hlen.mp hc ha]
      simp [accepted_clear, ha]
    · rw [if_pos (hlen.mpr ha)]
      simp [accepted_clear, ha]
  · rw [hlines, flatMap_append, ← append_assoc, ← h.rowErrors, flatMap_singleton, lineErrors_clear]
    unfold lineErrors
    rw [hs.issues, hbatch, hs.number]
  · rw [hlines, flatMap_append]
    unfold warningsOf
    rw [countP_append, flatMap_singleton, lineErrors_clear]
    have hw := h.warningCount
    unfold warningsOf at hw hwarn
    show state.counters.warningCount + _ + _ = _
    omega
  · rw [hlines]
    unfold minOf
    show (Option.map (minDate state.counters.orderStart) _).getD state.counters.orderStart = _
    rw [h.orderStart, ← hdate]
    cases hd : saved.line.data.orderDate <;> simp [minOf, StoredRow.clear, hd]
  · rw [hlines]
    unfold maxOf
    show (Option.map (maxDate state.counters.orderEnd) _).getD state.counters.orderEnd = _
    rw [h.orderEnd, ← hdate]
    cases hd : saved.line.data.orderDate <;> simp [maxOf, StoredRow.clear, hd]
  · intro line hm
    rw [hlines] at hm
    rcases mem_append.mp hm with hm | hm
    · exact h.lines line hm
    · rw [mem_singleton.mp hm]
      exact (hs.lineInv hrow).of_clear rfl

/-- So does the whole loop. -/
theorem LoopInv.foldl (policy : ConflictPolicy) :
    ∀ (entries : List (Stamp × PreparedRow)) {turns : Nat} {state : ImportLoop},
      LoopInv text rules batchId warningCount rowErrors turns state →
      (∀ entry ∈ entries, IsPrepared text rules entry.2) →
      LoopInv text rules batchId warningCount rowErrors (turns + entries.length)
        (entries.foldl (importTurn policy batchId) state)
  | [], _, _, h, _ => h
  | entry :: entries, turns, state, h, hrows => by
    have hrest := LoopInv.foldl policy entries (h.turn policy (hrows entry mem_cons_self))
      (fun e he => hrows e (mem_cons_of_mem _ he))
    rw [length_cons, Nat.add_comm entries.length, ← Nat.add_assoc]
    exact hrest

/-! ## 5. Changes that leave the lines -/

theorem mem_linesOf :
    line ∈ linesOf batchId lines ↔ line ∈ lines ∧ line.uploadBatchId = batchId := by
  unfold linesOf
  rw [mem_filter, decide_eq_true_eq]

/-- No line belongs to the batch. -/
def NoLines (batchId : Nat) (lines : List Cafe24OrderLine) : Prop :=
  ∀ line ∈ lines, line.uploadBatchId ≠ batchId

theorem linesOf_eq_nil_iff : linesOf batchId lines = [] ↔ NoLines batchId lines := by
  unfold linesOf NoLines
  rw [filter_eq_nil_iff]
  simp only [decide_eq_true_eq]

/-- The lines stay, and so do the batches and errors that go with a line. -/
theorem StoreInv.of_same_lines {store' : Cafe24Store} (h : StoreInv text rulesAt store)
    (hlines : store'.lines = store.lines) (hids : (store'.batches.map (·.id)).Nodup)
    (hkept : ∀ batch ∈ store.batches, ∃ b ∈ store'.batches, b.id = batch.id)
    (hlined : ∀ batch ∈ store'.batches, linesOf batch.id store.lines ≠ [] → batch ∈ store.batches ∧
      errorsOf batch.id store'.rowErrors = errorsOf batch.id store.rowErrors)
    (herr : ∀ error ∈ store'.rowErrors, ∃ batch ∈ store'.batches, batch.id = error.uploadBatchId)
    (hline : ∀ error ∈ store'.rowErrors, error ∈ store.rowErrors ∨ error.orderLineId = none) :
    StoreInv text rulesAt store' where
  lines := hlines ▸ h.lines
  batchIds := hids
  owner := by
    intro line hl
    rw [hlines] at hl
    obtain ⟨batch, hb, e⟩ := h.owner line hl
    obtain ⟨b, hb', e'⟩ := hkept batch hb
    exact ⟨b, hb', e'.trans e⟩
  errorOwner := herr
  errorLine := by
    intro error he i hi
    rw [hlines]
    rcases hline error he with hold | hnone
    · exact h.errorLine error hold i hi
    · rw [hnone] at hi; cases hi
  batches := by
    intro batch hb hne
    rw [hlines] at hne
    obtain ⟨hb', he⟩ := hlined batch hb hne
    exact (h.batches batch hb' hne).congr (by rw [hlines]) he

theorem StoreInv.congr_rules {rulesAt' : Nat → List Cafe24RuleInput} (h : StoreInv text rulesAt store)
    (hr : ∀ batch ∈ store.batches, linesOf batch.id store.lines ≠ [] →
      rulesAt' batch.id = rulesAt batch.id) : StoreInv text rulesAt' store where
  lines := h.lines
  batchIds := h.batchIds
  owner := h.owner
  errorOwner := h.errorOwner
  errorLine := h.errorLine
  batches := by
    intro batch hb hne
    rw [hr batch hb hne]
    exact h.batches batch hb hne

theorem map_id_updateBatch {change : Cafe24UploadBatch → Cafe24UploadBatch} (batchId : Nat)
    (batches : List Cafe24UploadBatch) (hid : ∀ batch, batch.id = batchId → (change batch).id = batchId) :
    (updateBatch batchId change batches).map (·.id) = batches.map (·.id) := by
  unfold updateBatch
  rw [map_map]
  refine map_congr_left fun batch _ => ?_
  simp only [comp_apply]
  split
  · next e => rw [hid batch e, e]
  · rfl

theorem mem_of_map_id {batches' : List Cafe24UploadBatch} (h : batches'.map (·.id) = batches.map (·.id))
    (hb : batch ∈ batches) :
    ∃ b ∈ batches', b.id = batch.id := by
  have hm : batch.id ∈ batches'.map (·.id) := h ▸ mem_map_of_mem hb
  obtain ⟨b, hb', e⟩ := mem_map.mp hm
  exact ⟨b, hb', e⟩

/-- An update of a batch without lines, with new errors of that batch. -/
theorem StoreInv.update_unlined (h : StoreInv text rulesAt store)
    (change : Cafe24UploadBatch → Cafe24UploadBatch) (errors : List Cafe24UploadRowError)
    (hno : NoLines batchId store.lines) (hid : ∀ batch, batch.id = batchId → (change batch).id = batchId)
    (hb : ∃ batch ∈ store.batches, batch.id = batchId)
    (he : ∀ error ∈ errors, error.uploadBatchId = batchId ∧ error.orderLineId = none) :
    StoreInv text rulesAt { store with
      batches := updateBatch batchId change store.batches, rowErrors := store.rowErrors ++ errors } := by
  have hids := map_id_updateBatch batchId store.batches hid
  refine h.of_same_lines rfl ?_ ?_ ?_ ?_ ?_
  · rw [hids]
    exact h.batchIds
  · exact fun batch hb => mem_of_map_id hids hb
  · intro batch hm hne
    have hne' : batch.id ≠ batchId := fun e => hne (linesOf_eq_nil_iff.mpr (e ▸ hno))
    refine ⟨?_, ?_⟩
    · obtain ⟨b, hb, rfl⟩ := mem_map.mp hm
      by_cases e : b.id = batchId
      · rw [if_pos e] at hne'
        exact absurd (hid b e) hne'
      · rw [if_neg e]
        exact hb
    · unfold errorsOf
      rw [filter_append, append_right_eq_self, filter_eq_nil_iff]
      intro error hm
      simp only [(he error hm).1, decide_eq_true_eq]
      exact fun e => hne' e.symm
  · intro error hm
    rcases mem_append.mp hm with hm | hm
    · obtain ⟨batch, hb, e⟩ := h.errorOwner error hm
      obtain ⟨b, hb', e'⟩ := mem_of_map_id hids hb
      exact ⟨b, hb', e'.trans e⟩
    · obtain ⟨batch, hb, e⟩ := hb
      obtain ⟨b, hb', e'⟩ := mem_of_map_id hids hb
      exact ⟨b, hb', e'.trans (e.trans (he error hm).1.symm)⟩
  · intro error hm
    rcases mem_append.mp hm with hm | hm
    · exact .inl hm
    · exact .inr (he error hm).2

/-- A batch that is created has no lines yet. -/
theorem StoreInv.create (h : StoreInv text rulesAt store) (batch : Cafe24UploadBatch)
    (hnew : ∀ b ∈ store.batches, b.id ≠ batch.id) :
    NoLines batch.id store.lines ∧
      StoreInv text rulesAt { store with batches := store.batches ++ [batch] } := by
  have hno : NoLines batch.id store.lines := by
    intro line hl e
    obtain ⟨b, hb, e'⟩ := h.owner line hl
    exact hnew b hb (e'.trans e)
  refine ⟨hno, h.of_same_lines rfl ?_ ?_ ?_ ?_ fun error he => .inl he⟩
  · rw [map_append]
    refine h.batchIds.append (nodup_singleton _) ?_
    intro i hi hm
    obtain ⟨b, hb, rfl⟩ := mem_map.mp hi
    exact hnew b hb (by simpa using hm)
  · exact fun b hb => ⟨b, mem_append_left _ hb, rfl⟩
  · intro b hb hne
    rcases mem_append.mp hb with hb | hb
    · exact ⟨hb, rfl⟩
    · rw [mem_singleton.mp hb] at hne
      exact absurd (linesOf_eq_nil_iff.mpr hno) hne
  · intro error he
    obtain ⟨b, hb, e⟩ := h.errorOwner error he
    exact ⟨b, mem_append_left _ hb, e⟩

/-- **Recounting a batch without lines** changes that batch alone. -/
theorem refreshBatch_unlined (now : Nat) (hno : NoLines batchId store.lines) :
    refreshBatch now store batchId = store ∨
      ∃ batch ∈ store.batches, batch.id = batchId ∧ refreshBatch now store batchId =
        { store with batches := updateBatch batchId (fun _ => refreshedBatch now store batch) store.batches } := by
  unfold refreshBatch
  cases hf : store.batches.find? fun batch => batch.id = batchId with
  | none => exact .inl rfl
  | some batch =>
    refine .inr ⟨batch, mem_of_find?_eq_some hf, by simpa using find?_some hf, ?_⟩
    dsimp only
    split
    · rfl
    · have hnone : (store.lines.filter fun line =>
          decide (line.uploadBatchId = batchId) && line.isCurrent) = [] := by
        rw [filter_eq_nil_iff]
        intro line hl
        simp [hno line hl]
      unfold demoteIncompleteCafe24CurrentLines
      rw [hnone]
      rfl

theorem StoreInv.refreshBatch (h : StoreInv text rulesAt store) (now : Nat)
    (hno : NoLines batchId store.lines) :
    StoreInv text rulesAt (refreshBatch now store batchId) ∧
      (refreshBatch now store batchId).lines = store.lines ∧
      (refreshBatch now store batchId).rowErrors = store.rowErrors ∧
      (refreshBatch now store batchId).batches.map (·.id) = store.batches.map (·.id) := by
  rcases refreshBatch_unlined now hno with e | ⟨batch, hb, hid, e⟩
  · rw [e]
    exact ⟨h, rfl, rfl, rfl⟩
  · rw [e]
    have hu := h.update_unlined (fun _ => refreshedBatch now store batch) [] hno (fun _ _ => hid)
      ⟨batch, hb, hid⟩ (fun _ h => (not_mem_nil h).elim)
    rw [append_nil] at hu
    exact ⟨hu, rfl, rfl, map_id_updateBatch batchId store.batches fun _ _ => hid⟩

/-! ## 6. The transaction of an import -/

theorem linesOf_clearedOf (batchId : Nat) (lines : List Cafe24OrderLine) :
    linesOf batchId (clearedOf batchId lines) = clearedOf batchId lines := by
  refine filter_eq_self.mpr fun line hl => ?_
  obtain ⟨r, hr, rfl⟩ := mem_map.mp hl
  exact decide_eq_true (mem_linesOf.mp hr).2

theorem map_clear_clearedOf (batchId : Nat) (lines : List Cafe24OrderLine) :
    (clearedOf batchId lines).map StoredRow.clear = clearedOf batchId lines := by
  unfold clearedOf
  rw [map_map]
  rfl

theorem clearedOf_eq_nil (h : NoLines batchId lines) : clearedOf batchId lines = [] := by
  unfold clearedOf
  rw [linesOf_eq_nil_iff.mpr h]
  rfl

/-- The rows of a file leave the lines of other batches, up to flags. -/
theorem clearedOf_saveTurn {b : Nat} (hne : batchId ≠ b) (policy : ConflictPolicy)
    (entries : List (Stamp × PreparedRow)) (lines : List Cafe24OrderLine) :
    clearedOf b (entries.foldl (saveTurn policy batchId) lines) = clearedOf b lines := by
  induction entries generalizing lines with
  | nil => rfl
  | cons entry entries ih =>
    rw [foldl_cons, ih]
    unfold saveTurn
    rw [clearedOf_append, clearedOf_clearCurrent, append_right_eq_self]
    refine clearedOf_eq_nil fun line hl => ?_
    rw [mem_singleton.mp hl]
    exact hne

theorem loopInv_importLoop (policy : ConflictPolicy) (batchId warningCount : Nat)
    (entries : List (Stamp × PreparedRow)) (lines : List Cafe24OrderLine)
    (rowErrors : List Cafe24UploadRowError) (hno : NoLines batchId lines)
    (hrows : ∀ entry ∈ entries, IsPrepared text rules entry.2) :
    LoopInv text rules batchId warningCount rowErrors entries.length
      (importLoop policy batchId false warningCount entries lines rowErrors) := by
  have hstart : LoopInv text rules batchId warningCount rowErrors 0
      (importStart false warningCount lines rowErrors) := by
    have hnil := clearedOf_eq_nil hno
    refine ⟨rfl, ?_, ?_, ?_, ?_, ?_, ?_, ?_, ?_⟩ <;> dsimp only [importStart] <;> rw [hnil]
    · rfl
    · rfl
    · rfl
    · simp
    · rfl
    · rfl
    · rfl
    · exact fun _ h => (not_mem_nil h).elim
  have hrun := hstart.foldl policy entries hrows
  rw [Nat.zero_add] at hrun
  have hpath := hrun.path
  unfold importLoop
  simp only [hpath]
  exact hrun

/-- The errors of the lines of a batch are errors of the batch. -/
theorem uploadBatchId_lineErrors {error : Cafe24UploadRowError}
    (he : error ∈ (clearedOf batchId lines).flatMap lineErrors) :
    error.uploadBatchId = batchId := by
  obtain ⟨line, hl, he⟩ := mem_flatMap.mp he
  obtain ⟨r, hr, rfl⟩ := mem_map.mp hl
  obtain ⟨issue, -, rfl⟩ := mem_map.mp he
  exact (mem_linesOf.mp hr).2

/-- What the counters of the loop say about the batch of the import. -/
theorem LoopInv.batchInv {turns : Nat} {final : ImportLoop}
    (h : LoopInv text rules batch.id warningCount rowErrors turns final) (hcount : batch.rowCount = turns)
    (hunlined : ∀ error ∈ errorsOf batch.id rowErrors, error.orderLineId = none ∧ error.severity = .WARNING)
    (hwarn : warningCount = (errorsOf batch.id rowErrors).length) (now : Nat) :
    BatchInv text rules ⟨batches, final.lines, final.rowErrors⟩ (countedBatch now final.counters batch) := by
  have herrors : errorsOf batch.id final.rowErrors = errorsOf batch.id rowErrors ++
      (clearedOf batch.id final.lines).flatMap lineErrors := by
    rw [h.rowErrors]
    unfold errorsOf
    rw [filter_append]
    congr 1
    exact filter_eq_self.mpr fun error he => decide_eq_true (uploadBatchId_lineErrors he)
  have hall : warningsOf (errorsOf batch.id rowErrors) = warningCount := by
    rw [hwarn]
    exact countP_eq_length.mpr fun error he => decide_eq_true (hunlined error he).2
  -- the facts are read off the lines without their flags
  have hcleared : BatchInv text rules ⟨[], clearedOf batch.id final.lines, final.rowErrors⟩
      (countedBatch now final.counters batch) := by
    unfold countedBatch
    refine ⟨?_, ?_, ?_, ?_, ?_, rfl, ?_, ?_, ?_, ?_⟩ <;> dsimp only
    · rw [hcount, linesOf_clearedOf, h.rowCount]
    · rw [linesOf_clearedOf]
      exact h.validRowCount
    · rw [linesOf_clearedOf]
      exact h.errorCount
    · rw [linesOf_clearedOf]
      exact ⟨_, hunlined, herrors⟩
    · rw [herrors, countP_append, h.warningCount, ← hall]
      rfl
    · rw [linesOf_clearedOf]
      exact h.orderStart
    · rw [linesOf_clearedOf]
      exact h.orderEnd
    · split
      · next hv => simp [hv]
      · next hv => simp [hv]
    · rw [linesOf_clearedOf]
      exact h.lines
  refine hcleared.congr ?_ rfl
  show _ = (linesOf batch.id (clearedOf batch.id final.lines)).map StoredRow.clear
  rw [linesOf_clearedOf, map_clear_clearedOf]
  rfl

/-- **The transaction keeps the invariant.** -/
theorem StoreInv.importTransaction (h : StoreInv text rulesAt store) (hb : batch ∈ store.batches)
    (hno : NoLines batch.id store.lines) {entries : List (Stamp × PreparedRow)}
    (hcount : batch.rowCount = entries.length) (hrows : ∀ entry ∈ entries, IsPrepared text rules entry.2)
    (hfresh : FreshStamps (entries.map (·.1)) store.lines)
    (hunlined : ∀ error ∈ errorsOf batch.id store.rowErrors,
      error.orderLineId = none ∧ error.severity = .WARNING)
    (hwarn : warningCount = (errorsOf batch.id store.rowErrors).length) (policy : ConflictPolicy)
    (now : Nat) :
    StoreInv text (update rulesAt batch.id rules)
      (importTransaction policy batch.id now warningCount entries store).1 := by
  rw [importTransaction_eq_row_by_row]
  unfold importOnPath
  have hlines := importLoop_lines policy batch.id warningCount entries store.lines store.rowErrors
  have hloop := loopInv_importLoop policy batch.id warningCount entries store.lines store.rowErrors
    hno hrows
  generalize importLoop policy batch.id false warningCount entries store.lines store.rowErrors = final
    at hlines hloop ⊢
  show StoreInv text _ ⟨updateBatch batch.id (countedBatch now final.counters) store.batches,
    final.lines, final.rowErrors⟩
  have hother : ∀ b, b ≠ batch.id → clearedOf b final.lines = clearedOf b store.lines := by
    intro b hne
    rw [hlines]
    exact clearedOf_saveTurn (Ne.symm hne) policy entries store.lines
  have hids : (updateBatch batch.id (countedBatch now final.counters) store.batches).map (·.id) =
      store.batches.map (·.id) := map_id_updateBatch batch.id store.batches fun _ e => e
  refine ⟨?_, ?_, ?_, ?_, ?_, ?_⟩
  · rw [hlines]
    exact (saved_foldl policy batch.id entries store.lines h.lines hfresh
      fun entry he => (hrows entry he).clean).inv
  · rw [hids]
    exact h.batchIds
  · intro line hl
    by_cases he : line.uploadBatchId = batch.id
    · obtain ⟨b, hb', e⟩ := mem_of_map_id hids hb
      exact ⟨b, hb', e.trans he.symm⟩
    · have hm : line.clear ∈ clearedOf line.uploadBatchId final.lines :=
        mem_map_of_mem (mem_linesOf.mpr ⟨hl, rfl⟩)
      rw [hother _ he] at hm
      obtain ⟨r, hr, -⟩ := mem_map.mp hm
      obtain ⟨hr, hrb⟩ := mem_linesOf.mp hr
      obtain ⟨b, hb', e⟩ := h.owner r hr
      obtain ⟨b', hb', e'⟩ := mem_of_map_id hids hb'
      exact ⟨b', hb', e'.trans (e.trans hrb)⟩
  · intro error he
    rw [hloop.rowErrors] at he
    rcases mem_append.mp he with he | he
    · obtain ⟨b, hb', e⟩ := h.errorOwner error he
      obtain ⟨b', hb', e'⟩ := mem_of_map_id hids hb'
      exact ⟨b', hb', e'.trans e⟩
    · obtain ⟨b, hb', e⟩ := mem_of_map_id hids hb
      exact ⟨b, hb', e.trans (uploadBatchId_lineErrors he).symm⟩
  · intro error he i hi
    rw [hloop.rowErrors] at he
    rcases mem_append.mp he with he | he
    · obtain ⟨line, hl, hid, hlb⟩ := h.errorLine error he i hi
      have hne : line.uploadBatchId ≠ batch.id := hno line hl
      have hm : line.clear ∈ clearedOf line.uploadBatchId store.lines :=
        mem_map_of_mem (mem_linesOf.mpr ⟨hl, rfl⟩)
      rw [← hother _ hne] at hm
      obtain ⟨r, hr, e⟩ := mem_map.mp hm
      obtain ⟨hr, hrb⟩ := mem_linesOf.mp hr
      have hrid : r.clear.id = line.clear.id := congrArg _ e
      exact ⟨r, hr, hrid.trans hid, hrb.trans hlb⟩
    · obtain ⟨line, hl, he⟩ := mem_flatMap.mp he
      obtain ⟨r, hr, rfl⟩ := mem_map.mp hl
      obtain ⟨issue, -, rfl⟩ := mem_map.mp he
      exact ⟨r, (mem_linesOf.mp hr).1, Option.some.inj hi, rfl⟩
  · intro b hm hne
    obtain ⟨b0, hb0, rfl⟩ := mem_map.mp hm
    by_cases e : b0.id = batch.id
    · obtain rfl : b0 = batch := inj_on_of_nodup_map h.batchIds hb0 hb e
      rw [if_pos rfl, show (countedBatch now final.counters b0).id = b0.id from rfl, update_self]
      exact hloop.batchInv hcount hunlined hwarn now
    · rw [if_neg e] at hne ⊢
      rw [update_of_ne e]
      have hcl : (linesOf b0.id final.lines).map StoredRow.clear =
          (linesOf b0.id store.lines).map StoredRow.clear := hother _ e
      refine (h.batches b0 hb0 ?_).congr hcl ?_
      · intro hn
        rw [hn, map_nil, map_eq_nil_iff] at hcl
        exact hne hcl
      · rw [hloop.rowErrors]
        unfold errorsOf
        rw [filter_append, append_right_eq_self, filter_eq_nil_iff]
        intro error he
        rw [uploadBatchId_lineErrors he, decide_eq_true_eq]
        exact fun e' => e e'.symm

end AdsManagement.Cafe24
