/-
  File:      Cafe24/SavedRows.lean
  Subject:   THE ROWS OF A FILE: the bulk insert is the loop over single rows as long as the
             database takes every row, and what that loop does to the stored lines.

  * `importTransaction_eq_row_by_row` -- the two paths of an import agree;
  * `bulk_import_agrees_iff` -- exactly when they do, with inserts the database may refuse;
  * `saved_foldl` -- the lines after the rows of a file: which keep their flag, which keys have
    their current line in the new batch.
-/
import AdsManagement.Coupang.UploadInverse
import AdsManagement.Cafe24.UploadStore

namespace AdsManagement.Cafe24

open Common Lib Coupang List

/-! ## 1. The bulk path -/

/-- One value of `duplicatedValues`: the values seen, and those seen again. -/
def noteValue (acc : List String × List String) (value : String) : List String × List String :=
  (acc.1 ++ [value], if acc.1.contains value then acc.2 ++ [value] else acc.2)

theorem foldl_noteValue (values : List String) :
    (values.foldl noteValue ([], [])).1 = values ∧
      ((values.foldl noteValue ([], [])).2 = [] ↔ values.Nodup) := by
  induction values using reverseRecOn with
  | nil => exact ⟨rfl, iff_of_true rfl nodup_nil⟩
  | append_singleton values value ih =>
    obtain ⟨hseen, hdup⟩ := ih
    rw [foldl_append, foldl_cons, noteValue, hseen]
    refine ⟨rfl, ?_⟩
    rw [← concat_eq_append, nodup_concat, ← hdup]
    by_cases hm : value ∈ values
    · simp [hm]
    · simp [hm]

/-- No value is reported exactly when none occurs twice. -/
theorem duplicatedValues_eq_nil_iff (values : List String) :
    duplicatedValues values = [] ↔ values.Nodup := by
  rw [← (foldl_noteValue values).2]
  show (values.foldl noteValue ([], [])).2.eraseDups = [] ↔ _
  rw [eq_nil_iff_forall_not_mem, eq_nil_iff_forall_not_mem]
  simp only [mem_eraseDups]

variable {lines : List Cafe24OrderLine} {key : String}

theorem existingCurrentLines_eq_nil_iff :
    existingCurrentLines key lines = [] ↔
      ∀ line ∈ lines, line.logicalKey = key → line.isCurrent = false := by
  unfold existingCurrentLines
  rw [← length_eq_zero_iff, length_insertionSort, length_eq_zero_iff, filter_eq_nil_iff]
  simp only [mem_ofKey, and_imp, Bool.not_eq_true]

variable {row : PreparedRow}

/-- Without a current line of the key the two paths save a row alike. -/
theorem saveCafe24OrderLine_bulk (policy : ConflictPolicy) (batchId : Nat) (bulk : Bool)
    {table : List Cafe24OrderLine} (stamp : Stamp) (h : existingCurrentLines row.orderLineKey table = []) :
    saveCafe24OrderLine policy batchId true lines stamp row =
      saveCafe24OrderLine policy batchId bulk table stamp row := by
  unfold saveCafe24OrderLine
  cases bulk <;> simp [h]

theorem demotedIds_of_nil (policy : ConflictPolicy) (batchId : Nat) (bulk : Bool) (stamp : Stamp)
    (h : bulk = true ∨ existingCurrentLines row.orderLineKey lines = []) :
    (saveCafe24OrderLine policy batchId bulk lines stamp row).demotedIds = [] := by
  unfold saveCafe24OrderLine
  rcases h with h | h <;> simp [h]

theorem clearCurrent_nil {δ : Type} (rows : List (StoredRow δ)) : clearCurrent [] rows = rows := by
  unfold clearCurrent
  simp

theorem existingCurrentLines_append {line : Cafe24OrderLine} (h : existingCurrentLines key lines = [])
    (hne : line.logicalKey ≠ key) :
    existingCurrentLines key (lines ++ [line]) = [] := by
  rw [existingCurrentLines_eq_nil_iff] at h ⊢
  intro r hr hk
  rcases mem_append.mp hr with hr | hr
  · exact h r hr hk
  · rw [mem_singleton.mp hr] at hk
    exact absurd hk hne

/-- How the two paths stand to each other: what one keeps back, the other has stored. -/
structure KeptBack (bulk single : ImportLoop) : Prop where
  lines : ∃ newLines, bulk.newLines = some newLines ∧ single.lines = bulk.lines ++ newLines
  rowErrors : single.rowErrors = bulk.rowErrors ++ bulk.newErrors
  newLines : single.newLines = none
  counters : single.counters = bulk.counters

variable {entry : Stamp × PreparedRow}

/-- One row on both paths. -/
theorem KeptBack.turn {bulk single : ImportLoop} (h : KeptBack bulk single) (policy : ConflictPolicy)
    (batchId : Nat) (hnone : existingCurrentLines entry.2.orderLineKey single.lines = []) :
    KeptBack (importTurn policy batchId bulk entry) (importTurn policy batchId single entry) ∧
      (importTurn policy batchId bulk entry).lines = bulk.lines ∧
      (importTurn policy batchId bulk entry).rowErrors = bulk.rowErrors ∧
      ∃ line : Cafe24OrderLine, line.logicalKey = entry.2.orderLineKey ∧
        (importTurn policy batchId single entry).lines = single.lines ++ [line] := by
  obtain ⟨newLines, hnew, hlines⟩ := h.lines
  have hsave : saveCafe24OrderLine policy batchId true bulk.lines entry.1 entry.2 =
      saveCafe24OrderLine policy batchId false single.lines entry.1 entry.2 :=
    saveCafe24OrderLine_bulk policy batchId false entry.1 hnone
  have hdem := demotedIds_of_nil policy batchId false entry.1 (.inr hnone)
  unfold importTurn
  simp only [hnew, h.newLines, Option.isSome_some, Option.isSome_none, hsave, hdem, clearCurrent_nil]
  refine ⟨⟨⟨_, rfl, ?_⟩, ?_, rfl, ?_⟩, trivial, trivial, _, rfl, rfl⟩
  · rw [hlines, append_assoc]
  · rw [h.rowErrors, append_assoc]
  · rw [h.counters]

/-- The loop on both paths, over rows of distinct keys without a current line. -/
theorem KeptBack.foldl (policy : ConflictPolicy) (batchId : Nat) :
    ∀ (entries : List (Stamp × PreparedRow)) {bulk single : ImportLoop}, KeptBack bulk single →
      (entries.map (·.2.orderLineKey)).Nodup →
      (∀ entry ∈ entries, existingCurrentLines entry.2.orderLineKey single.lines = []) →
      KeptBack (entries.foldl (importTurn policy batchId) bulk)
          (entries.foldl (importTurn policy batchId) single) ∧
        (entries.foldl (importTurn policy batchId) bulk).lines = bulk.lines ∧
        (entries.foldl (importTurn policy batchId) bulk).rowErrors = bulk.rowErrors
  | [], _, _, h, _, _ => ⟨h, rfl, rfl⟩
  | entry :: entries, bulk, single, h, hnd, hnone => by
    obtain ⟨hkeys, hnd⟩ := nodup_cons.mp hnd
    obtain ⟨hturn, hl, he, line, hkey, hline⟩ :=
      h.turn policy batchId (hnone entry mem_cons_self)
    have hrest : ∀ e ∈ entries, existingCurrentLines e.2.orderLineKey
        (importTurn policy batchId single entry).lines = [] := by
      intro e he'
      rw [hline]
      refine existingCurrentLines_append (hnone e (mem_cons_of_mem _ he')) ?_
      rw [hkey]
      intro heq
      exact hkeys (mem_map.mpr ⟨e, he', heq.symm⟩)
    obtain ⟨hfold, hl', he'⟩ := KeptBack.foldl policy batchId entries hturn hnd hrest
    exact ⟨hfold, hl'.trans hl, he'.trans he⟩

theorem createManyInChunks_eq {α : Type} (table data : List α) :
    createManyInChunks 100 table data = table ++ data :=
  foldl_chunks_append (by decide) table data

/-- The keys a bulk insert is chosen for. -/
theorem choosesBulk_iff {rows : List PreparedRow} :
    choosesBulk lines rows = true ↔ (rows.map (·.orderLineKey)).Nodup ∧
      ∀ row ∈ rows, existingCurrentLines row.orderLineKey lines = [] := by
  unfold choosesBulk
  simp only [Bool.and_eq_true, List.isEmpty_iff, duplicatedValues_eq_nil_iff, beq_iff_eq,
    countP_eq_zero, existingCurrentLines_eq_nil_iff, contains_iff_mem, mem_map,
    not_and, Bool.not_eq_true, forall_exists_index, and_imp]
  constructor
  · rintro ⟨hnd, h⟩
    exact ⟨hnd, fun row hr line hl e => h line hl row hr e.symm⟩
  · rintro ⟨hnd, h⟩
    exact ⟨hnd, fun line hl row hr e => h row hr line hl e.symm⟩

theorem importLoop_choosesBulk (policy : ConflictPolicy) (batchId warningCount : Nat)
    (entries : List (Stamp × PreparedRow)) (lines : List Cafe24OrderLine)
    (rowErrors : List Cafe24UploadRowError) :
    let chosen := importLoop policy batchId (choosesBulk lines (entries.map (·.2))) warningCount
      entries lines rowErrors
    let single := importLoop policy batchId false warningCount entries lines rowErrors
    chosen.lines = single.lines ∧ chosen.rowErrors = single.rowErrors ∧
      chosen.counters = single.counters := by
  intro chosen single
  cases hb : choosesBulk lines (entries.map (·.2)) with
  | false =>
    have e : chosen = single := by
      show importLoop policy batchId _ _ _ _ _ = _
      rw [hb]
    rw [e]
    exact ⟨rfl, rfl, rfl⟩
  | true =>
    obtain ⟨hnd, hnone⟩ := choosesBulk_iff.mp hb
    rw [map_map] at hnd
    let start := fun bulk => importStart bulk warningCount lines rowErrors
    have hstart : KeptBack (start true) (start false) :=
      ⟨⟨[], rfl, (append_nil _).symm⟩, (append_nil _).symm, rfl, rfl⟩
    obtain ⟨h, hl, he⟩ := hstart.foldl policy batchId entries hnd
      (fun entry hm => hnone entry.2 (mem_map_of_mem hm))
    obtain ⟨newLines, hnew, hlines⟩ := h.lines
    have echosen : chosen = { entries.foldl (importTurn policy batchId) (start true) with
        lines := createManyInChunks 100 (entries.foldl (importTurn policy batchId) (start true)).lines newLines
        rowErrors := createManyInChunks 100
          (entries.foldl (importTurn policy batchId) (start true)).rowErrors
          (entries.foldl (importTurn policy batchId) (start true)).newErrors } := by
      show importLoop policy batchId _ _ _ _ _ = _
      rw [hb]
      unfold importLoop
      simp only [start] at hnew ⊢
      simp only [hnew]
    have esingle : single = entries.foldl (importTurn policy batchId) (start false) := by
      show importLoop policy batchId _ _ _ _ _ = _
      have hn := h.newLines
      unfold importLoop
      simp only [start] at hn ⊢
      simp only [hn]
    rw [echosen, esingle]
    refine ⟨?_, ?_, h.counters.symm⟩
    · rw [hlines]
      exact createManyInChunks_eq _ _
    · rw [h.rowErrors]
      exact createManyInChunks_eq _ _

/-- **The bulk insert agrees with the loop over single rows**: for every store, file, duplicate
    mode and batch the transaction that may choose the bulk insert leaves the same lines, error
    records and batches, and returns the same counters, as the one that saves row after row. -/
theorem importTransaction_eq_row_by_row (policy : ConflictPolicy) (batchId now warningCount : Nat)
    (entries : List (Stamp × PreparedRow)) (store : Cafe24Store) :
    importTransaction policy batchId now warningCount entries store =
      importOnPath false policy batchId now warningCount entries store := by
  obtain ⟨hlines, herrors, hcounters⟩ := importLoop_choosesBulk policy batchId warningCount entries
    store.lines store.rowErrors
  unfold importTransaction importOnPath
  simp only [hlines, herrors, hcounters]

/-! ## 2. A row the database refuses -/

/-- What the database answers to an insert of order lines, with the texts the client reports. -/
structure LineInserts where
  refuses : Cafe24OrderLine → Bool
  createMessage : Cafe24OrderLine → String
  createManyMessage : List Cafe24OrderLine → String

/-- What `failedRowNumber` holds when an insert is refused, and the message of the error. -/
structure RefusedInsert where
  failedRowNumber : Option Nat
  message : String

variable (inserts : LineInserts) (policy : ConflictPolicy) (batchId : Nat)

/-- The first turn of the loop whose `create` is refused. The bulk path creates nothing yet. -/
def refusedTurn : ImportLoop → List (Stamp × PreparedRow) → Option RefusedInsert
  | _, [] => none
  | state, entry :: rest =>
    let saved := saveCafe24OrderLine policy batchId state.newLines.isSome state.lines entry.1 entry.2
    if state.newLines.isNone && inserts.refuses saved.line then
      some ⟨some entry.2.rowNumber, inserts.createMessage saved.line⟩
    else refusedTurn (importTurn policy batchId state entry) rest

/-- The first chunk of the bulk insert that is refused. -/
def refusedChunk (failedRowNumber : Option Nat) (newLines : List Cafe24OrderLine) : Option RefusedInsert :=
  ((chunks 100 newLines).find? fun chunk => chunk.any inserts.refuses).map fun chunk =>
    ⟨failedRowNumber, inserts.createManyMessage chunk⟩

/-- The insert that fails the transaction: in the loop, or after it, when `failedRowNumber` is
    the last row of the file. -/
def refusedInsert (bulk : Bool) (warningCount : Nat) (entries : List (Stamp × PreparedRow))
    (store : Cafe24Store) : Option RefusedInsert :=
  let start := importStart bulk warningCount store.lines store.rowErrors
  (refusedTurn inserts policy batchId start entries).orElse fun _ =>
    refusedChunk inserts (entries.getLast?.map (·.2.rowNumber))
      ((entries.foldl (importTurn policy batchId) start).newLines.getD [])

/-- The transaction and the `catch` around it: a refused insert undoes it. -/
def importInserting (bulk : Bool) (now warningCount : Nat) (entries : List (Stamp × PreparedRow))
    (store : Cafe24Store) : Cafe24Store × Option ImportCounters :=
  match refusedInsert inserts policy batchId bulk warningCount entries store with
  | some refused => (markCafe24ImportFailed batchId refused.failedRowNumber refused.message store, none)
  | none =>
    let (imported, counters) := importOnPath bulk policy batchId now warningCount entries store
    (imported, some counters)

/-- The line of a row whose key has no current line. -/
def newLine (entry : Stamp × PreparedRow) : Cafe24OrderLine :=
  (saveCafe24OrderLine policy batchId true [] entry.1 entry.2).line

/-- The bulk path gets through the loop with a line for each row. -/
theorem refusedTurn_bulk :
    ∀ (entries : List (Stamp × PreparedRow)) (state : ImportLoop) {newLines : List Cafe24OrderLine},
      state.newLines = some newLines →
      refusedTurn inserts policy batchId state entries = none ∧
        (entries.foldl (importTurn policy batchId) state).newLines =
          some (newLines ++ entries.map (newLine policy batchId))
  | [], state, newLines, h => ⟨rfl, by rw [foldl_nil, h, map_nil, append_nil]⟩
  | entry :: entries, state, newLines, h => by
    have hturn : (importTurn policy batchId state entry).newLines =
        some (newLines ++ [newLine policy batchId entry]) := by
      unfold importTurn
      simp only [h]
      rfl
    obtain ⟨hr, hl⟩ := refusedTurn_bulk entries _ hturn
    refine ⟨?_, ?_⟩
    · rw [refusedTurn, h]
      simpa using hr
    · rw [foldl_cons, hl, map_cons, append_assoc, singleton_append]

/-- Over rows of distinct keys without a current line, the loop over single rows stops at the
    first one whose line is refused. -/
theorem refusedTurn_single :
    ∀ (entries : List (Stamp × PreparedRow)) (state : ImportLoop), state.newLines = none →
      (entries.map (·.2.orderLineKey)).Nodup →
      (∀ entry ∈ entries, existingCurrentLines entry.2.orderLineKey state.lines = []) →
      (entries.foldl (importTurn policy batchId) state).newLines = none ∧
      refusedTurn inserts policy batchId state entries =
        (entries.find? fun entry => inserts.refuses (newLine policy batchId entry)).map fun entry =>
          ⟨some entry.2.rowNumber, inserts.createMessage (newLine policy batchId entry)⟩
  | [], _, h, _, _ => ⟨h, rfl⟩
  | entry :: entries, state, h, hnd, hnone => by
    obtain ⟨hkeys, hnd⟩ := nodup_cons.mp hnd
    have hsave : saveCafe24OrderLine policy batchId false state.lines entry.1 entry.2 =
        saveCafe24OrderLine policy batchId true [] entry.1 entry.2 :=
      (saveCafe24OrderLine_bulk policy batchId false entry.1 (hnone entry mem_cons_self)).symm
    have hturn : (importTurn policy batchId state entry).newLines = none ∧
        (importTurn policy batchId state entry).lines = state.lines ++ [newLine policy batchId entry] := by
      unfold importTurn
      simp only [h, Option.isSome_none, hsave, demotedIds_of_nil policy batchId true entry.1 (.inl rfl),
        clearCurrent_nil]
      exact ⟨trivial, rfl⟩
    have hrest : ∀ e ∈ entries, existingCurrentLines e.2.orderLineKey
        (importTurn policy batchId state entry).lines = [] := by
      intro e he
      rw [hturn.2]
      refine existingCurrentLines_append (hnone e (mem_cons_of_mem _ he)) fun heq => hkeys ?_
      exact mem_map.mpr ⟨e, he, heq.symm⟩
    obtain ⟨hnew, hr⟩ := refusedTurn_single entries _ hturn.1 hnd hrest
    refine ⟨hnew, ?_⟩
    rw [refusedTurn, h, hr, find?_cons]
    simp only [Option.isSome_none, Option.isNone_none, Bool.true_and, hsave]
    show (if inserts.refuses (newLine policy batchId entry) = true then _ else _) = _
    cases inserts.refuses (newLine policy batchId entry) <;> rfl

/-- Some chunk is refused exactly when some line is. -/
theorem find?_chunks_eq_none_iff {α : Type} {p : α → Bool} {l : List α} :
    (chunks 100 l).find? (fun chunk => chunk.any p) = none ↔ l.find? p = none := by
  rw [find?_eq_none, find?_eq_none]
  conv_rhs => rw [← flatten_chunks (by decide : 0 < 100) l]
  simp only [any_eq_true, mem_flatten, not_exists, not_and]
  exact ⟨fun h a ⟨chunk, hc, ha⟩ => h chunk hc a ha, fun h chunk hc a ha => h a ⟨chunk, hc, ha⟩⟩

theorem markCafe24ImportFailed_inj {rowNumber rowNumber' : Option Nat} {message message' : String}
    {store : Cafe24Store} :
    markCafe24ImportFailed batchId rowNumber message store =
      markCafe24ImportFailed batchId rowNumber' message' store ↔
      rowNumber = rowNumber' ∧ message = message' := by
  refine ⟨fun h => ?_, fun h => by rw [h.1, h.2]⟩
  have herrors := append_cancel_left (congrArg Cafe24Store.rowErrors h)
  injection herrors with herror
  exact ⟨congrArg (·.rowNumber) herror, congrArg (·.message) herror⟩

/-- **When the two paths of an import agree**: unless the bulk path is chosen, always; if it is,
    exactly when the database refuses no line, or the first line it refuses is that of the last
    row and the client's text for the refused chunk is its text for the line. -/
theorem bulk_import_agrees_iff (now warningCount : Nat) (entries : List (Stamp × PreparedRow))
    (store : Cafe24Store) :
    importInserting inserts policy batchId (choosesBulk store.lines (entries.map (·.2))) now warningCount
        entries store =
      importInserting inserts policy batchId false now warningCount entries store ↔
    (choosesBulk store.lines (entries.map (·.2)) = true → ∀ entry chunk,
      entries.find? (fun e => inserts.refuses (newLine policy batchId e)) = some entry →
      (chunks 100 (entries.map (newLine policy batchId))).find? (fun c => c.any inserts.refuses) =
        some chunk →
      entries.getLast?.map (·.2.rowNumber) = some entry.2.rowNumber ∧
        inserts.createManyMessage chunk = inserts.createMessage (newLine policy batchId entry)) := by
  cases hb : choosesBulk store.lines (entries.map (·.2)) with
  | false => exact iff_of_true rfl fun h => absurd h Bool.false_ne_true
  | true =>
    have hpath := importTransaction_eq_row_by_row policy batchId now warningCount entries store
    unfold importTransaction at hpath
    rw [hb] at hpath
    obtain ⟨hnd, hnone⟩ := choosesBulk_iff.mp hb
    rw [map_map] at hnd
    have hbulk : refusedInsert inserts policy batchId true warningCount entries store =
        ((chunks 100 (entries.map (newLine policy batchId))).find? fun c => c.any inserts.refuses).map
          fun chunk => ⟨entries.getLast?.map (·.2.rowNumber), inserts.createManyMessage chunk⟩ := by
      unfold refusedInsert
      obtain ⟨hr, hl⟩ := refusedTurn_bulk inserts policy batchId entries
        (importStart true warningCount store.lines store.rowErrors) rfl
      simp only [hr, hl, Option.orElse_none, Option.getD_some, nil_append]
      rfl
    have hsingle : refusedInsert inserts policy batchId false warningCount entries store =
        (entries.find? fun e => inserts.refuses (newLine policy batchId e)).map fun entry =>
          ⟨some entry.2.rowNumber, inserts.createMessage (newLine policy batchId entry)⟩ := by
      unfold refusedInsert
      obtain ⟨hl, hr⟩ := refusedTurn_single inserts policy batchId entries
        (importStart false warningCount store.lines store.rowErrors) rfl hnd
        fun entry hm => hnone entry.2 (mem_map_of_mem hm)
      simp only [hr, hl, Option.getD_none]
      cases entries.find? fun e => inserts.refuses (newLine policy batchId e) <;> rfl
    have hsame := find?_chunks_eq_none_iff (p := inserts.refuses)
      (l := entries.map (newLine policy batchId))
    rw [find?_map, Option.map_eq_none_iff] at hsame
    unfold importInserting
    rw [hbulk, hsingle]
    cases hc : (chunks 100 (entries.map (newLine policy batchId))).find? fun c => c.any inserts.refuses with
    | none =>
      have he := hsame.mp hc
      simp only [Function.comp_def] at he
      rw [he]
      simp only [Option.map_none, hpath]
      exact iff_of_true trivial fun _ _ _ h _ => nomatch h
    | some chunk =>
      cases he : entries.find? fun e => inserts.refuses (newLine policy batchId e) with
      | none =>
        rw [hsame.mpr he] at hc
        cases hc
      | some entry =>
        simp only [Option.map_some, Prod.mk.injEq, and_true, markCafe24ImportFailed_inj]
        constructor
        · rintro h - _ _ ⟨⟩ ⟨⟩
          exact h
        · exact fun h => h trivial entry chunk rfl rfl

/-- The text functions of plain Latin text. -/
def plainText : TextLocale where
  toLowerCase := String.toLower
  localeCompare a b := if a < b then -1 else if a = b then 0 else 1

/-- An order line of one cup. -/
def orderRow (lineOrderNo totalPaid payment : String) : RawRow :=
  [("주문번호", "20260101-1"), ("품목별 주문번호", lineOrderNo), ("총 결제금액", totalPaid),
    ("상품번호", "7"), ("주문상품명", "cup"), ("주문상품명(옵션포함)", "red"), ("수량", "1"),
    ("판매가", "1000"), ("결제수단", payment), ("발주일", "2026-01-01")]

/-- The database refuses a total beyond its column, with one text for both calls. -/
def paidColumn : LineInserts where
  refuses line := !fitsColumn 14 2 line.data.totalPaidKrw
  createMessage _ := "numeric field overflow"
  createManyMessage _ := "numeric field overflow"

/-- Two order lines, the first paid with a million million won. -/
def overpaidEntries : List (Stamp × PreparedRow) :=
  [⟨1, 1⟩, ⟨2, 2⟩].zip (preparedRows plainText zeroHash []
    [orderRow "20260101-1-01" "1000000000000" "card", orderRow "20260101-1-02" "1000" "card"])

/-- **The bulk path blames the last row**: the first row is refused, and the record of the
    failure names the second; the loop over single rows names the first. -/
theorem bulk_import_blames_last_row :
    let onPath := fun bulk => (importInserting paidColumn .SKIP 1 bulk 1 0 overpaidEntries ⟨[], [], []⟩).1
    (onPath (choosesBulk [] (overpaidEntries.map (·.2)))).rowErrors.map (·.rowNumber) = [some 3] ∧
      (onPath false).rowErrors.map (·.rowNumber) = [some 2] := by
  decide +kernel

/-! ## 3. One row keeps the invariant -/

theorem mem_existingCurrentLines {r : Cafe24OrderLine} :
    r ∈ existingCurrentLines key lines ↔ r ∈ ofKey key lines ∧ r.isCurrent = true := by
  unfold existingCurrentLines
  rw [mem_insertionSort, mem_filter]

theorem length_existingCurrentLines (h : TableInv lines) (key : String) :
    (existingCurrentLines key lines).length ≤ 1 := by
  unfold existingCurrentLines
  rw [length_insertionSort]
  exact (h.keys key).atMost

/-- A current line of the key is the one the import finds. -/
theorem head?_existingCurrentLines (h : TableInv lines) {c : Cafe24OrderLine}
    (hc : c ∈ existingCurrentLines key lines) :
    (existingCurrentLines key lines).head? = some c := by
  have hlen := length_existingCurrentLines h key
  generalize existingCurrentLines key lines = l at hc hlen
  cases l with
  | nil => cases hc
  | cons d rest =>
    have hd : d = c := eq_of_mem_of_length_le_one hlen mem_cons_self hc
    rw [head?_cons, hd]

section Save

variable (policy : ConflictPolicy) (batchId : Nat) (stamp : Stamp) (row : PreparedRow)
  (lines : List Cafe24OrderLine)

theorem accepted_saved_line (bulk : Bool) :
    (saveCafe24OrderLine policy batchId bulk lines stamp row).line.accepted = true ↔
      row.validationStatus ≠ .ERROR := by
  rw [accepted_iff]
  unfold saveCafe24OrderLine
  dsimp only
  by_cases hv : row.validationStatus = .VALID
  · refine iff_of_true (fun e => ?_) (by rw [hv]; decide)
    rw [hv] at e
    exact absurd e (by rw [ite_eq_iff]; simp)
  · rw [if_neg fun h => hv h.2]

theorem isCurrent_saved_line :
    (saveCafe24OrderLine policy batchId false lines stamp row).line.isCurrent = true ↔
      row.validationStatus ≠ .ERROR ∧
        (existingCurrentLines row.orderLineKey lines = [] ∨ policy ≠ .SKIP) := by
  show (resolveCafe24LineStoredState row.validationStatus (resolveCafe24LineImportDecision policy
    ((existingCurrentLines row.orderLineKey lines).head?.map (·.importVersion)))).isCurrent = true ↔ _
  unfold resolveCafe24LineStoredState
  by_cases hs : row.validationStatus = .ERROR
  · simp [hs]
  · cases existingCurrentLines row.orderLineKey lines with
    | nil => simp [resolveCafe24LineImportDecision, hs]
    | cons c rest => cases policy <;> simp [resolveCafe24LineImportDecision, hs]

/-- The version a saved line gets. -/
theorem importVersion_saved_line :
    (saveCafe24OrderLine policy batchId false lines stamp row).line.importVersion =
      match (existingCurrentLines row.orderLineKey lines).head? with
      | none => 1
      | some c => if policy = .NEW_VERSION then c.importVersion + 1 else c.importVersion := by
  show (resolveCafe24LineStoredState row.validationStatus (resolveCafe24LineImportDecision policy
    ((existingCurrentLines row.orderLineKey lines).head?.map (·.importVersion)))).importVersion = _
  unfold resolveCafe24LineStoredState
  cases (existingCurrentLines row.orderLineKey lines).head? <;> cases policy <;> split <;> rfl

theorem demotedIds_saved_line :
    (saveCafe24OrderLine policy batchId false lines stamp row).demotedIds =
      if (saveCafe24OrderLine policy batchId false lines stamp row).line.isCurrent = true then
        (existingCurrentLines row.orderLineKey lines).map (·.id) else [] := by
  unfold saveCafe24OrderLine resolveCafe24LineStoredState
  cases existingCurrentLines row.orderLineKey lines <;> cases policy <;>
    by_cases hs : row.validationStatus = .ERROR <;>
    simp [resolveCafe24LineImportDecision, hs]

/-- **One row of a file**: the table gains the row, and the lines of its key lose their flags
    exactly when the new line is current. -/
theorem saved_line_placed {lines : List Cafe24OrderLine} (h : TableInv lines) {saved : SavedLine}
    (hs : saveCafe24OrderLine policy batchId false lines stamp row = saved) :
    clearCurrent saved.demotedIds lines =
      (if saved.line.isCurrent then clearKey saved.line.logicalKey lines else lines) ∧
    Placed lines saved.line := by
  have hdem := demotedIds_saved_line policy batchId stamp row lines
  have hver := importVersion_saved_line policy batchId stamp row lines
  have hcur := isCurrent_saved_line policy batchId stamp row lines
  have hacc := accepted_saved_line policy batchId stamp row lines false
  have hkey : (saveCafe24OrderLine policy batchId false lines stamp row).line.logicalKey =
      row.orderLineKey := rfl
  rw [hs] at hdem hver hcur hacc hkey
  have hinv := h.keys row.orderLineKey
  refine ⟨?_, fun hc => ?_, fun hc ha => ?_⟩
  · rw [hdem]
    by_cases hc : saved.line.isCurrent = true
    · rw [if_pos hc, if_pos hc, hkey]
      exact clearCurrent_eq_clearKey h.ids fun r => mem_existingCurrentLines
    · rw [if_neg hc, if_neg hc, clearCurrent_nil]
  · refine ⟨hacc.mpr (hcur.mp hc).1, fun r hr ha => ?_⟩
    rw [hkey] at hr
    obtain ⟨c, hcm, hcc⟩ := hinv.exists_current r hr ha
    have hle : r.importVersion ≤ c.importVersion := hinv.greatest c hcm hcc r hr ha
    rw [head?_existingCurrentLines h (mem_existingCurrentLines.mpr ⟨hcm, hcc⟩)] at hver
    rw [hver]
    by_cases hn : policy = .NEW_VERSION
    · exact (Nat.le_succ_of_le hle).trans_eq (if_pos hn).symm
    · exact hle.trans_eq (if_neg hn).symm
  · have hskip : existingCurrentLines row.orderLineKey lines ≠ [] ∧ policy = .SKIP := by
      by_contra hcon
      have hc' := hcur.mpr ⟨hacc.mp ha, by tauto⟩
      rw [hc] at hc'
      cases hc'
    obtain ⟨c, hcm⟩ := exists_mem_of_ne_nil _ hskip.1
    obtain ⟨hck, hcc⟩ := mem_existingCurrentLines.mp hcm
    rw [hkey]
    refine ⟨c, hck, hcc, ?_⟩
    rw [hver, head?_existingCurrentLines h hcm, hskip.2]
    exact Nat.le_refl _

end Save

/-! ## 4. The rows of a file -/

/-- One turn of the loop that saves row after row. -/
def saveTurn (policy : ConflictPolicy) (batchId : Nat) (lines : List Cafe24OrderLine)
    (entry : Stamp × PreparedRow) : List Cafe24OrderLine :=
  let saved := saveCafe24OrderLine policy batchId false lines entry.1 entry.2
  clearCurrent saved.demotedIds lines ++ [saved.line]

theorem importLoop_lines (policy : ConflictPolicy) (batchId warningCount : Nat)
    (entries : List (Stamp × PreparedRow)) (lines : List Cafe24OrderLine)
    (rowErrors : List Cafe24UploadRowError) :
    (importLoop policy batchId false warningCount entries lines rowErrors).lines =
      entries.foldl (saveTurn policy batchId) lines := by
  have hfold : ∀ (entries : List (Stamp × PreparedRow)) (state : ImportLoop), state.newLines = none →
      (entries.foldl (importTurn policy batchId) state).newLines = none ∧
        (entries.foldl (importTurn policy batchId) state).lines =
          entries.foldl (saveTurn policy batchId) state.lines := by
    intro entries
    induction entries with
    | nil => exact fun state h => ⟨h, rfl⟩
    | cons entry entries ih =>
      intro state h
      have hturn : (importTurn policy batchId state entry).newLines = none ∧
          (importTurn policy batchId state entry).lines = saveTurn policy batchId state.lines entry := by
        unfold importTurn saveTurn
        simp only [h, Option.isSome_none]
        exact ⟨trivial, trivial⟩
      rw [foldl_cons, foldl_cons, ← hturn.2]
      exact ih _ hturn.1
  obtain ⟨hnew, hlines⟩ := hfold entries
    (importStart false warningCount lines rowErrors) rfl
  unfold importLoop
  simp only [hnew]
  exact hlines

/-- The keys of the rows without issues. -/
def acceptedKeys (entries : List (Stamp × PreparedRow)) : List String :=
  (entries.filter fun entry => entry.2.validationStatus ≠ .ERROR).map (·.2.orderLineKey)

/-- A line of the batch is the current one of the key. -/
def CurrentIn (batchId : Nat) (k : String) (lines : List Cafe24OrderLine) : Prop :=
  ∃ r ∈ lines, r.uploadBatchId = batchId ∧ r.logicalKey = k ∧ r.isCurrent = true

/-- What the rows of a file have done to the lines. -/
structure Saved (policy : ConflictPolicy) (batchId : Nat) (entries : List (Stamp × PreparedRow))
    (lines final : List Cafe24OrderLine) : Prop where
  inv : TableInv final
  keep : ∃ f, Clears (acceptedKeys entries) f ∧ kept batchId final = (kept batchId lines).map f ∧
    (policy = .SKIP → kept batchId final = kept batchId lines)
  current : ∀ k, CurrentIn batchId k final ↔ CurrentIn batchId k lines ∨
    (k ∈ acceptedKeys entries ∧ (policy ≠ .SKIP ∨ existingCurrentLines k lines = []))

variable {k : String}

theorem existingCurrentLines_eq_nil_iff_ofKey :
    existingCurrentLines k lines = [] ↔ ∀ r ∈ ofKey k lines, r.isCurrent = false := by
  rw [existingCurrentLines_eq_nil_iff]
  simp only [mem_ofKey, and_imp]

variable {n : Cafe24OrderLine}

/-- A turn only touches the lines of its key. -/
theorem ofKey_place_of_ne (hne : n.logicalKey ≠ k) (lines : List Cafe24OrderLine) :
    ofKey k ((if n.isCurrent then clearKey n.logicalKey lines else lines) ++ [n]) = ofKey k lines := by
  have en : ofKey k [n] = [] := by simp [ofKey, hne]
  rw [ofKey_append, en, append_nil]
  split
  · exact ofKey_clearKey_of_ne (Ne.symm hne) lines
  · rfl

variable {batchId : Nat}

theorem currentIn_iff_ofKey :
    CurrentIn batchId k lines ↔ ∃ r ∈ ofKey k lines, r.uploadBatchId = batchId ∧ r.isCurrent = true := by
  constructor
  · rintro ⟨r, hr, hb, hk, hc⟩
    exact ⟨r, mem_ofKey.mpr ⟨hr, hk⟩, hb, hc⟩
  · rintro ⟨r, hr, hb, hc⟩
    exact ⟨r, (mem_ofKey.mp hr).1, hb, (mem_ofKey.mp hr).2, hc⟩

/-- One turn as the placing of a line. -/
theorem saveTurn_eq_place (h : TableInv lines) (policy : ConflictPolicy) (batchId : Nat)
    (entry : Stamp × PreparedRow) :
    ∃ n : Cafe24OrderLine, n.id = entry.1.id ∧ n.uploadBatchId = batchId ∧
      n.logicalKey = entry.2.orderLineKey ∧
      (n.isCurrent = true ↔ entry.2.validationStatus ≠ .ERROR ∧
        (existingCurrentLines entry.2.orderLineKey lines = [] ∨ policy ≠ .SKIP)) ∧
      Placed lines n ∧
      saveTurn policy batchId lines entry =
        (if n.isCurrent then clearKey n.logicalKey lines else lines) ++ [n] := by
  obtain ⟨hrows, hp⟩ := saved_line_placed policy batchId entry.1 entry.2 h rfl
  refine ⟨_, rfl, rfl, rfl, isCurrent_saved_line policy batchId entry.1 entry.2 lines, hp, ?_⟩
  rw [← hrows]
  rfl

/-- The key of an entry counts when its row has no issue. -/
theorem mem_acceptedKeys_cons {entries : List (Stamp × PreparedRow)} :
    k ∈ acceptedKeys (entry :: entries) ↔
      (entry.2.validationStatus ≠ .ERROR ∧ entry.2.orderLineKey = k) ∨ k ∈ acceptedKeys entries := by
  unfold acceptedKeys
  rw [filter_cons]
  by_cases hs : entry.2.validationStatus = .ERROR
  · simp [hs]
  · rw [if_pos (by simp [hs]), map_cons, mem_cons]
    simp only [hs, ne_eq, not_false_eq_true, true_and, eq_comm]

/-- The lines of other batches after a line is placed. -/
theorem kept_place (hb : n.uploadBatchId = batchId) (lines : List Cafe24OrderLine) :
    kept batchId ((if n.isCurrent then clearKey n.logicalKey lines else lines) ++ [n]) =
      (kept batchId lines).map fun r =>
        if n.isCurrent = true ∧ r.logicalKey = n.logicalKey then r.clear else r := by
  have en : kept batchId [n] = [] := by simp [kept, hb]
  rw [kept_append, en, append_nil]
  cases n.isCurrent with
  | false => simp
  | true =>
    simp only [true_and]
    exact kept_map (fun r => by split <;> rfl) batchId lines

/-- A line that is placed is the current one of its key and batch when it is current at all. -/
theorem currentIn_place (hb : n.uploadBatchId = batchId) (lines : List Cafe24OrderLine) :
    CurrentIn batchId k ((if n.isCurrent then clearKey n.logicalKey lines else lines) ++ [n]) ↔
      CurrentIn batchId k lines ∨ (n.logicalKey = k ∧ n.isCurrent = true) := by
  by_cases hk : n.logicalKey = k
  · cases hn : n.isCurrent with
    | true =>
      refine iff_of_true ⟨n, mem_append_right _ (mem_singleton.mpr rfl), hb, hk, hn⟩ ?_
      exact .inr ⟨hk, rfl⟩
    | false =>
      simp only [CurrentIn, mem_append, mem_singleton, Bool.false_eq_true, and_false, or_false]
      constructor
      · rintro ⟨r, hr | rfl, h⟩
        · exact ⟨r, hr, h⟩
        · rw [hn] at h
          exact absurd h.2.2 Bool.false_ne_true
      · rintro ⟨r, hr, h⟩
        exact ⟨r, .inl hr, h⟩
  · rw [currentIn_iff_ofKey, ofKey_place_of_ne hk, ← currentIn_iff_ofKey]
    simp only [hk, false_and, or_false]

/-- Whether a key has a current line, after a line is placed. -/
theorem existingCurrentLines_place (lines : List Cafe24OrderLine) :
    existingCurrentLines k ((if n.isCurrent then clearKey n.logicalKey lines else lines) ++ [n]) = [] ↔
      existingCurrentLines k lines = [] ∧ ¬ (n.logicalKey = k ∧ n.isCurrent = true) := by
  rw [existingCurrentLines_eq_nil_iff_ofKey, existingCurrentLines_eq_nil_iff_ofKey]
  by_cases hk : n.logicalKey = k
  · have hmem : n ∈ ofKey k ((if n.isCurrent then clearKey n.logicalKey lines else lines) ++ [n]) :=
      mem_ofKey.mpr ⟨mem_append_right _ (mem_singleton.mpr rfl), hk⟩
    cases hn : n.isCurrent with
    | true =>
      rw [hn] at hmem
      refine iff_of_false (fun h => ?_) (fun h => h.2 ⟨hk, rfl⟩)
      rw [h n hmem] at hn
      cases hn
    | false =>
      simp only [Bool.false_eq_true, and_false, not_false_eq_true, and_true, ofKey_append]
      have en : ofKey k [n] = [n] := by simp [ofKey, hk]
      rw [en]
      constructor
      · exact fun h r hr => h r (mem_append_left _ hr)
      · intro h r hr
        rcases mem_append.mp hr with hr | hr
        · exact h r hr
        · rw [mem_singleton.mp hr, hn]
  · rw [ofKey_place_of_ne hk]
    simp only [hk, false_and, not_false_eq_true, and_true]

/-- A row that becomes current (`new`) does so as the first of its key or by replacing one. -/
theorem current_of_first_or_replaced {old new later replaces free valid : Prop}
    (h : new ↔ valid ∧ (free ∨ replaces)) :
    (old ∨ new) ∨ (later ∧ (replaces ∨ free ∧ ¬ new)) ↔ old ∨ (valid ∨ later) ∧ (replaces ∨ free) := by
  by_cases hr : replaces
  · simp only [hr, or_true, and_true, true_or] at h ⊢
    rw [h, or_assoc]
  · tauto

/-- **The rows of a file**, saved one after the other. -/
theorem saved_foldl (policy : ConflictPolicy) (batchId : Nat) :
    ∀ (entries : List (Stamp × PreparedRow)) (lines : List Cafe24OrderLine), TableInv lines →
      FreshStamps (entries.map (·.1)) lines → (∀ entry ∈ entries, IsClean entry.2.orderLineKey) →
      Saved policy batchId entries lines (entries.foldl (saveTurn policy batchId) lines)
  | [], lines, h, _, _ =>
    { inv := h
      keep := ⟨id, fun r => .inl rfl, (map_id _).symm, fun _ => rfl⟩
      current := fun k => by simp [acceptedKeys] }
  | entry :: entries, lines, h, hf, hc => by
    obtain ⟨n, hid, hb, hkey, hcur, hp, hturn⟩ := saveTurn_eq_place h policy batchId entry
    have hnew : ∀ r ∈ lines, r.id ≠ n.id := by
      intro r hr
      rw [hid]
      exact hf.fresh entry.1 mem_cons_self r hr
    have hnd := nodup_cons.mp hf.nodup
    have hinv := h.place hp hnew (by rw [hkey]; exact hc entry mem_cons_self)
    have hfresh : FreshStamps (entries.map (·.1))
        ((if n.isCurrent then clearKey n.logicalKey lines else lines) ++ [n]) := by
      refine ⟨hnd.2, fun s hs r hr => ?_⟩
      rcases mem_id_place hr with ⟨q, hq, e⟩ | rfl
      · rw [← e]
        exact hf.fresh s (mem_cons_of_mem _ hs) q hq
      · rw [hid]
        intro e
        exact hnd.1 (mem_map.mpr ⟨s, hs, e.symm⟩)
    rw [foldl_cons, hturn]
    obtain ⟨hinv', ⟨f, hclears, hkept, hskip⟩, hcurrent⟩ := saved_foldl policy batchId entries _ hinv
      hfresh (fun e he => hc e (mem_cons_of_mem _ he))
    refine ⟨hinv', ?_, fun k => (hcurrent k).trans ?_⟩
    · rw [kept_place hb] at hkept hskip
      refine ⟨fun r => f (if n.isCurrent = true ∧ r.logicalKey = n.logicalKey then r.clear else r),
        fun r => ?_, by rw [hkept, map_map]; rfl, fun hs => (hskip hs).trans ?_⟩
      · by_cases hr : n.isCurrent = true ∧ r.logicalKey = n.logicalKey
        · simp only [if_pos hr]
          refine .inr ⟨?_, mem_acceptedKeys_cons.mpr (.inl ⟨(hcur.mp hr.1).1, ?_⟩)⟩
          · rcases hclears r.clear with e | e
            · exact e
            · exact e.1
          · rw [hr.2, hkey]
        · simp only [if_neg hr]
          exact (hclears r).imp_right fun hr => ⟨hr.1, mem_acceptedKeys_cons.mpr (.inr hr.2)⟩
      · -- with SKIP a current line is placed only where no line was current
        refine (map_congr_left fun r hr => ?_).trans (map_id _)
        by_cases hn : n.isCurrent = true ∧ r.logicalKey = n.logicalKey
        · have hnone := (hcur.mp hn.1).2.resolve_right fun hne => hne hs
          rw [if_pos hn, clear_of_not_current]
          · rfl
          · exact existingCurrentLines_eq_nil_iff.mp hnone r (mem_kept.mp hr).1 (hn.2.trans hkey)
        · rw [if_neg hn]
          rfl
    · rw [currentIn_place hb, existingCurrentLines_place, mem_acceptedKeys_cons, hkey]
      by_cases hk : entry.2.orderLineKey = k
      · subst hk
        simp only [true_and, and_true]
        exact current_of_first_or_replaced hcur
      · simp only [hk, false_and, and_false, or_false, false_or, not_false_eq_true, and_true]

end AdsManagement.Cafe24
