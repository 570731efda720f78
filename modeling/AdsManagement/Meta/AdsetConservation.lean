/-
  File:      Meta/AdsetConservation.lean
  Subject:   WHAT AN ADSET-LEVEL IMPORT KEEPS OF ITS FILE: sums of the current adset metrics of a
             date against sums of the rows of that date.

  A row finds its adset by name. Two rows of one date that find the same adset have one key, and
  the second is stored as a newer version of the first: the first is no longer current and its
  amounts are gone from the date. Nothing else is lost, except what the column of the spend
  rounds away.

  * `attachRows` -- the adset each row finds, the lookup running along the file;
  * `adsetLoop_valid` -- the loop over a file of valid rows in closed form;
  * `importMetaAdsetCsv_conserves_iff` -- the sums are kept exactly when the replaced rows carry
    nothing.
-/
import AdsManagement.Meta.SnapshotImport

namespace AdsManagement.Meta

open Common Lib Coupang List

/-! ## 1. The rows and the adsets they find -/

/-- Every row of the file is valid. -/
def AdsetFileValid (toLowerCase : String → String) (file : MetaCsvFile) : Prop :=
  ∀ rawRow ∈ file.rows, (MetaCsvParser.parseRow toLowerCase rawRow).issues = []

instance (toLowerCase : String → String) (file : MetaCsvFile) : Decidable (AdsetFileValid toLowerCase file) :=
  inferInstanceAs (Decidable (∀ rawRow ∈ file.rows,
    (MetaCsvParser.parseRow toLowerCase rawRow).issues = []))

/-- A row of a file with its parsed form. -/
abbrev ReadAdsetRow := RawRow × ParsedMetaAdsetRow

def adsetFileRows (toLowerCase : String → String) (file : MetaCsvFile) : List ReadAdsetRow :=
  (parsedAdsetRows toLowerCase file).filterMap fun p => p.2.parsedRow.map fun row => (p.1, row)

/-- A row and the adset it is stored for. -/
structure AttachedRow where
  rawRow : RawRow
  row : ParsedMetaAdsetRow
  metaAdsetId : Nat

def AttachedRow.key (attached : AttachedRow) : AdsetMetricKey :=
  ⟨attached.row.metricDate, attached.metaAdsetId⟩

section Attach

variable (env : ImportEnv)

def AttachedRow.data (attached : AttachedRow) : AdsetMetricData :=
  adsetMetricCreateData attached.row attached.rawRow
    (env.matchProduct attached.metaAdsetId attached.row.adsetName attached.row.metricDate)
    (env.matchStage attached.metaAdsetId attached.row.adsetName attached.row.metricDate)

/-- `upsertAdset` and the update that follows it. -/
def attachRow (row : ParsedMetaAdsetRow) (adsets : AdsetTable) : AdsetTable × Nat :=
  let upserted := upsertAdset env.order env.now row adsets
  let metaAdset := upserted.2
  (upserted.1.update metaAdset.id
    (matchedAdset (env.matchProduct metaAdset.id row.adsetName row.metricDate).productId
      (env.matchStage metaAdset.id row.adsetName row.metricDate).stage metaAdset.firstSeenOn
      row.metricDate), metaAdset.id)

/-- The rows of a file with the adsets that the name lookup finds, one row after the other. -/
def attachRows (adsets : AdsetTable) : List ReadAdsetRow → List AttachedRow
  | [] => []
  | (rawRow, row) :: rest =>
    let attached := attachRow env row adsets
    ⟨rawRow, row, attached.2⟩ :: attachRows attached.1 rest

theorem map_row_attachRows (adsets : AdsetTable) (rows : List ReadAdsetRow) :
    (attachRows env adsets rows).map (fun a => (a.rawRow, a.row)) = rows := by
  induction rows generalizing adsets with
  | nil => rfl
  | cons r rest ih => exact congrArg _ (ih _)

/-! ## 2. The loop -/

/-- A turn over a valid row. -/
theorem adsetTurn_valid (policy : ConflictPolicy) (batchId : Nat) (state : AdsetLoop) (n : Nat)
    (rawRow : RawRow) (row : ParsedMetaAdsetRow) :
    ∃ final, adsetTurn env policy batchId state (n, rawRow, ⟨some row, []⟩) = final ∧
      final.adsets = (attachRow env row state.adsets).1 ∧
      final.adsetMetrics = offer (policy = .SKIP) batchId env.now
        (AttachedRow.key ⟨rawRow, row, (attachRow env row state.adsets).2⟩)
        (AttachedRow.data env ⟨rawRow, row, (attachRow env row state.adsets).2⟩) state.adsetMetrics ∧
      final.errorCount = state.errorCount ∧
      final.snapshotDatesByKey =
        state.snapshotDatesByKey.set (formatDateOnly row.metricDate) row.metricDate ∧
      final.includedSnapshotKeys = state.includedSnapshotKeys ++
        [snapshotMetricKey (AttachedRow.key ⟨rawRow, row, (attachRow env row state.adsets).2⟩)] := by
  refine ⟨_, rfl, rfl, ?_, ?_, rfl, rfl⟩
  · exact importVersion_table ..
  · simp [adsetTurn, RowLoop.count, RowLoop.seenDates, rowStatus_eq_error_iff]

/-- The rows as the loop sees them, all of them valid. -/
def validEntries (entries : List (Nat × RawRow × ParsedAdset)) : Prop :=
  ∀ entry ∈ entries, ∃ row, entry.2.2 = ⟨some row, []⟩

def readRows (entries : List (Nat × RawRow × ParsedAdset)) : List ReadAdsetRow :=
  entries.filterMap fun entry => entry.2.2.parsedRow.map fun row => (entry.2.1, row)

/-- **The loop over valid rows in closed form.** -/
theorem foldl_adsetTurn (policy : ConflictPolicy) (batchId : Nat)
    {entries : List (Nat × RawRow × ParsedAdset)} (hv : validEntries entries) (state : AdsetLoop) :
    ∃ final, entries.foldl (adsetTurn env policy batchId) state = final ∧
      final.adsetMetrics = (attachRows env state.adsets (readRows entries)).foldl
        (fun t a => offer (policy = .SKIP) batchId env.now a.key (a.data env) t) state.adsetMetrics ∧
      final.errorCount = state.errorCount ∧
      final.snapshotDatesByKey = ((readRows entries).map fun r =>
        (formatDateOnly r.2.metricDate, r.2.metricDate)).foldl (fun m p => m.set p.1 p.2)
          state.snapshotDatesByKey ∧
      final.includedSnapshotKeys = state.includedSnapshotKeys ++
        (attachRows env state.adsets (readRows entries)).map fun a => snapshotMetricKey a.key := by
  induction entries generalizing state with
  | nil => exact ⟨state, rfl, rfl, rfl, rfl, (append_nil _).symm⟩
  | cons entry rest ih =>
    obtain ⟨n, rawRow, parsed⟩ := entry
    obtain ⟨row, hrow⟩ := hv _ mem_cons_self
    subst hrow
    obtain ⟨mid, e, h1, h2, h3, h4, h5⟩ := adsetTurn_valid env policy batchId state n rawRow row
    obtain ⟨final, ef, g1, g2, g3, g4⟩ := ih (fun x hx => hv x (mem_cons_of_mem _ hx)) mid
    refine ⟨final, ?_, ?_, ?_, ?_, ?_⟩
    · rw [foldl_cons, e, ef]
    · rw [g1, h1, h2]
      rfl
    · rw [g2, h3]
    · rw [g3, h4]
      rfl
    · rw [g4, h5, h1, append_assoc]
      rfl

end Attach

/-! ## 3. The metrics of a date after the import -/

section File

variable {toLowerCase : String → String} {env : ImportEnv} {file : MetaCsvFile}

theorem MetaCsvParser.parseRow_isSome {rawRow : RawRow}
    (h : (MetaCsvParser.parseRow toLowerCase rawRow).issues = []) :
    ∃ row, MetaCsvParser.parseRow toLowerCase rawRow = ⟨some row, []⟩ := by
  have hfirst : MetaCsvParser.firstIssues rawRow = [] := by
    unfold MetaCsvParser.parseRow at h
    split at h
    · exact (append_eq_nil_iff.mp h).1
    · exact h
  simp only [MetaCsvParser.firstIssues, append_eq_nil_iff] at hfirst
  obtain ⟨⟨⟨⟨⟨⟨h1, h2⟩, -⟩, h3⟩, -⟩, -⟩, -⟩ := hfirst
  obtain ⟨a, ea⟩ := requiredDate_isSome h1
  obtain ⟨b, eb⟩ := requiredDate_isSome h2
  obtain ⟨c, ec⟩ := requiredText_isSome h3
  refine ⟨MetaCsvParser.build toLowerCase rawRow a b c, ?_⟩
  unfold MetaCsvParser.parseRow at h ⊢
  rw [ea, eb, ec] at h ⊢
  exact congrArg _ h

theorem validEntries_numberedRows (h : AdsetFileValid toLowerCase file) :
    validEntries (numberedRows (parsedAdsetRows toLowerCase file)) := by
  intro entry he
  have hm := mem_map_of_mem (f := (·.2)) he
  rw [map_snd_numberedRows] at hm
  obtain ⟨rawRow, hr, e⟩ := mem_map.mp hm
  rw [← e]
  exact MetaCsvParser.parseRow_isSome (h rawRow hr)

theorem readRows_numberedRows :
    readRows (numberedRows (parsedAdsetRows toLowerCase file)) = adsetFileRows toLowerCase file := by
  unfold adsetFileRows
  conv_rhs => rw [← map_snd_numberedRows (parsedAdsetRows toLowerCase file)]
  rw [filterMap_map]
  rfl

theorem readsBack_adsetFileRows {r : ReadAdsetRow} (h : r ∈ adsetFileRows toLowerCase file) :
    ReadsBack r.2.metricDate := by
  obtain ⟨p, hp, e⟩ := mem_filterMap.mp h
  obtain ⟨rawRow, -, rfl⟩ := mem_map.mp hp
  obtain ⟨row, hrow, rfl⟩ := Option.map_eq_some_iff.mp e
  exact MetaCsvParser.parseRow_date hrow

variable (toLowerCase env file) in
/-- The rows of the file with the adsets they are stored for. -/
def attachedFileRows (store : MetaStore) : List AttachedRow :=
  attachRows env store.adsets (adsetFileRows toLowerCase file)

theorem row_mem_of_attached {store : MetaStore} {a : AttachedRow}
    (h : a ∈ attachedFileRows toLowerCase env file store) :
    (a.rawRow, a.row) ∈ adsetFileRows toLowerCase file := by
  have hm := mem_map_of_mem (f := fun a : AttachedRow => (a.rawRow, a.row)) h
  unfold attachedFileRows at hm
  rwa [map_row_attachRows] at hm

variable (env) in
/-- **The loop over a file of valid rows.** -/
theorem adsetLoop_valid (hv : AdsetFileValid toLowerCase file) (policy : ConflictPolicy)
    (batchId : Nat) (stored : MetaStore) :
    (adsetLoop toLowerCase env policy batchId file stored).adsetMetrics =
        (attachedFileRows toLowerCase env file stored).foldl
          (fun t a => offer (policy = .SKIP) batchId env.now a.key (a.data env) t) stored.adsetMetrics ∧
      (adsetLoop toLowerCase env policy batchId file stored).errorCount = 0 ∧
      (adsetLoop toLowerCase env policy batchId file stored).snapshotDatesByKey =
        OrderedMap.ofList ((adsetFileRows toLowerCase file).map fun r =>
          (formatDateOnly r.2.metricDate, r.2.metricDate)) ∧
      (adsetLoop toLowerCase env policy batchId file stored).includedSnapshotKeys =
        (attachedFileRows toLowerCase env file stored).map fun a => snapshotMetricKey a.key := by
  unfold adsetLoop
  obtain ⟨final, e, h1, h2, h3, h4⟩ := foldl_adsetTurn env policy batchId (validEntries_numberedRows hv)
    (adsetLoopStart stored)
  rw [readRows_numberedRows] at h1 h3 h4
  rw [e]
  exact ⟨h1, h2, h3, h4⟩

theorem mem_adsetFileDates {date : Int} :
    date ∈ (OrderedMap.ofList ((adsetFileRows toLowerCase file).map fun r =>
        (formatDateOnly r.2.metricDate, r.2.metricDate))).values ↔
      ∃ r ∈ adsetFileRows toLowerCase file, r.2.metricDate = date := by
  have e : ((adsetFileRows toLowerCase file).map fun r =>
      (formatDateOnly r.2.metricDate, r.2.metricDate)) =
      ((adsetFileRows toLowerCase file).map (·.2.metricDate)).map fun d => (formatDateOnly d, d) := by
    rw [map_map]
    rfl
  rw [e, OrderedMap.mem_values_ofList, mem_map]
  intro d hd d' hd' h
  obtain ⟨r, hr, rfl⟩ := mem_map.mp hd
  obtain ⟨r', hr', rfl⟩ := mem_map.mp hd'
  exact formatDateOnly_inj (readsBack_adsetFileRows hr) (readsBack_adsetFileRows hr') h

/-- The versions the file offers. -/
def offered (env : ImportEnv) (attached : List AttachedRow) : List (AdsetMetricKey × AdsetMetricData) :=
  attached.map fun a => (a.key, a.data env)

theorem mem_keys_offered {attached : List AttachedRow} {k : AdsetMetricKey} :
    k ∈ (offered env attached).map (·.1) ↔ ∃ a ∈ attached, a.key = k := by
  unfold offered
  rw [map_map]
  exact mem_map

theorem readsBack_attached {store : MetaStore} {a : AttachedRow}
    (h : a ∈ attachedFileRows toLowerCase env file store) : ReadsBack a.key.metricDate := by
  have hread := readsBack_adsetFileRows (row_mem_of_attached h)
  exact hread

/-- The key of a row of the file is told from its text. -/
theorem text_mem_included_iff {store : MetaStore} {k : AdsetMetricKey} (hk : ReadsBack k.metricDate) :
    snapshotMetricKey k ∈ (attachedFileRows toLowerCase env file store).map
        (fun a => snapshotMetricKey a.key) ↔
      k ∈ (offered env (attachedFileRows toLowerCase env file store)).map (·.1) := by
  rw [mem_keys_offered, mem_map]
  constructor
  · rintro ⟨a, ha, e⟩
    have hread := readsBack_attached ha
    exact ⟨a, ha, snapshotMetricKey_inj hread hk e⟩
  · rintro ⟨a, ha, rfl⟩
    exact ⟨a, ha, rfl⟩

theorem attachedFileRows_ne_nil {store : MetaStore} {r : ReadAdsetRow}
    (h : r ∈ adsetFileRows toLowerCase file) : attachedFileRows toLowerCase env file store ≠ [] := by
  intro e
  have hm := map_row_attachRows env store.adsets (adsetFileRows toLowerCase file)
  unfold attachedFileRows at e
  rw [e] at hm
  rw [← hm] at h
  cases h

/-- The table after the file, before the other metrics of its dates are hidden. -/
def offeredTable (env : ImportEnv) (batchId : Nat) (attached : List AttachedRow) (stored : MetaStore) :
    VersionTable AdsetMetricKey AdsetMetricData :=
  (offered env attached).foldl (fun t e => offer false batchId env.now e.1 e.2 t) stored.adsetMetrics

/-- **The adset metrics after the import of a valid file.** -/
theorem adsetMetrics_importAdsetRows (hv : AdsetFileValid toLowerCase file) {policy : ConflictPolicy}
    (hp : policy ≠ .SKIP) (batchId : Nat) (stored : MetaStore) {r : ReadAdsetRow}
    (hr : r ∈ adsetFileRows toLowerCase file) :
    (importAdsetRows toLowerCase env policy batchId file stored).1.adsetMetrics =
      hide (fun key => (OrderedMap.ofList ((adsetFileRows toLowerCase file).map fun r =>
          (formatDateOnly r.2.metricDate, r.2.metricDate))).values.contains key.metricDate &&
          !((attachedFileRows toLowerCase env file stored).map
            fun a => snapshotMetricKey a.key).contains (snapshotMetricKey key))
        (offeredTable env batchId (attachedFileRows toLowerCase env file stored) stored) := by
  obtain ⟨h1, h2, h3, h4⟩ := adsetLoop_valid env hv policy batchId stored
  have hne : attachedFileRows toLowerCase env file stored ≠ [] := attachedFileRows_ne_nil hr
  have hdates : r.2.metricDate ∈ (OrderedMap.ofList ((adsetFileRows toLowerCase file).map fun r =>
      (formatDateOnly r.2.metricDate, r.2.metricDate))).values := mem_adsetFileDates.mpr ⟨r, hr, rfl⟩
  have hfold : (attachedFileRows toLowerCase env file stored).foldl
      (fun t a => offer (policy = .SKIP) batchId env.now a.key (a.data env) t) stored.adsetMetrics =
      offeredTable env batchId (attachedFileRows toLowerCase env file stored) stored := by
    unfold offeredTable offered
    rw [foldl_map, decide_eq_false hp]
  unfold importAdsetRows
  dsimp only
  rw [h1, h2, h3, h4, hfold, if_pos ⟨rfl, by simpa using length_pos_of_ne_nil hne⟩]
  unfold deactivateMissingSnapshotMetrics
  rw [if_neg]
  rintro (hz | hz)
  · rw [length_eq_zero_iff.mp hz] at hdates
    cases hdates
  · rw [length_map, length_eq_zero_iff] at hz
    exact hne hz

/-- **After the import the current metrics of a date of the file are the last rows of its adsets.** -/
theorem holds_importAdsetRows {stored : MetaStore} (h : StoreInv stored)
    (hv : AdsetFileValid toLowerCase file) {policy : ConflictPolicy} (hp : policy ≠ .SKIP) (batchId : Nat)
    {k : AdsetMetricKey} {r : ReadAdsetRow} (hr : r ∈ adsetFileRows toLowerCase file)
    (hdate : r.2.metricDate = k.metricDate) {d : AdsetMetricData} :
    Holds k d (importAdsetRows toLowerCase env policy batchId file stored).1.adsetMetrics.rows ↔
      (k, d) ∈ lastOfKey (·.1) (offered env (attachedFileRows toLowerCase env file stored)) := by
  have hread : ReadsBack k.metricDate := hdate ▸ readsBack_adsetFileRows hr
  have hin : k.metricDate ∈ (OrderedMap.ofList ((adsetFileRows toLowerCase file).map fun r =>
      (formatDateOnly r.2.metricDate, r.2.metricDate))).values := mem_adsetFileDates.mpr ⟨r, hr, hdate⟩
  have hcoh : Coherent (offeredTable env batchId (attachedFileRows toLowerCase env file stored) stored) :=
    h.aggregated.foldl_offer false batchId env.now _
  rw [adsetMetrics_importAdsetRows hv hp batchId stored hr, holds_hide hcoh]
  simp only [contains_iff_mem.mpr hin, Bool.true_and, Bool.not_eq_false', contains_iff_mem,
    text_mem_included_iff hread]
  unfold offeredTable
  rw [holds_foldl_offer h.aggregated]
  constructor
  · rintro ⟨hmem, hlast | ⟨hnot, -⟩⟩
    · exact hlast
    · exact absurd hmem hnot
  · intro hlast
    refine ⟨?_, Or.inl hlast⟩
    exact mem_map_of_mem (f := fun e : AdsetMetricKey × AdsetMetricData => e.1)
      ((lastOfKey_sublist _ _).subset hlast)

end File

/-! ## 4. Amounts -/

/-- The spend and the counts of a row. -/
inductive AdsetAmount where
  | spendUsd
  | resultCount
  | reach
  | impressions
  | linkClicks
  | shopClicks
  | clicksAll
  | landingPageViews
deriving DecidableEq

def AdsetAmount.ofRow : AdsetAmount → ParsedMetaAdsetRow → ℚ
  | .spendUsd, row => row.spendUsd
  | .resultCount, row => row.resultCount
  | .reach, row => row.reach
  | .impressions, row => row.impressions
  | .linkClicks, row => row.linkClicks
  | .shopClicks, row => row.shopClicks
  | .clicksAll, row => row.clicksAll
  | .landingPageViews, row => row.landingPageViews

def AdsetAmount.ofMetric : AdsetAmount → AdsetMetricData → ℚ
  | .spendUsd, data => data.spendUsd.value
  | .resultCount, data => data.resultCount
  | .reach, data => data.reach
  | .impressions, data => data.impressions
  | .linkClicks, data => data.linkClicks
  | .shopClicks, data => data.shopClicks
  | .clicksAll, data => data.clicksAll
  | .landingPageViews, data => data.landingPageViews

/-- What the column keeps of an amount: the spend has four decimals. -/
def AdsetAmount.stored : AdsetAmount → ParsedMetaAdsetRow → ℚ
  | .spendUsd, row => (Scaled.ofRat 4 row.spendUsd).value
  | amount, row => amount.ofRow row

theorem AdsetAmount.ofMetric_data (amount : AdsetAmount) (env : ImportEnv) (a : AttachedRow) :
    amount.ofMetric (a.data env) = amount.stored a.row := by
  cases amount <;> rfl

/-- The current adset metrics of a date, summed. -/
def metricTotal (amount : AdsetAmount) (date : Int) (store : MetaStore) : ℚ :=
  ((store.adsetMetrics.rows.filter fun m => m.current && m.key.metricDate = date).map
    fun m => amount.ofMetric m.data).sum

section

variable (toLowerCase : String → String) (file : MetaCsvFile) (amount : AdsetAmount) (date : Int)

/-- The rows of a date, summed. -/
def fileTotal : ℚ :=
  (((adsetFileRows toLowerCase file).filter fun r => r.2.metricDate = date).map
    fun r => amount.ofRow r.2).sum

/-- What rounding to the column adds to the rows of a date. -/
def roundingGain : ℚ :=
  (((adsetFileRows toLowerCase file).filter fun r => r.2.metricDate = date).map
    fun r => amount.stored r.2 - amount.ofRow r.2).sum

end

/-- The rows of a date that a later row of the same date and adset replaces, summed. -/
def replacedTotal (toLowerCase : String → String) (env : ImportEnv) (file : MetaCsvFile)
    (store : MetaStore) (amount : AdsetAmount) (date : Int) : ℚ :=
  (((withLater AttachedRow.key (attachedFileRows toLowerCase env file store)).filter
    fun a => a.row.metricDate = date).map fun a => amount.stored a.row).sum

section Totals

variable {toLowerCase : String → String} {env : ImportEnv} {file : MetaCsvFile}

theorem sum_map_filter {α : Type} (p : α → Bool) (f : α → ℚ) (l : List α) :
    ((l.filter p).map f).sum = (l.map fun a => if p a then f a else 0).sum := by
  induction l with
  | nil => rfl
  | cons a l ih =>
    by_cases h : p a
    · rw [filter_cons_of_pos h, map_cons, sum_cons, ih, map_cons, sum_cons, if_pos h]
    · rw [filter_cons_of_neg h, ih, map_cons, sum_cons, if_neg h, zero_add]

variable (env) in
/-- The rows with their adsets, summed over a date, are the rows of the file. -/
theorem sum_attached (store : MetaStore) (f : ParsedMetaAdsetRow → ℚ) :
    ((attachedFileRows toLowerCase env file store).map fun a => f a.row).sum =
      ((adsetFileRows toLowerCase file).map fun r => f r.2).sum := by
  have hm := map_row_attachRows env store.adsets (adsetFileRows toLowerCase file)
  conv_rhs => rw [← hm]
  rw [map_map]
  rfl

theorem nodup_current_entries {t : VersionTable AdsetMetricKey AdsetMetricData} (h : Coherent t)
    (p : MetaAdsetDailyMetric → Bool) :
    (((t.rows.filter fun m => m.current && p m).map fun m => (m.key, m.data))).Nodup := by
  refine Nodup.map_on ?_ (Nodup.filter _ (Nodup.of_map _ h.nodup))
  intro m hm m' hm' e
  obtain ⟨hm, hc⟩ := mem_filter.mp hm
  obtain ⟨hm', hc'⟩ := mem_filter.mp hm'
  rw [Bool.and_eq_true] at hc hc'
  exact h.oneCurrent hm hm' hc.1 hc'.1 (congrArg Prod.fst e)

variable (env) in
/-- The current metrics of a date of the file are its last rows, one for one. -/
theorem current_perm_lastOfKey {stored : MetaStore} (h : StoreInv stored)
    (hv : AdsetFileValid toLowerCase file) {policy : ConflictPolicy} (hp : policy ≠ .SKIP) (batchId : Nat)
    {r : ReadAdsetRow} (hr : r ∈ adsetFileRows toLowerCase file)
    (hcoh : Coherent (importAdsetRows toLowerCase env policy batchId file stored).1.adsetMetrics) :
    (((importAdsetRows toLowerCase env policy batchId file stored).1.adsetMetrics.rows.filter
        fun m => m.current && m.key.metricDate = r.2.metricDate).map fun m => (m.key, m.data)).Perm
      ((lastOfKey (·.1) (offered env (attachedFileRows toLowerCase env file stored))).filter
        fun e => e.1.metricDate = r.2.metricDate) := by
  refine (perm_ext_iff_of_nodup (nodup_current_entries hcoh _) ?_).mpr ?_
  · exact Nodup.filter _ (Nodup.of_map _ (nodup_lastOfKey _ _))
  · rintro ⟨k, d⟩
    rw [mem_map, mem_filter]
    constructor
    · rintro ⟨m, hm, e⟩
      obtain ⟨hm, hc⟩ := mem_filter.mp hm
      rw [Bool.and_eq_true, decide_eq_true_eq] at hc
      cases e
      exact ⟨(holds_importAdsetRows h hv hp batchId hr hc.2.symm).mp ⟨m, hm, hc.1, rfl, rfl⟩,
        decide_eq_true hc.2⟩
    · rintro ⟨hlast, hdate⟩
      have hdate' : k.metricDate = r.2.metricDate := of_decide_eq_true hdate
      obtain ⟨m, hm, hc, rfl, rfl⟩ := (holds_importAdsetRows h hv hp batchId hr hdate'.symm).mpr hlast
      exact ⟨m, mem_filter.mpr ⟨hm, by rw [hc]; exact hdate⟩, rfl⟩

variable (env) in
/-- **The current metrics of a date lack exactly the replaced rows.** -/
theorem metricTotal_add_replacedTotal {stored : MetaStore} (h : StoreInv stored)
    (hv : AdsetFileValid toLowerCase file) {policy : ConflictPolicy} (hp : policy ≠ .SKIP) (batchId : Nat)
    {r : ReadAdsetRow} (hr : r ∈ adsetFileRows toLowerCase file)
    (hcoh : Coherent (importAdsetRows toLowerCase env policy batchId file stored).1.adsetMetrics)
    (amount : AdsetAmount) :
    metricTotal amount r.2.metricDate (importAdsetRows toLowerCase env policy batchId file stored).1 +
        replacedTotal toLowerCase env file stored amount r.2.metricDate =
      fileTotal toLowerCase file amount r.2.metricDate +
        roundingGain toLowerCase file amount r.2.metricDate := by
  set date := r.2.metricDate with hdate
  set attached := attachedFileRows toLowerCase env file stored with hattached
  set onDate : AdsetMetricKey × AdsetMetricData → ℚ :=
    fun e => if e.1.metricDate = date then amount.ofMetric e.2 else 0 with honDate
  set rowOnDate : ParsedMetaAdsetRow → ℚ :=
    fun row => if row.metricDate = date then amount.stored row else 0 with hrowOnDate
  have hentry : ∀ a : AttachedRow, onDate (a.key, a.data env) = rowOnDate a.row := by
    intro a
    simp only [honDate, amount.ofMetric_data env a]
    rfl
  have hmetric : metricTotal amount date (importAdsetRows toLowerCase env policy batchId file stored).1 =
      ((lastOfKey (·.1) (offered env attached)).map onDate).sum := by
    have hperm := ((current_perm_lastOfKey env h hv hp batchId hr hcoh).map
      fun e => amount.ofMetric e.2).sum_eq
    rw [map_map] at hperm
    refine hperm.trans ?_
    rw [sum_map_filter]
    simp only [decide_eq_true_eq]
    rfl
  have hreplaced : replacedTotal toLowerCase env file stored amount date =
      ((withLater (·.1) (offered env attached)).map onDate).sum := by
    unfold replacedTotal offered
    rw [sum_map_filter, withLater_map, map_map]
    refine congrArg sum (map_congr_left fun a _ => ?_)
    rw [Function.comp_apply, hentry]
    simp [hrowOnDate]
  have hall : ((offered env attached).map onDate).sum =
      ((adsetFileRows toLowerCase file).map fun x => rowOnDate x.2).sum := by
    rw [← sum_attached env stored]
    unfold offered
    rw [map_map]
    exact congrArg sum (map_congr_left fun a _ => hentry a)
  rw [hmetric, hreplaced, sum_lastOfKey_add_sum_withLater, hall]
  unfold fileTotal roundingGain
  rw [sum_map_filter, sum_map_filter, ← sum_map_add]
  refine congrArg sum (map_congr_left fun x _ => ?_)
  simp only [hrowOnDate, decide_eq_true_eq]
  split
  · ring
  · ring

end Totals

/-! ## 5. Imports -/

/-- For every date of the file the current adset metrics sum up to the rows of the date. -/
def ConservesFile (toLowerCase : String → String) (file : MetaCsvFile) (store : MetaStore) : Prop :=
  ∀ r ∈ adsetFileRows toLowerCase file, ∀ amount : AdsetAmount,
    metricTotal amount r.2.metricDate store = fileTotal toLowerCase file amount r.2.metricDate

/-- On every date the rows that the file itself replaces carry nothing, beyond what rounding to
    four decimals adds to the spend. -/
def ReplacesNothing (toLowerCase : String → String) (env : ImportEnv) (file : MetaCsvFile)
    (store : MetaStore) : Prop :=
  ∀ r ∈ adsetFileRows toLowerCase file, ∀ amount : AdsetAmount,
    replacedTotal toLowerCase env file store amount r.2.metricDate =
      roundingGain toLowerCase file amount r.2.metricDate

/-- **An adset-level import keeps the sums of its file exactly when its rows replace nothing.** -/
theorem importMetaAdsetCsv_conserves_iff {sha1 : Sha1} {toLowerCase : String → String} {store : MetaStore}
    (h : Reachable sha1 toLowerCase store) (env : ImportEnv) (policy : ConflictPolicy) (hp : policy ≠ .SKIP)
    (file : MetaCsvFile) (hv : AdsetFileValid toLowerCase file) (batchId errorCount : Nat)
    (hi : (importMetaAdsetCsv toLowerCase env policy file store).2 = .imported batchId errorCount) :
    ConservesFile toLowerCase file (importMetaAdsetCsv toLowerCase env policy file store).1 ↔
      ReplacesNothing toLowerCase env file store := by
  have hinv := h.inv
  obtain ⟨batchId', hres, e⟩ := (importMetaAdsetCsv_stored hinv.toBatchInv toLowerCase env policy
    file).resolve_left fun hnot => hnot.2 batchId errorCount hi
  generalize storedForRows env .ADSET policy file batchId' store = stored at hres e
  have hstored := Reserved.storeInv hinv hres
  have hcoh : Coherent (importAdsetRows toLowerCase env policy batchId' file stored).1.adsetMetrics :=
    (hinv.importAdsetRows hres).aggregated
  have hattached : attachedFileRows toLowerCase env file stored = attachedFileRows toLowerCase env file store := by
    unfold attachedFileRows
    rw [hres.adsets]
  rw [e]
  refine forall_congr' fun r => forall_congr' fun hr => forall_congr' fun amount => ?_
  have hsum := metricTotal_add_replacedTotal env hstored hv hp batchId' hr hcoh amount
  have hrep : replacedTotal toLowerCase env file stored amount r.2.metricDate =
      replacedTotal toLowerCase env file store amount r.2.metricDate := by
    unfold replacedTotal
    rw [hattached]
  rw [hrep] at hsum
  constructor
  · intro hc
    linarith
  · intro hc
    linarith

/-! ## 6. A sample -/

def adsetAmounts : List AdsetAmount :=
  [.spendUsd, .resultCount, .reach, .impressions, .linkClicks, .shopClicks, .clicksAll, .landingPageViews]

theorem mem_adsetAmounts (amount : AdsetAmount) : amount ∈ adsetAmounts := by
  cases amount <;> decide

def adsetSampleRow (adsetName date spendUsd : String) : RawRow :=
  [("보고 시작", date), ("보고 종료", date), ("광고 세트 이름", adsetName), ("지출 금액 (USD)", spendUsd)]

def adsetSampleFile (rows : List RawRow) : MetaCsvFile := ⟨"h", META_ADSET_REQUIRED_COLUMNS, rows⟩

/-- Two adsets with names of their own. -/
def distinctNames : MetaCsvFile :=
  adsetSampleFile [adsetSampleRow "s" "2026-01-05" "1.5", adsetSampleRow "t" "2026-01-05" "2"]

/-- Two adsets of different campaigns with one name. -/
def sharedName : MetaCsvFile :=
  adsetSampleFile [adsetSampleRow "s" "2026-01-05" "1.5", adsetSampleRow "s" "2026-01-05" "2"]

theorem importMetaAdsetCsv_conserves_distinct_names :
    ReplacesNothing asciiLowerCase sampleEnv distinctNames emptyStore ∧
      ConservesFile asciiLowerCase distinctNames
        (importMetaAdsetCsv asciiLowerCase sampleEnv .OVERWRITE distinctNames emptyStore).1 := by
  have hnothing : ReplacesNothing asciiLowerCase sampleEnv distinctNames emptyStore := by
    have hall : ∀ r ∈ adsetFileRows asciiLowerCase distinctNames, ∀ amount ∈ adsetAmounts,
        replacedTotal asciiLowerCase sampleEnv distinctNames emptyStore amount r.2.metricDate =
          roundingGain asciiLowerCase distinctNames amount r.2.metricDate := by decide +kernel
    intro r hr amount
    exact hall r hr amount (mem_adsetAmounts amount)
  refine ⟨hnothing, (importMetaAdsetCsv_conserves_iff (.start : Reachable sampleSha1 asciiLowerCase _)
    sampleEnv .OVERWRITE (by decide) distinctNames ?_ 0 0 ?_).mpr hnothing⟩
  · decide +kernel
  · decide +kernel

/-- The first of two rows with one name is lost: 2 USD are left of 3.5. -/
theorem shared_name_loses_spend :
    ¬ ∀ (sha1 : Sha1) (toLowerCase : String → String) (store : MetaStore), Reachable sha1 toLowerCase store →
      ∀ (env : ImportEnv) (policy : ConflictPolicy), policy ≠ .SKIP →
      ∀ file : MetaCsvFile, AdsetFileValid toLowerCase file → ∀ batchId errorCount : Nat,
        (importMetaAdsetCsv toLowerCase env policy file store).2 = .imported batchId errorCount →
        ConservesFile toLowerCase file (importMetaAdsetCsv toLowerCase env policy file store).1 := by
  intro h
  have hkept := h sampleSha1 asciiLowerCase emptyStore .start sampleEnv .OVERWRITE (by decide) sharedName
    (by decide +kernel) 0 0 (by decide +kernel)
  have hlost : ∃ r ∈ adsetFileRows asciiLowerCase sharedName,
      metricTotal .spendUsd r.2.metricDate
          (importMetaAdsetCsv asciiLowerCase sampleEnv .OVERWRITE sharedName emptyStore).1 = 2 ∧
        fileTotal asciiLowerCase sharedName .spendUsd r.2.metricDate = 7 / 2 := by decide +kernel
  obtain ⟨r, hr, h1, h2⟩ := hlost
  have hsum := hkept r hr .spendUsd
  rw [h1, h2] at hsum
  norm_num at hsum

end AdsManagement.Meta
