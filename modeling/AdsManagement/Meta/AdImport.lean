/-
  File:      Meta/AdImport.lean
  Subject:   THE AD-LEVEL IMPORT IN CLOSED FORM: what the loop over the rows of a file makes of
             the tables, and the ways an import can end.

  The loop treats adsets and metrics side by side. Seen from the metrics it is a list of offers,
  one for each valid row, made to a versioned table (`adOffers`, `foldl_adTurn`); the keys that
  count for the snapshot are the keys of these rows.

  * `importVersion_table` -- the three metric imports are offers;
  * `foldl_adTurn` -- the loop, component by component;
  * `importMetaAdDailyCsv_cases` -- an import leaves the metrics alone or runs the loop for a
    batch without metrics.
-/
import AdsManagement.Meta.AdsetLinks

namespace AdsManagement.Meta

open Common Lib Coupang List

/-! ## 1. One metric -/

section Version

variable {κ δ : Type} [DecidableEq κ]

/-- **The three metric imports are offers**; under `SKIP` a key keeps its current metric. -/
theorem importVersion_table (policy : ConflictPolicy) (batchId now : Nat) (key : κ) (data : δ)
    (table : VersionTable κ δ) :
    (importVersion policy batchId now key data table).table =
      offer (policy = .SKIP) batchId now key data table := by
  unfold importVersion offer
  cases (currentRow key table.rows).isSome with
  | false => rfl
  | true =>
    cases policy with
    | SKIP | OVERWRITE | NEW_VERSION => rfl

theorem importVersion_skipped_iff {policy : ConflictPolicy} {batchId now : Nat} {key : κ} {data : δ}
    {table : VersionTable κ δ} :
    (importVersion policy batchId now key data table).skipped = true ↔
      policy = .SKIP ∧ HasCurrent key table.rows := by
  rw [← currentRow_isSome]
  unfold importVersion resolve
  cases (currentRow key table.rows).isSome with
  | false => simp
  | true =>
    cases policy with
    | SKIP | OVERWRITE | NEW_VERSION => simp

end Version

/-! ## 2. The loop over the rows -/

/-- The rows of a file whose metrics are imported. -/
def validRows (parsed : List ParsedAdDaily) : List ParsedMetaAdDailyRow :=
  parsed.filterMap fun p => if p.issues.length > 0 then none else p.parsedRow

def invalidCount (parsed : List ParsedAdDaily) : Nat :=
  parsed.countP fun p => p.issues.length > 0

def rowDates (rows : List ParsedMetaAdDailyRow) : List (String × Int) :=
  rows.map fun row => (formatDateOnly row.metricDate, row.metricDate)

section Loop

variable (toLowerCase : String → String) (env : ImportEnv)

/-- The adsets after the rows, and the keys and columns offered to the ad metrics. -/
def adOffers (adsets : AdsetTable) :
    List ParsedAdDaily → AdsetTable × List (AdMetricKey × AdMetricData)
  | [] => (adsets, [])
  | parsed :: rest =>
    match parsed.parsedRow with
    | none => adOffers adsets rest
    | some row =>
      let matched := matchAdRow toLowerCase env row adsets
      let offers := adOffers matched.adsets rest
      (offers.1,
        if parsed.issues.length > 0 then offers.2
        else (adMetricKey row, adDailyMetricCreateData row matched.metaAdsetId matched.productMatch
          matched.stageMatch) :: offers.2)

theorem adOffers_keys (adsets : AdsetTable) (parsed : List ParsedAdDaily) :
    (adOffers toLowerCase env adsets parsed).2.map (·.1) = (validRows parsed).map adMetricKey := by
  induction parsed generalizing adsets with
  | nil => rfl
  | cons p rest ih =>
    unfold adOffers validRows
    cases hp : p.parsedRow with
    | none =>
      rw [filterMap_cons_none (by rw [hp]; exact ite_self none)]
      exact ih adsets
    | some row =>
      dsimp only
      by_cases hi : p.issues.length > 0
      · rw [if_pos hi, filterMap_cons_none (by rw [if_pos hi])]
        exact ih _
      · rw [if_neg hi, filterMap_cons_some (b := row) (by rw [if_neg hi, hp])]
        exact congrArg _ (ih _)

/-- **Every offer refers to the adset that carries the external id of its key.** -/
theorem adOffers_spec {adsets : AdsetTable} (h : AdsetsInv adsets) (parsed : List ParsedAdDaily) :
    AdsetsInv (adOffers toLowerCase env adsets parsed).1 ∧
      Keeps adsets (adOffers toLowerCase env adsets parsed).1 ∧
      ∀ e ∈ (adOffers toLowerCase env adsets parsed).2,
        Refers (adOffers toLowerCase env adsets parsed).1 e.2.metaAdsetRefId e.1.metaAdsetId := by
  induction parsed generalizing adsets with
  | nil => exact ⟨h, Keeps.refl _, fun e he => by cases he⟩
  | cons p rest ih =>
    unfold adOffers
    cases hp : p.parsedRow with
    | none => exact ih h
    | some row =>
      dsimp only
      obtain ⟨h1, h2, h3⟩ := matchAdRow_spec h toLowerCase env row
      obtain ⟨h4, h5, h6⟩ := ih h1
      refine ⟨h4, h2.trans h5, fun e he => ?_⟩
      split at he
      · exact h6 e he
      · rcases mem_cons.mp he with rfl | he
        · exact h5 _ _ h3
        · exact h6 e he

theorem adOffers_cons (adsets : AdsetTable) (p : ParsedAdDaily) (rest : List ParsedAdDaily) :
    adOffers toLowerCase env adsets (p :: rest) =
      ((adOffers toLowerCase env (adOffers toLowerCase env adsets [p]).1 rest).1,
        (adOffers toLowerCase env adsets [p]).2 ++
          (adOffers toLowerCase env (adOffers toLowerCase env adsets [p]).1 rest).2) := by
  simp only [adOffers]
  cases p.parsedRow with
  | none => rfl
  | some row =>
    dsimp only
    split
    · rfl
    · rfl

/-- What the loop has made of the components that decide the metrics. -/
structure LoopResult (policy : ConflictPolicy) (batchId : Nat) (parsed : List ParsedAdDaily)
    (state final : AdLoop) : Prop where
  adsets : final.adsets = (adOffers toLowerCase env state.adsets parsed).1
  adMetrics : final.adMetrics = (adOffers toLowerCase env state.adsets parsed).2.foldl
    (fun t e => offer (policy = .SKIP) batchId env.now e.1 e.2 t) state.adMetrics
  errorCount : final.errorCount = state.errorCount + invalidCount parsed
  dates : final.snapshotDatesByKey =
    (rowDates (validRows parsed)).foldl (fun m p => m.set p.1 p.2) state.snapshotDatesByKey
  included : final.includedAdKeys =
    state.includedAdKeys ++ (validRows parsed).map fun row => snapshotAdMetricKey (adMetricKey row)

theorem rowStatus_eq_error_iff {issues : List ParseIssue} {productId : Option String} :
    rowStatus issues productId = .ERROR ↔ issues.length > 0 := by
  unfold rowStatus
  split
  · next h => exact ⟨fun _ => h, fun _ => rfl⟩
  · rename_i h
    split
    · exact ⟨nofun, fun e => absurd e h⟩
    · exact ⟨nofun, fun e => absurd e h⟩

/-- One turn, seen from these components. -/
theorem adTurn_result (policy : ConflictPolicy) (batchId : Nat) (state : AdLoop)
    (entry : Nat × ParsedAdDaily) :
    LoopResult toLowerCase env policy batchId [entry.2] state
      (adTurn toLowerCase env policy batchId state entry) := by
  obtain ⟨n, ⟨parsedRow, issues⟩⟩ := entry
  unfold adTurn
  cases parsedRow with
  | none =>
    refine ⟨rfl, rfl, ?_, ?_, ?_⟩
    · cases issues with
      | nil => rfl
      | cons i is => simp [RowLoop.count, rowStatus_eq_error_iff, invalidCount]
    · simp [RowLoop.count, validRows, rowDates]
    · simp [validRows]
  | some row =>
    dsimp only
    cases issues with
    | nil =>
      refine ⟨rfl, ?_, ?_, rfl, rfl⟩
      · exact importVersion_table ..
      · simp [RowLoop.count, RowLoop.seenDates, rowStatus_eq_error_iff, invalidCount]
    | cons i is =>
      refine ⟨rfl, ?_, ?_, ?_, ?_⟩
      · simp [RowLoop.count, RowLoop.seenDates, adOffers]
      · simp [RowLoop.count, RowLoop.seenDates, rowStatus_eq_error_iff, invalidCount]
      · simp [RowLoop.count, RowLoop.seenDates, validRows, rowDates]
      · simp [RowLoop.count, RowLoop.seenDates, validRows]

theorem validRows_cons (p : ParsedAdDaily) (rest : List ParsedAdDaily) :
    validRows (p :: rest) = validRows [p] ++ validRows rest := by
  unfold validRows
  rw [← filterMap_append]
  rfl

variable {toLowerCase env} in
theorem LoopResult.cons {policy : ConflictPolicy} {batchId : Nat} {p : ParsedAdDaily}
    {rest : List ParsedAdDaily} {state mid final : AdLoop}
    (h1 : LoopResult toLowerCase env policy batchId [p] state mid)
    (h2 : LoopResult toLowerCase env policy batchId rest mid final) :
    LoopResult toLowerCase env policy batchId (p :: rest) state final where
  adsets := by rw [h2.adsets, h1.adsets, adOffers_cons toLowerCase env state.adsets p rest]
  adMetrics := by
    rw [h2.adMetrics, h1.adMetrics, h1.adsets,
      adOffers_cons toLowerCase env state.adsets p rest, foldl_append]
  errorCount := by
    rw [h2.errorCount, h1.errorCount]
    unfold invalidCount
    rw [countP_cons, countP_cons, countP_nil]
    omega
  dates := by
    rw [h2.dates, h1.dates, validRows_cons p rest]
    unfold rowDates
    rw [map_append, foldl_append]
  included := by
    rw [h2.included, h1.included, validRows_cons p rest, map_append, append_assoc]

/-- **The loop in closed form.** -/
theorem foldl_adTurn (policy : ConflictPolicy) (batchId : Nat) (entries : List (Nat × ParsedAdDaily))
    (state : AdLoop) :
    LoopResult toLowerCase env policy batchId (entries.map (·.2)) state
      (entries.foldl (adTurn toLowerCase env policy batchId) state) := by
  induction entries generalizing state with
  | nil => exact ⟨rfl, rfl, rfl, rfl, (append_nil _).symm⟩
  | cons entry rest ih => exact (adTurn_result toLowerCase env policy batchId state entry).cons (ih _)

end Loop

/-! ## 3. The loop of a file -/

theorem map_snd_numberedRows {α : Type} (rows : List α) : (numberedRows rows).map (·.2) = rows := by
  unfold numberedRows
  rw [map_map]
  exact zipIdx_map_fst 0 rows

section File

variable (sha1 : Sha1) (toLowerCase : String → String) (env : ImportEnv) (file : MetaCsvFile)

/-- The valid rows of a file. -/
def fileRows : List ParsedMetaAdDailyRow := validRows (parsedAdRows sha1 file)

def fileKeys : List AdMetricKey := (fileRows sha1 file).map adMetricKey

/-- The dates of the snapshot, each once. -/
def fileDates : List Int := (OrderedMap.ofList (rowDates (fileRows sha1 file))).values

/-- What the file offers to the ad metrics of a store. -/
def fileOffers (store : MetaStore) : List (AdMetricKey × AdMetricData) :=
  (adOffers toLowerCase env store.adsets (parsedAdRows sha1 file)).2

variable {sha1 file}
variable {row : ParsedMetaAdDailyRow}

theorem mem_fileRows : row ∈ fileRows sha1 file ↔
    ∃ rawRow ∈ file.rows, (MetaAdDailyCsvParser.parseRow sha1 rawRow).issues = [] ∧
      (MetaAdDailyCsvParser.parseRow sha1 rawRow).parsedRow = some row := by
  unfold fileRows validRows
  rw [mem_filterMap]
  constructor
  · rintro ⟨p, hp, e⟩
    obtain ⟨rawRow, hr, rfl⟩ := mem_map.mp hp
    split at e
    · cases e
    · next hl => exact ⟨rawRow, hr, length_eq_zero_iff.mp (by omega), e⟩
  · rintro ⟨rawRow, hr, hi, e⟩
    exact ⟨_, mem_map_of_mem hr, by rw [hi]; exact e⟩

theorem readsBack_fileRows (h : row ∈ fileRows sha1 file) :
    ReadsBack row.metricDate := by
  obtain ⟨rawRow, -, -, e⟩ := mem_fileRows.mp h
  exact (MetaAdDailyCsvParser.parseRow_date e).2

theorem mem_fileDates {date : Int} :
    date ∈ fileDates sha1 file ↔ ∃ key ∈ fileKeys sha1 file, key.metricDate = date := by
  have e : rowDates (fileRows sha1 file) =
      ((fileRows sha1 file).map (·.metricDate)).map fun d => (formatDateOnly d, d) := by
    rw [map_map]
    rfl
  -- two dates of the file with one text are the same date
  have hinj : ∀ d ∈ (fileRows sha1 file).map (·.metricDate),
      ∀ d' ∈ (fileRows sha1 file).map (·.metricDate), formatDateOnly d = formatDateOnly d' → d = d' := by
    intro d hd d' hd' h
    obtain ⟨row, hr, rfl⟩ := mem_map.mp hd
    obtain ⟨row', hr', rfl⟩ := mem_map.mp hd'
    exact formatDateOnly_inj (readsBack_fileRows hr) (readsBack_fileRows hr') h
  unfold fileDates
  rw [e, OrderedMap.mem_values_ofList hinj, mem_map]
  constructor
  · rintro ⟨row, hr, rfl⟩
    exact ⟨adMetricKey row, mem_map_of_mem hr, rfl⟩
  · rintro ⟨key, hkey, rfl⟩
    obtain ⟨row, hr, rfl⟩ := mem_map.mp hkey
    exact ⟨row, hr, rfl⟩

/-- The daily key of a row is its snapshot key. -/
theorem dailyAdMetricKey_eq {rawRow : RawRow}
    (h : (MetaAdDailyCsvParser.parseRow sha1 rawRow).parsedRow = some row) :
    dailyAdMetricKey row = snapshotAdMetricKey (adMetricKey row) := by
  unfold dailyAdMetricKey snapshotAdMetricKey adMetricKey
  rw [(MetaAdDailyCsvParser.parseRow_date h).1]

theorem validRows_sublist (parsed : List ParsedAdDaily) :
    (validRows parsed).Sublist (parsed.filterMap (·.parsedRow)) := by
  have e : validRows parsed =
      (parsed.filter fun p => !decide (p.issues.length > 0)).filterMap (·.parsedRow) := by
    rw [filterMap_filter]
    refine filterMap_congr fun p _ => ?_
    by_cases h : p.issues.length > 0
    · simp [h]
    · simp [h]
  rw [e]
  exact filter_sublist.filterMap _

/-- **The keys of a file that is not rejected have different texts.** -/
theorem nodup_fileTexts (h : (dailyKeys (parsedAdRows sha1 file)).Nodup) :
    ((fileKeys sha1 file).map snapshotAdMetricKey).Nodup := by
  have e : (fileKeys sha1 file).map snapshotAdMetricKey =
      (fileRows sha1 file).map dailyAdMetricKey := by
    unfold fileKeys
    rw [map_map]
    refine map_congr_left fun row hr => ?_
    obtain ⟨rawRow, -, -, hp⟩ := mem_fileRows.mp hr
    exact (dailyAdMetricKey_eq hp).symm
  rw [e]
  exact h.sublist ((validRows_sublist _).map _)

variable (sha1 file) (policy : ConflictPolicy) (batchId : Nat) (store : MetaStore)

/-- **The loop over the rows of a file.** -/
theorem adLoop_spec :
    (adLoop sha1 toLowerCase env policy batchId file store).adsets =
        (adOffers toLowerCase env store.adsets (parsedAdRows sha1 file)).1 ∧
      (adLoop sha1 toLowerCase env policy batchId file store).adMetrics =
        (fileOffers sha1 toLowerCase env file store).foldl
          (fun t e => offer (policy = .SKIP) batchId env.now e.1 e.2 t) store.adMetrics ∧
      (adLoop sha1 toLowerCase env policy batchId file store).errorCount =
        invalidCount (parsedAdRows sha1 file) ∧
      (adLoop sha1 toLowerCase env policy batchId file store).snapshotDatesByKey.values =
        fileDates sha1 file ∧
      (adLoop sha1 toLowerCase env policy batchId file store).includedAdKeys =
        (fileKeys sha1 file).map snapshotAdMetricKey := by
  have h : ∀ state, LoopResult toLowerCase env policy batchId (parsedAdRows sha1 file) state
      ((numberedRows (parsedAdRows sha1 file)).foldl (adTurn toLowerCase env policy batchId) state) := by
    intro state
    have h := foldl_adTurn toLowerCase env policy batchId (numberedRows (parsedAdRows sha1 file)) state
    rwa [map_snd_numberedRows] at h
  refine ⟨(h _).adsets, (h _).adMetrics, ?_, ?_, ?_⟩
  · exact (h _).errorCount.trans (Nat.zero_add _)
  · exact congrArg OrderedMap.values (h _).dates
  · refine (h _).included.trans ?_
    unfold fileKeys
    rw [map_map]
    rfl

/-- The ad metrics when the loop is over. -/
def offeredAds : VersionTable AdMetricKey AdMetricData :=
  (fileOffers sha1 toLowerCase env file store).foldl
    (fun t e => offer (policy = .SKIP) batchId env.now e.1 e.2 t) store.adMetrics

/-- Whether the snapshot counts: no row is invalid and one was imported. -/
def refreshes : Bool := invalidCount (parsedAdRows sha1 file) = 0 && 0 < (fileKeys sha1 file).length

/-- **What the transaction of the rows makes of adsets and metrics.** -/
theorem importAdRows_parts :
    (importAdRows sha1 toLowerCase env policy batchId file store).1.adsets =
        (adOffers toLowerCase env store.adsets (parsedAdRows sha1 file)).1 ∧
      (importAdRows sha1 toLowerCase env policy batchId file store).1.adMetrics =
        (if refreshes sha1 file then
          deactivateMissingAdSnapshotMetrics (fileDates sha1 file)
            ((fileKeys sha1 file).map snapshotAdMetricKey)
            (offeredAds sha1 toLowerCase env file policy batchId store)
        else offeredAds sha1 toLowerCase env file policy batchId store) ∧
      (importAdRows sha1 toLowerCase env policy batchId file store).1.adsetMetrics =
        (if refreshes sha1 file then
          (refreshAdsetAggregatesFromAdMetrics toLowerCase env.order batchId env.now
            (fileDates sha1 file)
            (importAdRows sha1 toLowerCase env policy batchId file store).1.adMetrics
            store.adsetMetrics).1
        else store.adsetMetrics) ∧
      (importAdRows sha1 toLowerCase env policy batchId file store).2 =
        .imported batchId (invalidCount (parsedAdRows sha1 file)) := by
  obtain ⟨e1, e2, e3, e4, e5⟩ := adLoop_spec sha1 toLowerCase env file policy batchId store
  unfold importAdRows
  dsimp only
  rw [e1, e2, e3, e4, e5, length_map]
  have hc : (invalidCount (parsedAdRows sha1 file) = 0 ∧ (fileKeys sha1 file).length > 0) ↔
      refreshes sha1 file = true := by
    simp [refreshes]
  simp only [hc, offeredAds, and_self]

end File

/-! ## 4. How an import ends -/

/-- The step of `duplicatedValues`. -/
theorem nodup_of_duplicatedValues {values : List String} (h : duplicatedValues values = []) :
    values.Nodup := by
  have run : ∀ (values seen duplicated : List String),
      (values.foldl (fun (state : List String × List String) value =>
        (state.1 ++ [value],
          if state.1.contains value && !state.2.contains value then state.2 ++ [value] else state.2))
        (seen, duplicated)).2 = [] →
      duplicated = [] ∧ values.Nodup ∧ ∀ value ∈ values, value ∉ seen := by
    intro values
    induction values with
    | nil => intro seen duplicated h; exact ⟨h, nodup_nil, fun value hv => by cases hv⟩
    | cons value rest ih =>
      intro seen duplicated h
      obtain ⟨hd, hn, hs⟩ := ih _ _ h
      have hnot : value ∉ seen := by
        intro hm
        split at hd
        · exact absurd hd (by simp)
        · rename_i hc
          have hd' : duplicated = [] := hd
          exact hc (by simp [hm, hd'])
      rw [if_neg (by simp [hnot])] at hd
      refine ⟨hd, nodup_cons.mpr ⟨fun hm => ?_, hn⟩, fun v hv => ?_⟩
      · exact hs value hm (mem_append_right _ (mem_singleton.mpr rfl))
      · rcases mem_cons.mp hv with rfl | hv
        · exact hnot
        · exact fun hm => hs v hv (mem_append_left _ hm)
  exact (run values [] [] h).2.1

/-- Batch ids are given out once. -/
structure BatchInv (store : MetaStore) : Prop where
  ids : ∀ b ∈ store.batches, b.id < store.nextBatchId
  adMetrics : ∀ m ∈ store.adMetrics.rows, m.batch < store.nextBatchId
  adsetMetrics : ∀ m ∈ store.adsetMetrics.rows, m.batch < store.nextBatchId

/-- Only batches, rows and errors differ. -/
structure SameMetrics (store store' : MetaStore) : Prop where
  adsets : store'.adsets = store.adsets
  adMetrics : store'.adMetrics = store.adMetrics
  adsetMetrics : store'.adsetMetrics = store.adsetMetrics
  ids : ∀ b ∈ store'.batches, b.id < store'.nextBatchId
  mono : store.nextBatchId ≤ store'.nextBatchId

/-- The batch `batchId` stands in `stored` and has no metric yet. -/
structure Reserved (store stored : MetaStore) (batchId : Nat) : Prop extends
    SameMetrics store stored where
  found : ∃ b ∈ stored.batches, b.id = batchId
  unusedAd : ∀ m ∈ store.adMetrics.rows, m.batch ≠ batchId
  unusedAdset : ∀ m ∈ store.adsetMetrics.rows, m.batch ≠ batchId

variable {store stored : MetaStore}
variable {change : UploadBatch → UploadBatch} {batches : List UploadBatch} {id : Nat}

theorem mem_updateBatch (hc : ∀ b, (change b).id = b.id) {b : UploadBatch}
    (hb : b ∈ updateBatch id change batches) :
    ∃ b' ∈ batches, b.id = b'.id := by
  obtain ⟨b', hb', rfl⟩ := mem_map.mp hb
  refine ⟨b', hb', ?_⟩
  split
  · exact hc b'
  · rfl

theorem exists_updateBatch {i : Nat} (hc : ∀ b, (change b).id = b.id) (h : ∃ b ∈ batches, b.id = i) :
    ∃ b ∈ updateBatch id change batches, b.id = i := by
  obtain ⟨b, hb, rfl⟩ := h
  refine ⟨if b.id = id then change b else b, mem_map_of_mem hb, ?_⟩
  split
  · exact hc b
  · rfl

variable {file : MetaCsvFile} {env : ImportEnv}

theorem reserveBatch_spec (h : BatchInv store) {level : UploadLevel} {policy : ConflictPolicy}
    (hr : (reserveBatch env level policy file store).2.2 = true) :
    Reserved store (reserveBatch env level policy file store).1
      (reserveBatch env level policy file store).2.1 := by
  have create : ∀ duplicated, Reserved store
      { store with
        batches := store.batches ++ [newBatch env level policy file duplicated store.nextBatchId]
        nextBatchId := store.nextBatchId + 1 } store.nextBatchId := by
    intro duplicated
    refine ⟨⟨rfl, rfl, rfl, fun b hb => ?_, Nat.le_succ _⟩,
      ⟨_, mem_append_right _ (mem_singleton.mpr rfl), rfl⟩,
      fun m hm => Nat.ne_of_lt (h.adMetrics m hm), fun m hm => Nat.ne_of_lt (h.adsetMetrics m hm)⟩
    rcases mem_append.mp hb with hb | hb
    · exact Nat.lt_succ_of_lt (h.ids b hb)
    · rw [mem_singleton.mp hb]
      exact Nat.lt_succ_self _
  unfold reserveBatch at hr ⊢
  split
  · exact create false
  · rename_i duplicated e
    rw [e] at hr
    dsimp only at hr
    split at hr
    · rename_i hp
      rw [if_pos hp]
      split at hr
      · rename_i hc
        rw [if_pos hc]
        simp only [isClaimable, Bool.and_eq_true, Bool.not_eq_true', any_eq_false,
          decide_eq_true_eq] at hc
        obtain ⟨⟨⟨⟨⟨⟨⟨⟨⟨-, -⟩, -⟩, -⟩, hads⟩, hadsets⟩, -⟩, -⟩, -⟩, -⟩ := hc
        refine ⟨⟨rfl, rfl, rfl, fun b hb => ?_, Nat.le_refl _⟩,
          exists_updateBatch (fun b => by rfl) ⟨duplicated, mem_of_find?_eq_some e, rfl⟩,
          hads, hadsets⟩
        obtain ⟨b', hb', e'⟩ := mem_updateBatch (fun b => by rfl) hb
        rw [e']
        exact h.ids b' hb'
      · cases hr
    · rename_i hp
      rw [if_neg hp]
      exact create true

theorem Reserved.storedBatch {batchId : Nat} (h : Reserved store stored batchId) :
    Reserved store (storedBatch stored batchId) batchId where
  adsets := h.adsets
  adMetrics := h.adMetrics
  adsetMetrics := h.adsetMetrics
  ids := by
    intro b hb
    obtain ⟨b', hb', e⟩ := mem_updateBatch (fun b => by rfl) hb
    rw [e]
    exact h.ids b' hb'
  mono := h.mono
  found := exists_updateBatch (fun b => by rfl) h.found
  unusedAd := h.unusedAd
  unusedAdset := h.unusedAdset

theorem SameMetrics.failBatch (h : SameMetrics store stored) (batchId errorCount : Nat)
    (errors : List UploadRowError) : SameMetrics store (failBatch stored batchId errorCount errors) where
  adsets := h.adsets
  adMetrics := h.adMetrics
  adsetMetrics := h.adsetMetrics
  ids := by
    intro b hb
    obtain ⟨b', hb', e⟩ := mem_updateBatch (fun b => by rfl) hb
    rw [e]
    exact h.ids b' hb'
  mono := h.mono

theorem SameMetrics.refl (h : BatchInv store) : SameMetrics store store :=
  ⟨rfl, rfl, rfl, h.ids, Nat.le_refl _⟩

/-- The store in which the rows of a file are imported. -/
def storedForRows (env : ImportEnv) (level : UploadLevel) (policy : ConflictPolicy) (file : MetaCsvFile)
    (batchId : Nat) (store : MetaStore) : MetaStore :=
  storedBatch (reserveBatch env level policy file store).1 batchId

/-- An import leaves the metrics alone, or it runs the transaction of the rows for the batch it
    reserved, which has no metric. -/
theorem importCsv_stored (h : BatchInv store) (env : ImportEnv) (level : UploadLevel)
    (policy : ConflictPolicy) (file : MetaCsvFile) (required duplicateKeys : List String)
    (hasValidRow : Bool) (importRows : Nat → MetaStore → MetaStore × ImportOutcome) :
    let result := importCsv env level policy file required duplicateKeys hasValidRow importRows store
    (SameMetrics store result.1 ∧ ∀ batchId errorCount, result.2 ≠ .imported batchId errorCount) ∨
    ∃ batchId, Reserved store (storedForRows env level policy file batchId store) batchId ∧
      duplicateKeys = [] ∧
      result = importRows batchId (storedForRows env level policy file batchId store) := by
  unfold importCsv
  dsimp only
  split
  · exact .inl ⟨SameMetrics.refl h, nofun⟩
  · rename_i hr
    have hres := reserveBatch_spec h (by simpa using hr)
    split
    · exact .inl ⟨hres.toSameMetrics.failBatch _ _ _, nofun⟩
    · have hst := hres.storedBatch
      split
      · exact .inl ⟨hst.toSameMetrics.failBatch _ _ _, nofun⟩
      · split
        · exact .inl ⟨hst.toSameMetrics.failBatch _ _ _, nofun⟩
        · rename_i hd
          split
          · exact .inl ⟨hst.toSameMetrics.failBatch _ _ _, nofun⟩
          · split
            · exact .inl ⟨hst.toSameMetrics, nofun⟩
            · exact .inr ⟨_, hst, not_not.mp hd, rfl⟩

section

variable (h : BatchInv store) (sha1 : Sha1) (toLowerCase : String → String) (env : ImportEnv)
  (policy : ConflictPolicy) (file : MetaCsvFile)
include h

/-- **An ad-level import leaves the metrics alone, or it runs the loop for the batch it reserved,
    which has no metric, and for a file without two rows of one daily key.** -/
theorem importMetaAdDailyCsv_stored :
    (SameMetrics store (importMetaAdDailyCsv sha1 toLowerCase env policy file store).1 ∧
      ∀ batchId errorCount, (importMetaAdDailyCsv sha1 toLowerCase env policy file store).2 ≠
        .imported batchId errorCount) ∨
    ∃ batchId, Reserved store (storedForRows env .AD policy file batchId store) batchId ∧
      (dailyKeys (parsedAdRows sha1 file)).Nodup ∧
      importMetaAdDailyCsv sha1 toLowerCase env policy file store =
        importAdRows sha1 toLowerCase env policy batchId file
          (storedForRows env .AD policy file batchId store) :=
  (importCsv_stored h ..).imp_right fun ⟨batchId, hres, hd, hrun⟩ =>
    ⟨batchId, hres, nodup_of_duplicatedValues hd, hrun⟩

theorem importMetaAdDailyCsv_cases :
    (SameMetrics store (importMetaAdDailyCsv sha1 toLowerCase env policy file store).1 ∧
      ∀ batchId errorCount, (importMetaAdDailyCsv sha1 toLowerCase env policy file store).2 ≠
        .imported batchId errorCount) ∨
    ∃ stored batchId, Reserved store stored batchId ∧ (dailyKeys (parsedAdRows sha1 file)).Nodup ∧
      importMetaAdDailyCsv sha1 toLowerCase env policy file store =
        importAdRows sha1 toLowerCase env policy batchId file stored :=
  (importMetaAdDailyCsv_stored h ..).imp_right fun ⟨batchId, hrun⟩ => ⟨_, batchId, hrun⟩

end

/-- **An adset-level import leaves the metrics alone, or it runs its loop for the batch it reserved,
    which has no metric.** -/
theorem importMetaAdsetCsv_stored (h : BatchInv store) (toLowerCase : String → String)
    (env : ImportEnv) (policy : ConflictPolicy) (file : MetaCsvFile) :
    (SameMetrics store (importMetaAdsetCsv toLowerCase env policy file store).1 ∧
      ∀ batchId errorCount, (importMetaAdsetCsv toLowerCase env policy file store).2 ≠
        .imported batchId errorCount) ∨
    ∃ batchId, Reserved store (storedForRows env .ADSET policy file batchId store) batchId ∧
      importMetaAdsetCsv toLowerCase env policy file store =
        importAdsetRows toLowerCase env policy batchId file
          (storedForRows env .ADSET policy file batchId store) :=
  (importCsv_stored h ..).imp_right fun ⟨batchId, hres, _, hrun⟩ => ⟨batchId, hres, hrun⟩

end AdsManagement.Meta
