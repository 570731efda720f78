/-
  File:      Meta/MetricInvariant.lean
  Subject:   THE INVARIANT OF THE META METRICS: what holds of both metric tables, the adsets and
             the batches in every store that imports and deletions reach.

  Every operation leaves the tables coherent and adds rows for its own batch only (`Descends`);
  `StoreInv.extend` turns that into the invariant, once for all operations.

  * `StoreInv.importMetaAdDailyCsv`, `StoreInv.importMetaAdsetCsv`, `StoreInv.deleteUpload`;
  * `Reachable.inv` -- the invariant in every reachable store.
-/
import AdsManagement.Meta.AdsetRefresh

namespace AdsManagement.Meta

open Common Lib Coupang List

structure StoreInv (store : MetaStore) : Prop extends BatchInv store where
  ads : Coherent store.adMetrics
  aggregated : Coherent store.adsetMetrics
  adsets : AdsetsInv store.adsets
  linked : ∀ m ∈ store.adMetrics.rows, Refers store.adsets m.data.metaAdsetRefId m.key.metaAdsetId
  adDates : ∀ m ∈ store.adMetrics.rows, ReadsBack m.key.metricDate
  adsetDates : ∀ m ∈ store.adsetMetrics.rows, ReadsBack m.key.metricDate
  /-- A batch stores no two keys with one text. -/
  texts : ∀ m ∈ store.adMetrics.rows, ∀ m' ∈ store.adMetrics.rows, m.batch = m'.batch →
    snapshotAdMetricKey m.key = snapshotAdMetricKey m'.key → m.key = m'.key

/-! ## 1. One step -/

/-- What a step has to say about itself. -/
structure Extends (batchId : Nat) (adEntries : List (AdMetricKey × AdMetricData))
    (adsetEntries : List (AdsetMetricKey × AdsetMetricData)) (store store' : MetaStore) : Prop where
  ads : Coherent store'.adMetrics
  aggregated : Coherent store'.adsetMetrics
  adsets : AdsetsInv store'.adsets
  keeps : Keeps store.adsets store'.adsets
  ids : ∀ b ∈ store'.batches, b.id < store'.nextBatchId
  mono : store.nextBatchId ≤ store'.nextBatchId
  adRows : Descends batchId adEntries store.adMetrics store'.adMetrics
  adsetRows : Descends batchId adsetEntries store.adsetMetrics store'.adsetMetrics

variable {store store' : MetaStore}

/-- **A step that describes itself keeps the invariant**, if its batch is new and its entries are
    well formed. -/
theorem StoreInv.extend (h : StoreInv store) (batchId : Nat) (adEntries : List (AdMetricKey × AdMetricData))
    (adsetEntries : List (AdsetMetricKey × AdsetMetricData))
    (hs : Extends batchId adEntries adsetEntries store store')
    (hb : adEntries ≠ [] ∨ adsetEntries ≠ [] → batchId < store'.nextBatchId)
    (hunused : ∀ m ∈ store.adMetrics.rows, adEntries ≠ [] → m.batch ≠ batchId)
    (hrefs : ∀ e ∈ adEntries, Refers store'.adsets e.2.metaAdsetRefId e.1.metaAdsetId)
    (hdates : ∀ e ∈ adEntries, ReadsBack e.1.metricDate)
    (hadset : ∀ e ∈ adsetEntries, ReadsBack e.1.metricDate)
    (htexts : ∀ e ∈ adEntries, ∀ e' ∈ adEntries, snapshotAdMetricKey e.1 = snapshotAdMetricKey e'.1 →
      e.1 = e'.1) : StoreInv store' where
  ids := hs.ids
  adMetrics := by
    intro m hm
    rcases hs.adRows m hm with ⟨s, hs', e⟩ | ⟨e, hn⟩
    · rw [e]
      exact Nat.lt_of_lt_of_le (h.adMetrics s hs') hs.mono
    · rw [e]
      exact hb (.inl (ne_nil_of_mem hn))
  adsetMetrics := by
    intro m hm
    rcases hs.adsetRows m hm with ⟨s, hs', e⟩ | ⟨e, hn⟩
    · rw [e]
      exact Nat.lt_of_lt_of_le (h.adsetMetrics s hs') hs.mono
    · rw [e]
      exact hb (.inr (ne_nil_of_mem hn))
  ads := hs.ads
  aggregated := hs.aggregated
  adsets := hs.adsets
  linked := by
    intro m hm
    rcases hs.adRows m hm with ⟨s, hs', e⟩ | ⟨-, hn⟩
    · rw [e]
      exact hs.keeps _ _ (h.linked s hs')
    · exact hrefs (m.key, m.data) hn
  adDates := by
    intro m hm
    rcases hs.adRows m hm with ⟨s, hs', e⟩ | ⟨-, hn⟩
    · rw [e]
      exact h.adDates s hs'
    · exact hdates (m.key, m.data) hn
  adsetDates := by
    intro m hm
    rcases hs.adsetRows m hm with ⟨s, hs', e⟩ | ⟨-, hn⟩
    · rw [e]
      exact h.adsetDates s hs'
    · exact hadset (m.key, m.data) hn
  texts := by
    intro m hm m' hm' ebatch etext
    rcases hs.adRows m hm with ⟨s, hs1, e⟩ | ⟨hb1, hn⟩ <;>
      rcases hs.adRows m' hm' with ⟨s', hs2, e'⟩ | ⟨hb2, hn'⟩
    · rw [e, e'] at ebatch etext ⊢
      exact h.texts s hs1 s' hs2 ebatch etext
    · rw [e, hb2] at ebatch
      exact absurd ebatch (hunused s hs1 (ne_nil_of_mem hn'))
    · rw [e', hb1] at ebatch
      exact absurd ebatch.symm (hunused s' hs2 (ne_nil_of_mem hn))
    · exact htexts (m.key, m.data) hn (m'.key, m'.data) hn' etext

/-- A step without entries: it changes flags, drops rows or leaves the metrics alone. -/
theorem StoreInv.extend_nil (h : StoreInv store) (hs : Extends 0 [] [] store store') : StoreInv store' := by
  refine h.extend 0 [] [] hs (fun hne => ?_) (fun m _ hne => absurd rfl hne)
    (fun e he => ?_) (fun e he => ?_) (fun e he => ?_) (fun e he => ?_)
  · rcases hne with hne | hne
    · exact absurd rfl hne
    · exact absurd rfl hne
  · cases he
  · cases he
  · cases he
  · cases he

theorem StoreInv.of_sameMetrics (h : StoreInv store) (hs : SameMetrics store store') : StoreInv store' := by
  refine h.extend_nil ⟨?_, ?_, ?_, ?_, hs.ids, hs.mono, ?_, ?_⟩
  · rw [hs.adMetrics]; exact h.ads
  · rw [hs.adsetMetrics]; exact h.aggregated
  · rw [hs.adsets]; exact h.adsets
  · rw [hs.adsets]; exact Keeps.refl _
  · rw [hs.adMetrics]; exact Descends.refl
  · rw [hs.adsetMetrics]; exact Descends.refl

/-! ## 2. Hiding and refreshing -/

section Refresh

variable (dates : List Int) (included : List String) (batchId : Nat)

theorem deactivateAd_spec {table : VersionTable AdMetricKey AdMetricData} (h : Coherent table)
    (entries : List (AdMetricKey × AdMetricData)) :
    Coherent (deactivateMissingAdSnapshotMetrics dates included table) ∧
      Descends batchId entries table (deactivateMissingAdSnapshotMetrics dates included table) := by
  unfold deactivateMissingAdSnapshotMetrics
  split
  · exact ⟨h, Descends.refl⟩
  · exact ⟨h.hide _, Descends.hide _⟩

variable {table : VersionTable AdsetMetricKey AdsetMetricData}

theorem deactivateAdset_spec (h : Coherent table) (entries : List (AdsetMetricKey × AdsetMetricData)) :
    Coherent (deactivateMissingSnapshotMetrics dates included table) ∧
      Descends batchId entries table (deactivateMissingSnapshotMetrics dates included table) := by
  unfold deactivateMissingSnapshotMetrics
  split
  · exact ⟨h, Descends.refl⟩
  · exact ⟨h.hide _, Descends.hide _⟩

/-- The entries a refresh can store. -/
def refreshEntries (toLowerCase : String → String) (order : QueryOrder) (dates : List Int)
    (ads : VersionTable AdMetricKey AdMetricData) : List (AdsetMetricKey × AdsetMetricData) :=
  (refreshAggregates toLowerCase order dates ads).map fun a => (a.key, a.data)

theorem refresh_spec (h : Coherent table) (toLowerCase : String → String) (order : QueryOrder) (now : Nat)
    (ads : VersionTable AdMetricKey AdMetricData) :
    Coherent (refreshAdsetAggregatesFromAdMetrics toLowerCase order batchId now dates ads table).1 ∧
      Descends batchId (refreshEntries toLowerCase order dates ads) table
        (refreshAdsetAggregatesFromAdMetrics toLowerCase order batchId now dates ads table).1 := by
  unfold refreshAdsetAggregatesFromAdMetrics
  split
  · exact ⟨h, Descends.refl⟩
  · dsimp only
    rw [foldl_aggregateTurn]
    have h1 := h.foldl_offer false batchId now (refreshEntries toLowerCase order dates ads)
    have h2 : Descends batchId (refreshEntries toLowerCase order dates ads) table _ :=
      Descends.foldl_offer false now (refreshEntries toLowerCase order dates ads) fun e he => he
    split
    · obtain ⟨h3, h4⟩ := deactivateAdset_spec dates _ batchId h1
        (refreshEntries toLowerCase order dates ads)
      exact ⟨h3, h2.trans h4⟩
    · exact ⟨h1, h2⟩

end Refresh

/-! ## 3. The ad-level import -/

section AdImport

variable {sha1 : Sha1} {toLowerCase : String → String} {env : ImportEnv} {policy : ConflictPolicy}
  {file : MetaCsvFile} {stored : MetaStore} {batchId : Nat}

theorem mem_finishBatch {now validRowCount warningCount errorCount importedCount : Nat}
    {reportStart reportEnd : Option Int} {batches : List UploadBatch} {b : UploadBatch}
    (hb : b ∈ finishBatch batchId now validRowCount warningCount errorCount importedCount reportStart
      reportEnd batches) : ∃ b' ∈ batches, b.id = b'.id := mem_updateBatch (fun _ => by rfl) hb

theorem mem_fileOffers {e : AdMetricKey × AdMetricData}
    (he : e ∈ fileOffers sha1 toLowerCase env file store) : e.1 ∈ fileKeys sha1 file := by
  have h := adOffers_keys toLowerCase env store.adsets (parsedAdRows sha1 file)
  have hm := mem_map_of_mem (f := (·.1)) he
  unfold fileOffers at hm
  rw [h] at hm
  exact hm

/-- The adset metrics an import of a file can store. -/
def adsetEntriesOf (sha1 : Sha1) (toLowerCase : String → String) (env : ImportEnv)
    (policy : ConflictPolicy) (batchId : Nat) (file : MetaCsvFile) (store : MetaStore) :
    List (AdsetMetricKey × AdsetMetricData) :=
  refreshEntries toLowerCase env.order (fileDates sha1 file)
    (importAdRows sha1 toLowerCase env policy batchId file store).1.adMetrics

theorem coherent_offeredAds (h : Coherent store.adMetrics) :
    Coherent (offeredAds sha1 toLowerCase env file policy batchId store) := h.foldl_offer _ _ _ _

theorem importAdRows_extends (h : StoreInv store) (hr : Reserved store stored batchId) :
    Extends batchId (fileOffers sha1 toLowerCase env file stored)
      (adsetEntriesOf sha1 toLowerCase env policy batchId file stored) store
      (importAdRows sha1 toLowerCase env policy batchId file stored).1 := by
  obtain ⟨e1, e2, e3, -⟩ := importAdRows_parts sha1 toLowerCase env file policy batchId stored
  have hads : Coherent stored.adMetrics := by rw [hr.adMetrics]; exact h.ads
  have hagg : Coherent stored.adsetMetrics := by rw [hr.adsetMetrics]; exact h.aggregated
  have hsets : AdsetsInv stored.adsets := by rw [hr.adsets]; exact h.adsets
  have hoff : Coherent (offeredAds sha1 toLowerCase env file policy batchId stored) :=
    coherent_offeredAds hads
  have hdesc : Descends batchId (fileOffers sha1 toLowerCase env file stored) stored.adMetrics
      (offeredAds sha1 toLowerCase env file policy batchId stored) :=
    Descends.foldl_offer _ _ _ fun e he => he
  obtain ⟨h1, h2, -⟩ := adOffers_spec toLowerCase env hsets (parsedAdRows sha1 file)
  have hhide := deactivateAd_spec (fileDates sha1 file) ((fileKeys sha1 file).map snapshotAdMetricKey)
    batchId hoff (fileOffers sha1 toLowerCase env file stored)
  have hrefresh := refresh_spec (fileDates sha1 file) batchId hagg toLowerCase env.order env.now
    (importAdRows sha1 toLowerCase env policy batchId file stored).1.adMetrics
  refine ⟨?_, ?_, ?_, ?_, ?_, hr.mono, ?_, ?_⟩
  · rw [e2]
    split
    · exact hhide.1
    · exact hoff
  · rw [e3]
    split
    · exact hrefresh.1
    · exact hagg
  · rw [e1]; exact h1
  · rw [e1, ← hr.adsets]; exact h2
  · intro b hb
    obtain ⟨b', hb', e⟩ := mem_finishBatch hb
    rw [e]
    exact hr.ids b' hb'
  · rw [e2, ← hr.adMetrics]
    split
    · exact hdesc.trans hhide.2
    · exact hdesc
  · rw [e3, ← hr.adsetMetrics]
    split
    · exact hrefresh.2
    · exact Descends.refl

theorem readsBack_fileKeys {key : AdMetricKey} (h : key ∈ fileKeys sha1 file) :
    ReadsBack key.metricDate := by
  obtain ⟨row, hr, rfl⟩ := mem_map.mp h
  exact readsBack_fileRows hr

variable (toLowerCase env policy) in
theorem StoreInv.importAdRows (h : StoreInv store) (hr : Reserved store stored batchId)
    (hn : (dailyKeys (parsedAdRows sha1 file)).Nodup) :
    StoreInv (importAdRows sha1 toLowerCase env policy batchId file stored).1 := by
  have hext : Extends batchId (fileOffers sha1 toLowerCase env file stored)
      (adsetEntriesOf sha1 toLowerCase env policy batchId file stored) store
      (Meta.importAdRows sha1 toLowerCase env policy batchId file stored).1 :=
    importAdRows_extends h hr
  have hdates : ∀ e ∈ fileOffers sha1 toLowerCase env file stored, ReadsBack e.1.metricDate :=
    fun e he => readsBack_fileKeys (mem_fileOffers he)
  have hafter : ∀ m ∈ (Meta.importAdRows sha1 toLowerCase env policy batchId file stored).1.adMetrics.rows,
      ReadsBack m.key.metricDate := by
    intro m hm
    rcases hext.adRows m hm with ⟨s, hs, e⟩ | ⟨-, hnew⟩
    · rw [e]
      exact h.adDates s hs
    · exact hdates (m.key, m.data) hnew
  have hsets : AdsetsInv stored.adsets := by rw [hr.adsets]; exact h.adsets
  refine h.extend batchId _ _ hext (fun _ => ?_) (fun m hm _ => hr.unusedAd m hm) (fun e he => ?_) hdates
    (fun e he => ?_) (fun e he e' he' et => ?_)
  · obtain ⟨b, hb, rfl⟩ := hr.found
    exact hr.ids b hb
  · rw [(importAdRows_parts sha1 toLowerCase env file policy batchId stored).1]
    exact (adOffers_spec toLowerCase env hsets (parsedAdRows sha1 file)).2.2 e he
  · obtain ⟨a, ha, rfl⟩ := mem_map.mp he
    exact (key_of_mem_refreshAggregates hafter ha).2
  · exact inj_on_of_nodup_map (nodup_fileTexts hn) (mem_fileOffers he) (mem_fileOffers he') et

theorem StoreInv.importMetaAdDailyCsv (h : StoreInv store) :
    StoreInv (importMetaAdDailyCsv sha1 toLowerCase env policy file store).1 := by
  rcases importMetaAdDailyCsv_cases h.toBatchInv sha1 toLowerCase env policy file with
    ⟨hs, -⟩ | ⟨stored, batchId, hr, hn, e⟩
  · exact h.of_sameMetrics hs
  · rw [e]
    exact h.importAdRows toLowerCase env policy hr hn

end AdImport

/-! ## 4. The adset-level import -/

section AdsetImport

variable {toLowerCase : String → String} {env : ImportEnv} {policy : ConflictPolicy}
  {file : MetaCsvFile} {stored : MetaStore} {batchId : Nat}

/-- What the loop over the rows keeps, seen from the store it started with. -/
structure AdsetLoopInv (stored : MetaStore) (batchId : Nat) (state : AdsetLoop) : Prop where
  adsets : AdsetsInv state.adsets
  keeps : Keeps stored.adsets state.adsets
  coherent : Coherent state.adsetMetrics
  rows : ∃ entries, Descends batchId entries stored.adsetMetrics state.adsetMetrics ∧
    ∀ e ∈ entries, ReadsBack e.1.metricDate

variable {state : AdsetLoop}

theorem AdsetLoopInv.adsetTurn (h : AdsetLoopInv stored batchId state) (entry : Nat × RawRow × ParsedAdset)
    (hd : ∀ row, entry.2.2.parsedRow = some row → ReadsBack row.metricDate) :
    AdsetLoopInv stored batchId (adsetTurn env policy batchId state entry) := by
  unfold Meta.adsetTurn
  cases hp : entry.2.2.parsedRow with
  | none => exact ⟨h.adsets, h.keeps, h.coherent, h.rows⟩
  | some row =>
    dsimp only
    obtain ⟨h1, h2⟩ := h.adsets.upsertAdset env.order env.now row
    obtain ⟨h3, h4⟩ := h1.matched (upsertAdset env.order env.now row state.adsets).2.id
      (env.matchProduct (upsertAdset env.order env.now row state.adsets).2.id row.adsetName
        row.metricDate).productId
      (env.matchStage (upsertAdset env.order env.now row state.adsets).2.id row.adsetName
        row.metricDate).stage
      (upsertAdset env.order env.now row state.adsets).2.firstSeenOn row.metricDate
    split
    · exact ⟨h3, (h.keeps.trans h2).trans h4, h.coherent, h.rows⟩
    · obtain ⟨entries, hdesc, hdates⟩ := h.rows
      refine ⟨h3, (h.keeps.trans h2).trans h4, ?_, ?_⟩
      · unfold importMetric
        rw [importVersion_table]
        exact h.coherent.offer _ _ _ _ _
      · unfold importMetric
        rw [importVersion_table]
        refine ⟨(⟨row.metricDate, (upsertAdset env.order env.now row state.adsets).2.id⟩, _) :: entries,
          (hdesc.mono fun e he => mem_cons_of_mem _ he).trans
            (Descends.offer _ _ mem_cons_self), fun e he => ?_⟩
        rcases mem_cons.mp he with rfl | he
        · exact hd row hp
        · exact hdates e he

theorem AdsetLoopInv.foldl {entries : List (Nat × RawRow × ParsedAdset)}
    (hd : ∀ entry ∈ entries, ∀ row, entry.2.2.parsedRow = some row → ReadsBack row.metricDate)
    (h : AdsetLoopInv stored batchId state) :
    AdsetLoopInv stored batchId (entries.foldl (Meta.adsetTurn env policy batchId) state) := by
  induction entries generalizing state with
  | nil => exact h
  | cons entry rest ih =>
    exact ih (fun e he => hd e (mem_cons_of_mem _ he)) (h.adsetTurn entry (hd entry mem_cons_self))

theorem adsetLoop_inv (h : StoreInv store) (hr : Reserved store stored batchId) :
    AdsetLoopInv stored batchId (adsetLoop toLowerCase env policy batchId file stored) := by
  refine AdsetLoopInv.foldl (fun entry he row hp => ?_) ⟨?_, Keeps.refl _, ?_, [], Descends.refl, ?_⟩
  · have hm := mem_map_of_mem (f := (·.2)) he
    rw [map_snd_numberedRows] at hm
    obtain ⟨rawRow, -, e⟩ := mem_map.mp hm
    rw [← e] at hp
    exact MetaCsvParser.parseRow_date hp
  · show AdsetsInv stored.adsets
    rw [hr.adsets]
    exact h.adsets
  · show Coherent stored.adsetMetrics
    rw [hr.adsetMetrics]
    exact h.aggregated
  · intro e he; cases he

theorem StoreInv.importAdsetRows (h : StoreInv store) (hr : Reserved store stored batchId) :
    StoreInv (importAdsetRows toLowerCase env policy batchId file stored).1 := by
  have hloop : AdsetLoopInv stored batchId (adsetLoop toLowerCase env policy batchId file stored) :=
    adsetLoop_inv h hr
  obtain ⟨entries, hdesc, hdates⟩ := hloop.rows
  have hhide := deactivateAdset_spec
    (adsetLoop toLowerCase env policy batchId file stored).snapshotDatesByKey.values
    (adsetLoop toLowerCase env policy batchId file stored).includedSnapshotKeys batchId hloop.coherent
    entries
  refine h.extend batchId [] entries ⟨?_, ?_, hloop.adsets, ?_, ?_, hr.mono, ?_, ?_⟩ (fun _ => ?_)
    (fun m _ hne => absurd rfl hne) (fun e he => by cases he) (fun e he => by cases he) hdates
    (fun e he => by cases he)
  · show Coherent stored.adMetrics
    rw [hr.adMetrics]
    exact h.ads
  · unfold Meta.importAdsetRows
    dsimp only
    split
    · exact hhide.1
    · exact hloop.coherent
  · rw [← hr.adsets]
    exact hloop.keeps
  · intro b hb
    obtain ⟨b', hb', e⟩ := mem_finishBatch hb
    rw [e]
    exact hr.ids b' hb'
  · show Descends batchId [] store.adMetrics stored.adMetrics
    rw [hr.adMetrics]
    exact Descends.refl
  · unfold Meta.importAdsetRows
    dsimp only
    rw [← hr.adsetMetrics]
    split
    · exact hdesc.trans hhide.2
    · exact hdesc
  · obtain ⟨b, hb, rfl⟩ := hr.found
    exact hr.ids b hb

theorem StoreInv.importMetaAdsetCsv (h : StoreInv store) :
    StoreInv (importMetaAdsetCsv toLowerCase env policy file store).1 := by
  rcases importMetaAdsetCsv_stored h.toBatchInv toLowerCase env policy file with
    ⟨hs, -⟩ | ⟨batchId, hr, e⟩
  · exact h.of_sameMetrics hs
  · rw [e]
    exact h.importAdsetRows hr

end AdsetImport

/-! ## 5. Deletions and runs -/

theorem StoreInv.deleteUpload (h : StoreInv store) (retains : Bool) (id : Nat) :
    StoreInv (deleteUpload retains id store) := by
  unfold Meta.deleteUpload
  split
  · have h1 := h.ads.removeBatch id
    have h2 := h.aggregated.removeBatch id
    exact h.extend_nil ⟨h1.foldl_reelect _, h2.foldl_reelect _, h.adsets, Keeps.refl _,
      fun b hb => h.ids b (mem_filter.mp hb).1, Nat.le_refl _,
      (Descends.removeBatch id).trans (Descends.foldl_reelect h1 _),
      (Descends.removeBatch id).trans (Descends.foldl_reelect h2 _)⟩
  · exact h

theorem StoreInv.empty : StoreInv emptyStore where
  ids := by intro b hb; cases hb
  adMetrics := by intro m hm; cases hm
  adsetMetrics := by intro m hm; cases hm
  ads := Coherent.empty
  aggregated := Coherent.empty
  adsets := ⟨nodup_nil, fun a ha => (by cases ha), fun a ha => (by cases ha)⟩
  linked := by intro m hm; cases hm
  adDates := by intro m hm; cases hm
  adsetDates := by intro m hm; cases hm
  texts := by intro m hm; cases hm

variable {sha1 : Sha1} {toLowerCase : String → String}

theorem StoreInv.run (h : StoreInv store) (operation : Operation) :
    StoreInv (operation.run sha1 toLowerCase store) := by
  cases operation with
  | importMetaAdDailyCsv env policy file => exact h.importMetaAdDailyCsv
  | importMetaAdsetCsv env policy file => exact h.importMetaAdsetCsv
  | deleteUpload retains id => exact h.deleteUpload retains id

theorem Reachable.runAll (h : Reachable sha1 toLowerCase store) (operations : List Operation) :
    Reachable sha1 toLowerCase (runAll sha1 toLowerCase operations store) := by
  induction operations generalizing store with
  | nil => exact h
  | cons operation rest ih => exact ih (h.step operation)

/-- **The invariant holds in every reachable store.** -/
theorem Reachable.inv (h : Reachable sha1 toLowerCase store) : StoreInv store := by
  induction h with
  | start => exact StoreInv.empty
  | step operation _ ih => exact ih.run operation

end AdsManagement.Meta
