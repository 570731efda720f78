/-
  File:      Meta/SnapshotImport.lean
  Subject:   A SNAPSHOT IMPORT: what both metric tables hold after an ad-level file without an
             invalid row has been imported.

  Stored metrics keep their place. A metric loses its flag when its key is stored again, or when
  its date is in the file and the text of its key is not; the new versions follow at the end
  (`importAdRows_adRows`). The texts of the file decide its keys as long as the ids of the file
  hold no colon (`snapshotAdMetricKey_inj`).

  * `hasCurrent_importAdRows` -- the current keys of a date of the file are the file's keys;
  * `current_adset_importAdRows` -- the current adset metrics of these dates are the aggregates;
  * `reachable_snapshot` -- both, with the invariant, for every reachable store.
-/
import AdsManagement.Lib.Separated
import AdsManagement.Meta.MetricInvariant

namespace AdsManagement.Meta

open Common Lib Coupang List

/-! ## 1. The texts of ad metric keys -/

/-- The parts of a key after its date. -/
def idParts (key : AdMetricKey) : List (List Char) :=
  [key.metaCampaignId.toList, key.metaAdsetId.toList, key.adIdentityKey.toList]

theorem toList_snapshotAdMetricKey (key : AdMetricKey) :
    (snapshotAdMetricKey key).toList =
      (formatDateOnly key.metricDate).toList ++ ':' :: join ':' (idParts key) := by
  unfold snapshotAdMetricKey idParts join
  simp [intercalate_cons_cons]

/-- **A key whose ids hold no colon is read back from its text.** -/
theorem snapshotAdMetricKey_inj {a b : AdMetricKey} (ha : ReadsBack a.metricDate)
    (hb : ReadsBack b.metricDate) (hcolon : ∀ part ∈ idParts a, ':' ∉ part)
    (h : snapshotAdMetricKey a = snapshotAdMetricKey b) : a = b := by
  have hl := congrArg String.toList h
  rw [toList_snapshotAdMetricKey, toList_snapshotAdMetricKey] at hl
  obtain ⟨hd, h2⟩ := formatDateOnly_append_inj ha hb hl
  have hparts : idParts a = idParts b := eq_of_join_eq hcolon rfl (cons.inj h2).2
  unfold idParts at hparts
  simp only [cons.injEq, String.toList_inj, and_true] at hparts
  obtain ⟨h3, h4, h5⟩ := hparts
  cases b
  cases hd
  cases h3
  cases h4
  cases h5
  rfl

/-- The ids of a row hold no colon. -/
def IdsWithoutColon (row : ParsedMetaAdDailyRow) : Prop :=
  ':' ∉ row.metaCampaignId.toList ∧ ':' ∉ row.metaAdsetExternalId.toList ∧
    ∀ metaAdId ∈ row.metaAdId, ':' ∉ metaAdId.toList

instance (row : ParsedMetaAdDailyRow) : Decidable (IdsWithoutColon row) :=
  inferInstanceAs (Decidable (':' ∉ row.metaCampaignId.toList ∧ ':' ∉ row.metaAdsetExternalId.toList ∧
    ∀ metaAdId ∈ row.metaAdId, ':' ∉ metaAdId.toList))

variable {row : ParsedMetaAdDailyRow} {rawRow : RawRow} {sha1 : Sha1}

theorem adIdentityKey_eq (h : (MetaAdDailyCsvParser.parseRow sha1 rawRow).parsedRow = some row) :
    row.adIdentityKey = row.metaAdId.getD
      (syntheticAdKey sha1 row.metaCampaignId row.metaAdsetExternalId row.adName) := by
  unfold MetaAdDailyCsvParser.parseRow at h
  split at h
  · cases h
    rfl
  · cases h

theorem idParts_of_row (h : (MetaAdDailyCsvParser.parseRow sha1 rawRow).parsedRow = some row)
    (hids : IdsWithoutColon row) :
    ∀ part ∈ idParts (adMetricKey row), ':' ∉ part := by
  have hident : ':' ∉ row.adIdentityKey.toList := by
    rw [adIdentityKey_eq h]
    cases hid : row.metaAdId with
    | some metaAdId => exact hids.2.2 metaAdId hid
    | none =>
      -- a digest consists of hexadecimal digits
      intro hm
      exact absurd ((sha1.hex _).2 ':' hm) (by decide)
  intro part hp
  unfold idParts at hp
  simp only [mem_cons, not_mem_nil, or_false] at hp
  rcases hp with rfl | rfl | rfl
  · exact hids.1
  · exact hids.2.1
  · exact hident

/-! ## 2. The ad metrics in closed form -/

section AdRows

variable {toLowerCase : String → String} {env : ImportEnv} {policy : ConflictPolicy}
  {file : MetaCsvFile} {store : MetaStore} {batchId : Nat}

variable (sha1 toLowerCase env policy file store) in
/-- The offers that are stored as new versions. -/
def takenOffers : List (AdMetricKey × AdMetricData) :=
  storedEntries (policy = .SKIP) store.adMetrics.rows (fileOffers sha1 toLowerCase env file store)

variable (sha1 policy file store) in
/-- The keys of these offers. -/
def isTaken (key : AdMetricKey) : Bool :=
  key ∈ fileKeys sha1 file && !(policy = .SKIP && decide (HasCurrent key store.adMetrics.rows))

variable (sha1 file) in
/-- The keys that the snapshot hides. -/
def isMissing (key : AdMetricKey) : Bool :=
  (fileDates sha1 file).contains key.metricDate &&
    !((fileKeys sha1 file).map snapshotAdMetricKey).contains (snapshotAdMetricKey key)

variable (sha1 toLowerCase env file store) in
theorem map_fst_fileOffers :
    (fileOffers sha1 toLowerCase env file store).map (·.1) = fileKeys sha1 file :=
  adOffers_keys toLowerCase env store.adsets (parsedAdRows sha1 file)

variable {key : AdMetricKey}

theorem mem_takenOffers_keys :
    key ∈ (takenOffers sha1 toLowerCase env policy file store).map (·.1) ↔
      isTaken sha1 policy file store key = true := by
  unfold takenOffers isTaken
  rw [← map_fst_fileOffers sha1 toLowerCase env file store]
  constructor
  · intro h
    obtain ⟨e, he, rfl⟩ := mem_map.mp h
    obtain ⟨he, hk⟩ := mem_filter.mp he
    rw [Bool.and_eq_true]
    exact ⟨decide_eq_true (mem_map_of_mem he), hk⟩
  · intro h
    rw [Bool.and_eq_true] at h
    obtain ⟨e, he, rfl⟩ := mem_map.mp (of_decide_eq_true h.1)
    exact mem_map_of_mem (mem_filter.mpr ⟨he, h.2⟩)

theorem nodup_fileKeys (hn : (dailyKeys (parsedAdRows sha1 file)).Nodup) :
    (fileKeys sha1 file).Nodup := Nodup.of_map _ (nodup_fileTexts hn)

variable (toLowerCase env policy batchId) in
theorem offeredAds_rows (hc : Coherent store.adMetrics)
    (hn : (dailyKeys (parsedAdRows sha1 file)).Nodup) :
    ∃ news, (offeredAds sha1 toLowerCase env file policy batchId store).rows =
        hideKeys (isTaken sha1 policy file store) store.adMetrics.rows ++ news ∧
      Forall₂ (IsVersionOf batchId) (takenOffers sha1 toLowerCase env policy file store) news := by
  have hn' : ((fileOffers sha1 toLowerCase env file store).map (·.1)).Nodup := by
    rw [map_fst_fileOffers]
    exact nodup_fileKeys hn
  obtain ⟨news, hrows, hnews⟩ := foldl_offer_rows hc (policy = .SKIP) batchId env.now hn'
  refine ⟨news, ?_, hnews⟩
  unfold offeredAds
  rw [hrows]
  refine congrArg (· ++ news) (hideKeys_congr fun r _ => ?_)
  exact Bool.eq_iff_iff.mpr (decide_eq_true_iff.trans mem_takenOffers_keys)

/-- A key of the file is not missing from it. -/
theorem isMissing_of_mem (h : key ∈ fileKeys sha1 file) :
    isMissing sha1 file key = false := by
  unfold isMissing
  rw [contains_iff_mem.mpr (mem_map_of_mem h), Bool.not_true, Bool.and_false]

theorem mem_fileKeys_of_taken {e : AdMetricKey × AdMetricData}
    (he : e ∈ takenOffers sha1 toLowerCase env policy file store) : e.1 ∈ fileKeys sha1 file :=
  mem_fileOffers (mem_filter.mp he).1

variable (toLowerCase env policy batchId) in
/-- **The ad metrics after the rows of a file.** -/
theorem importAdRows_adRows (hc : Coherent store.adMetrics)
    (hn : (dailyKeys (parsedAdRows sha1 file)).Nodup) :
    ∃ news, (importAdRows sha1 toLowerCase env policy batchId file store).1.adMetrics.rows =
        hideKeys (fun key => isTaken sha1 policy file store key ||
          (refreshes sha1 file && isMissing sha1 file key)) store.adMetrics.rows ++ news ∧
      Forall₂ (IsVersionOf batchId) (takenOffers sha1 toLowerCase env policy file store) news := by
  obtain ⟨news, hrows, hnews⟩ := offeredAds_rows toLowerCase env policy batchId hc hn
  refine ⟨news, ?_, hnews⟩
  rw [(importAdRows_parts sha1 toLowerCase env file policy batchId store).2.1]
  cases hr : refreshes sha1 file with
  | false =>
    rw [if_neg Bool.false_ne_true, hrows]
    exact congrArg (· ++ news) (hideKeys_congr fun r _ => by rw [Bool.false_and, Bool.or_false])
  | true =>
    have hlen : 0 < (fileKeys sha1 file).length := by
      simp only [refreshes, Bool.and_eq_true, decide_eq_true_eq] at hr
      exact hr.2
    have hdates : (fileDates sha1 file).length ≠ 0 := by
      obtain ⟨key, hkey⟩ := exists_mem_of_length_pos hlen
      exact (length_pos_of_mem (mem_fileDates.mpr ⟨key, hkey, rfl⟩)).ne'
    unfold deactivateMissingAdSnapshotMetrics
    rw [if_pos rfl, if_neg (by rw [length_map]; omega), hide_rows (coherent_offeredAds hc), hrows,
      hideKeys_append, hideKeys_hideKeys]
    refine congrArg₂ (· ++ ·) (hideKeys_congr fun r _ => ?_) (hideKeys_of_not fun r hr' => ?_)
    · rfl
    · obtain ⟨e, he, hv⟩ := entry_of_mem_news hnews hr'
      rw [hv.key]
      exact isMissing_of_mem (mem_fileKeys_of_taken he)

/-- A key of the file has a current metric when the loop is over. -/
theorem hasCurrent_of_mem_fileKeys (hc : Coherent store.adMetrics)
    (hn : (dailyKeys (parsedAdRows sha1 file)).Nodup) (hkey : key ∈ fileKeys sha1 file) :
    HasCurrent key (importAdRows sha1 toLowerCase env policy batchId file store).1.adMetrics.rows := by
  obtain ⟨news, hrows, hnews⟩ := importAdRows_adRows toLowerCase env policy batchId hc hn
  rw [hrows, hasCurrent_hide_append hnews, mem_takenOffers_keys, Bool.or_eq_false_iff]
  cases htaken : isTaken sha1 policy file store key with
  | true => exact .inr rfl
  | false =>
    -- the row was skipped, so its key has a current metric
    refine .inl ⟨?_, rfl, by rw [isMissing_of_mem hkey, Bool.and_false]⟩
    unfold isTaken at htaken
    rw [decide_eq_true hkey, Bool.true_and, Bool.not_eq_false', Bool.and_eq_true] at htaken
    exact of_decide_eq_true htaken.2

theorem refreshes_iff : refreshes sha1 file = true ↔
    invalidCount (parsedAdRows sha1 file) = 0 ∧ fileKeys sha1 file ≠ [] := by
  unfold refreshes
  rw [Bool.and_eq_true, decide_eq_true_iff, decide_eq_true_iff, length_pos_iff]

/-- A stored key whose text is in the file is a key of the file. -/
theorem mem_fileKeys_of_text (hids : ∀ row ∈ fileRows sha1 file, IdsWithoutColon row)
    (hd : ReadsBack key.metricDate)
    (h : snapshotAdMetricKey key ∈ (fileKeys sha1 file).map snapshotAdMetricKey) :
    key ∈ fileKeys sha1 file := by
  obtain ⟨key', hkey', e⟩ := mem_map.mp h
  obtain ⟨row, hrow, rfl⟩ := mem_map.mp hkey'
  obtain ⟨rawRow, -, -, hp⟩ := mem_fileRows.mp hrow
  rw [← snapshotAdMetricKey_inj (readsBack_fileKeys hkey') hd (idParts_of_row hp (hids row hrow)) e]
  exact hkey'

/-- **The current keys of a date of the file are the keys of the file.** -/
theorem hasCurrent_importAdRows (hc : Coherent store.adMetrics)
    (hd : ∀ m ∈ store.adMetrics.rows, ReadsBack m.key.metricDate)
    (hn : (dailyKeys (parsedAdRows sha1 file)).Nodup)
    (hids : ∀ row ∈ fileRows sha1 file, IdsWithoutColon row) (hr : refreshes sha1 file = true)
    (hdate : key.metricDate ∈ fileDates sha1 file) :
    HasCurrent key (importAdRows sha1 toLowerCase env policy batchId file store).1.adMetrics.rows ↔
      key ∈ fileKeys sha1 file := by
  refine ⟨fun hcur => ?_, fun hkey => hasCurrent_of_mem_fileKeys hc hn hkey⟩
  obtain ⟨news, hrows, hnews⟩ := importAdRows_adRows toLowerCase env policy batchId hc hn
  rw [hrows, hasCurrent_hide_append hnews, mem_takenOffers_keys, hr, Bool.true_and,
    Bool.or_eq_false_iff] at hcur
  rcases hcur with ⟨⟨m, hm, rfl, -⟩, -, hmiss⟩ | htaken
  · refine mem_fileKeys_of_text hids (hd m hm) ?_
    unfold isMissing at hmiss
    rw [contains_iff_mem.mpr hdate, Bool.true_and, Bool.not_eq_false'] at hmiss
    exact contains_iff_mem.mp hmiss
  · unfold isTaken at htaken
    rw [Bool.and_eq_true] at htaken
    exact of_decide_eq_true htaken.1

/-- The ad metrics of other dates stay as they are. -/
theorem importAdRows_frame (hc : Coherent store.adMetrics)
    (hn : (dailyKeys (parsedAdRows sha1 file)).Nodup) :
    (importAdRows sha1 toLowerCase env policy batchId file store).1.adMetrics.rows.filter
        (fun m => !(fileDates sha1 file).contains m.key.metricDate) =
      store.adMetrics.rows.filter fun m => !(fileDates sha1 file).contains m.key.metricDate := by
  obtain ⟨news, hrows, hnews⟩ := importAdRows_adRows toLowerCase env policy batchId hc hn
  rw [hrows]
  refine filter_hide_append (q := fun key : AdMetricKey =>
    !(fileDates sha1 file).contains key.metricDate) hnews (fun key hq => ?_) fun e he => ?_
  · have hq' : (fileDates sha1 file).contains key.metricDate = false := by simpa using hq
    rw [Bool.or_eq_false_iff]
    constructor
    · unfold isTaken
      have hnot : key ∉ fileKeys sha1 file := fun hk => by
        rw [contains_iff_mem.mpr (mem_fileDates.mpr ⟨key, hk, rfl⟩)] at hq'
        cases hq'
      rw [decide_eq_false hnot, Bool.false_and]
    · unfold isMissing
      rw [hq', Bool.false_and, Bool.and_false]
  · rw [contains_iff_mem.mpr (mem_fileDates.mpr ⟨e.1, mem_fileKeys_of_taken he, rfl⟩)]
    rfl

end AdRows

/-! ## 3. The adset metrics in closed form -/

section AdsetRows

variable {toLowerCase : String → String} {env : ImportEnv} {policy : ConflictPolicy}
  {file : MetaCsvFile} {store stored : MetaStore} {batchId : Nat}

theorem Reserved.storeInv (h : StoreInv store) (hres : Reserved store stored batchId) :
    StoreInv stored := h.of_sameMetrics hres.toSameMetrics

variable (h : StoreInv store) (hres : Reserved store stored batchId)
  (hn : (dailyKeys (parsedAdRows sha1 file)).Nodup)
include h hres hn

variable (toLowerCase env policy) in
/-- **The adset metrics after a snapshot**: the metrics of its dates are hidden and one follows for
    each date and adset with a current ad metric. -/
theorem importAdRows_adsetRows (hr : refreshes sha1 file = true) :
    ∃ news, (importAdRows sha1 toLowerCase env policy batchId file stored).1.adsetMetrics.rows =
        hideKeys (fun key => (fileDates sha1 file).contains key.metricDate) stored.adsetMetrics.rows ++
          news ∧
      Forall₂ (IsVersionOf batchId) (refreshEntries toLowerCase env.order (fileDates sha1 file)
        (importAdRows sha1 toLowerCase env policy batchId file stored).1.adMetrics) news := by
  have hstored := Reserved.storeInv h hres
  have hafter := h.importAdRows toLowerCase env policy hres hn
  rw [(importAdRows_parts sha1 toLowerCase env file policy batchId stored).2.2.1, if_pos hr]
  refine refresh_rows hstored.aggregated hafter.adDates hstored.adsetDates fun hnil => ?_
  -- the file has a key, its metric is current, and so there is an aggregate for it
  obtain ⟨key, hkey⟩ := exists_mem_of_ne_nil _ (refreshes_iff.mp hr).2
  have hcur : HasCurrent key
      (importAdRows sha1 toLowerCase env policy batchId file stored).1.adMetrics.rows :=
    hasCurrent_of_mem_fileKeys hstored.ads hn hkey
  obtain ⟨m, hm, rfl, hc⟩ := hcur
  obtain ⟨a, ha, -⟩ :=
    exists_refreshAggregate hafter.adDates hm hc (mem_fileDates.mpr ⟨m.key, hkey, rfl⟩)
  rw [hnil] at ha
  cases ha

/-- On the dates of a snapshot an adset has a current metric if and only if one of its ads has. -/
theorem hasCurrent_adset_importAdRows (hr : refreshes sha1 file = true) {key : AdsetMetricKey} (hdate : key.metricDate ∈ fileDates sha1 file) :
    HasCurrent key (importAdRows sha1 toLowerCase env policy batchId file stored).1.adsetMetrics.rows ↔
      ∃ m ∈ (importAdRows sha1 toLowerCase env policy batchId file stored).1.adMetrics.rows,
        m.current = true ∧ adsetKeyOf m = key := by
  have hafter := h.importAdRows toLowerCase env policy hres hn
  obtain ⟨news, hrows, hnews⟩ := importAdRows_adsetRows toLowerCase env policy h hres hn hr
  rw [hrows, hasCurrent_hide_append hnews]
  constructor
  · rintro (⟨-, hp⟩ | hm)
    · rw [contains_iff_mem.mpr hdate] at hp
      cases hp
    · obtain ⟨e, he, rfl⟩ := mem_map.mp hm
      obtain ⟨a, ha, rfl⟩ := mem_map.mp he
      obtain ⟨m, hm, hk⟩ := (isAggregateOf_refreshAggregates hafter.adDates ha).exists_metric
      obtain ⟨hm, hc, -⟩ := mem_refreshed.mp hm
      exact ⟨m, hm, hc, hk⟩
  · rintro ⟨m, hm, hc, rfl⟩
    obtain ⟨a, ha, e⟩ := exists_refreshAggregate hafter.adDates hm hc hdate
    exact .inr (mem_map.mpr ⟨(a.key, a.data), mem_map.mpr ⟨a, ha, rfl⟩, e⟩)

/-- **The current adset metrics of these dates are the aggregates of their current ad metrics.** -/
theorem current_adset_importAdRows (hr : refreshes sha1 file = true) {m : MetaAdsetDailyMetric}
    (hm : m ∈ (importAdRows sha1 toLowerCase env policy batchId file stored).1.adsetMetrics.rows)
    (hc : m.current = true) (hdate : m.key.metricDate ∈ fileDates sha1 file) :
    IsAggregateOf toLowerCase (env.order.adMetrics (currentOnDates (fileDates sha1 file)
      (importAdRows sha1 toLowerCase env policy batchId file stored).1.adMetrics.rows))
      ⟨m.key, m.data⟩ := by
  have hafter := h.importAdRows toLowerCase env policy hres hn
  obtain ⟨news, hrows, hnews⟩ := importAdRows_adsetRows toLowerCase env policy h hres hn hr
  rw [hrows] at hm
  rcases mem_append.mp hm with hm | hm
  · obtain ⟨-, -, hp⟩ := mem_hideKeys_current.mp ⟨hm, hc⟩
    rw [contains_iff_mem.mpr hdate] at hp
    cases hp
  · obtain ⟨e, he, hv⟩ := entry_of_mem_news hnews hm
    obtain ⟨a, ha, rfl⟩ := mem_map.mp he
    rw [hv.key, hv.data]
    exact isAggregateOf_refreshAggregates hafter.adDates ha

/-- The adset metrics of other dates stay as they are. -/
theorem importAdRows_adset_frame :
    (importAdRows sha1 toLowerCase env policy batchId file stored).1.adsetMetrics.rows.filter
        (fun m => !(fileDates sha1 file).contains m.key.metricDate) =
      stored.adsetMetrics.rows.filter fun m => !(fileDates sha1 file).contains m.key.metricDate := by
  cases hr : refreshes sha1 file with
  | false =>
    rw [(importAdRows_parts sha1 toLowerCase env file policy batchId stored).2.2.1, hr,
      if_neg Bool.false_ne_true]
  | true =>
    have hafter := h.importAdRows toLowerCase env policy hres hn
    obtain ⟨news, hrows, hnews⟩ := importAdRows_adsetRows toLowerCase env policy h hres hn hr
    rw [hrows]
    refine filter_hide_append (q := fun key : AdsetMetricKey =>
      !(fileDates sha1 file).contains key.metricDate) hnews (fun key hq => ?_) fun e he => ?_
    · simpa using hq
    · obtain ⟨a, ha, rfl⟩ := mem_map.mp he
      rw [contains_iff_mem.mpr (key_of_mem_refreshAggregates hafter.adDates ha).1]
      rfl

end AdsetRows

/-! ## 4. Every reachable store -/

/-- What a snapshot import has to achieve. -/
structure SnapshotOf (sha1 : Sha1) (toLowerCase : String → String) (env : ImportEnv) (file : MetaCsvFile)
    (store store' : MetaStore) : Prop where
  adKeys : ∀ key : AdMetricKey, key.metricDate ∈ fileDates sha1 file →
    (HasCurrent key store'.adMetrics.rows ↔ key ∈ fileKeys sha1 file)
  adsetKeys : ∀ key : AdsetMetricKey, key.metricDate ∈ fileDates sha1 file →
    (HasCurrent key store'.adsetMetrics.rows ↔ ∃ row ∈ fileRows sha1 file,
      row.metricDate = key.metricDate ∧ Refers store'.adsets key.metaAdsetId row.metaAdsetExternalId)
  aggregates : ∀ m ∈ store'.adsetMetrics.rows, m.current = true → m.key.metricDate ∈ fileDates sha1 file →
    IsAggregateOf toLowerCase (env.order.adMetrics
      (currentOnDates (fileDates sha1 file) store'.adMetrics.rows)) ⟨m.key, m.data⟩
  otherAds : store'.adMetrics.rows.filter
      (fun m => !(fileDates sha1 file).contains m.key.metricDate) =
    store.adMetrics.rows.filter fun m => !(fileDates sha1 file).contains m.key.metricDate
  otherAdsets : store'.adsetMetrics.rows.filter
      (fun m => !(fileDates sha1 file).contains m.key.metricDate) =
    store.adsetMetrics.rows.filter fun m => !(fileDates sha1 file).contains m.key.metricDate

section Reachable

variable {toLowerCase : String → String}

/-- Every row of the file is valid. -/
def FileValid (sha1 : Sha1) (file : MetaCsvFile) : Prop :=
  ∀ rawRow ∈ file.rows, (MetaAdDailyCsvParser.parseRow sha1 rawRow).issues = []

instance (sha1 : Sha1) (file : MetaCsvFile) : Decidable (FileValid sha1 file) :=
  inferInstanceAs (Decidable (∀ rawRow ∈ file.rows,
    (MetaAdDailyCsvParser.parseRow sha1 rawRow).issues = []))

variable {file : MetaCsvFile}

theorem FileValid.refreshes (h : FileValid sha1 file) {date : Int} (hdate : date ∈ fileDates sha1 file) :
    refreshes sha1 file = true := by
  obtain ⟨key, hkey, -⟩ := mem_fileDates.mp hdate
  refine refreshes_iff.mpr ⟨?_, ne_nil_of_mem hkey⟩
  unfold invalidCount
  rw [countP_eq_zero]
  intro p hp
  obtain ⟨rawRow, hr, rfl⟩ := mem_map.mp hp
  rw [h rawRow hr]
  simp

/-- The import of a valid file is a snapshot import. -/
theorem StoreInv.snapshot {store stored : MetaStore} (h : StoreInv store) {batchId : Nat}
    (hres : Reserved store stored batchId) {env : ImportEnv} {policy : ConflictPolicy}
    (hn : (dailyKeys (parsedAdRows sha1 file)).Nodup) (hvalid : FileValid sha1 file)
    (hids : ∀ row ∈ fileRows sha1 file, IdsWithoutColon row) :
    SnapshotOf sha1 toLowerCase env file store
      (Meta.importAdRows sha1 toLowerCase env policy batchId file stored).1 := by
  have hstored := Reserved.storeInv h hres
  have hafter := h.importAdRows toLowerCase env policy hres hn
  have hkeys : ∀ key : AdMetricKey, key.metricDate ∈ fileDates sha1 file →
      (HasCurrent key (Meta.importAdRows sha1 toLowerCase env policy batchId file
        stored).1.adMetrics.rows ↔ key ∈ fileKeys sha1 file) := fun key hdate =>
    hasCurrent_importAdRows hstored.ads hstored.adDates hn hids (hvalid.refreshes hdate) hdate
  refine ⟨hkeys, fun key hdate => ?_, fun m hm hc hdate => ?_, ?_, ?_⟩
  · rw [hasCurrent_adset_importAdRows h hres hn (hvalid.refreshes hdate) hdate]
    constructor
    · rintro ⟨m, hm, hc, rfl⟩
      obtain ⟨row, hrow, e⟩ := mem_map.mp ((hkeys m.key hdate).mp ⟨m, hm, rfl, hc⟩)
      have hlink := hafter.linked m hm
      rw [← e] at hlink
      exact ⟨row, hrow, congrArg AdMetricKey.metricDate e, hlink⟩
    · rintro ⟨row, hrow, hd, href⟩
      have hkey : adMetricKey row ∈ fileKeys sha1 file := mem_map_of_mem hrow
      have hdate' : (adMetricKey row).metricDate ∈ fileDates sha1 file :=
        mem_fileDates.mpr ⟨_, hkey, rfl⟩
      obtain ⟨m, hm, e, hc⟩ := (hkeys _ hdate').mpr hkey
      have hlink := hafter.linked m hm
      rw [e] at hlink
      refine ⟨m, hm, hc, ?_⟩
      unfold adsetKeyOf
      rw [e, hafter.adsets.refers_id hlink href]
      cases key
      cases hd
      rfl
  · exact current_adset_importAdRows h hres hn (hvalid.refreshes hdate) hm hc hdate
  · rw [← hres.adMetrics]
    exact importAdRows_frame hstored.ads hn
  · rw [← hres.adsetMetrics]
    exact importAdRows_adset_frame h hres hn

/-- **In every reachable store two metrics of one key differ in version and are not both current,
    and an import of valid rows makes the store a snapshot of its file.** -/
theorem reachable_snapshot {store : MetaStore} (h : Reachable sha1 toLowerCase store) :
    (store.adMetrics.rows.Pairwise fun m m' => m.key = m'.key →
        m.version ≠ m'.version ∧ ¬ (m.current ∧ m'.current)) ∧
      (store.adsetMetrics.rows.Pairwise fun m m' => m.key = m'.key →
        m.version ≠ m'.version ∧ ¬ (m.current ∧ m'.current)) ∧
      ∀ (env : ImportEnv) (policy : ConflictPolicy) (file : MetaCsvFile) (batchId errorCount : Nat),
        FileValid sha1 file → (∀ row ∈ fileRows sha1 file, IdsWithoutColon row) →
        (importMetaAdDailyCsv sha1 toLowerCase env policy file store).2 =
          .imported batchId errorCount →
        SnapshotOf sha1 toLowerCase env file store
          (importMetaAdDailyCsv sha1 toLowerCase env policy file store).1 := by
  have hinv := h.inv
  refine ⟨hinv.ads.pairwise, hinv.aggregated.pairwise, ?_⟩
  intro env policy file batchId errorCount hvalid hids himported
  rcases importMetaAdDailyCsv_cases hinv.toBatchInv sha1 toLowerCase env policy file with
    ⟨-, hnot⟩ | ⟨stored, id, hres, hn, e⟩
  · exact absurd himported (hnot batchId errorCount)
  · rw [e]
    exact hinv.snapshot hres hn hvalid hids

end Reachable

/-! ## 5. A sample -/

def asciiLowerCase (text : String) : String := String.ofList (text.toList.map lowerChar)

/-- The digest of `1|2|a`, the ids and the name of every row below. -/
def sampleSha1 : Sha1 where
  digest := fun _ => "e4cae96eebf80108ebf9d34cfa0e435618c37da8"
  hex := fun _ => isHexDigest (by decide +kernel)

def sampleEnv : ImportEnv where
  now := 0
  order := ⟨fun l => l, fun l => Perm.refl l, fun l => l, fun l => Perm.refl l⟩
  matchProduct := fun _ _ _ => ⟨none, .UNMATCHED, none⟩
  matchStage := fun _ _ _ => ⟨.UNKNOWN, .UNMATCHED⟩
  duplicateHash := "second copy"
  leaseExpired := false
  storageFails := false
  ratesError := none
  aborts := false

def sampleRow (date metaAdId spendUsd : String) : RawRow :=
  [("보고 시작", date), ("보고 종료", date), ("캠페인 이름", "c"), ("캠페인 ID", "1"),
    ("광고 세트 이름", "s"), ("광고 세트 ID", "2"), ("광고 이름", "a"), ("광고 게재", "active"),
    ("지출 금액 (USD)", spendUsd), ("노출", "10"), ("광고 ID", metaAdId)]

def sampleFile (fileHashSha256 : String) (rows : List RawRow) : MetaCsvFile :=
  ⟨fileHashSha256, (sampleRow "" "" "").map (·.1), rows⟩

/-- An import of sample rows. -/
def sampleImport (policy : ConflictPolicy) (fileHashSha256 : String) (rows : List RawRow) : Operation :=
  .importMetaAdDailyCsv sampleEnv policy (sampleFile fileHashSha256 rows)

/-- The second file knows one ad of the first and a new one. -/
theorem reachable_snapshot_second_file :
    SnapshotOf sampleSha1 asciiLowerCase sampleEnv
      (sampleFile "g" [sampleRow "2026-01-05" "8" "2", sampleRow "2026-01-05" "9" "3"])
      ((sampleImport .SKIP "h" [sampleRow "2026-01-05" "7" "1.5", sampleRow "2026-01-05" "8" "1"]).run
        sampleSha1 asciiLowerCase emptyStore)
      (importMetaAdDailyCsv sampleSha1 asciiLowerCase sampleEnv .SKIP
        (sampleFile "g" [sampleRow "2026-01-05" "8" "2", sampleRow "2026-01-05" "9" "3"])
        ((sampleImport .SKIP "h" [sampleRow "2026-01-05" "7" "1.5", sampleRow "2026-01-05" "8" "1"]).run
          sampleSha1 asciiLowerCase emptyStore)).1 :=
  (reachable_snapshot (.step _ .start)).2.2 sampleEnv .SKIP _ 1 0 (by decide +kernel) (by decide +kernel)
    (by decide +kernel)

end AdsManagement.Meta
