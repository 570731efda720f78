/-
  File:      Meta/UploadDeletion.lean
  Subject:   DOES `deleteUpload` UNDO AN IMPORT? Exactly when the import hides nothing and stores
             no key whose metrics are all hidden.

  A deletion elects again for the keys its batch stored and for no others. So it leaves alone what
  the snapshot of the import hid, and it also elects for a key that had no current metric.

  * `deleteUpload_adRows`, `deleteUpload_adsetRows` -- a deletion in closed form;
  * `delete_importAdRows` -- an import followed by the deletion of its batch;
  * `reachable_deletion_iff` -- when the flags come back and when a deletion revives nothing.
-/
import AdsManagement.Meta.SnapshotImport

namespace AdsManagement.Meta

open Common Lib Coupang List

/-! ## 1. Deletions in closed form -/

section Deletion

variable {store : MetaStore} {id : Nat}

theorem mem_storedKeys {κ δ : Type} {t : VersionTable κ δ} {k : κ} :
    k ∈ storedKeys id t ↔ ∃ m ∈ t.rows, m.batch = id ∧ m.key = k := by
  unfold storedKeys
  rw [mem_map]
  constructor
  · rintro ⟨m, hm, rfl⟩
    obtain ⟨hm, hb⟩ := mem_filter.mp hm
    exact ⟨m, hm, of_decide_eq_true hb, rfl⟩
  · rintro ⟨m, hm, hb, rfl⟩
    exact ⟨m, mem_filter.mpr ⟨hm, decide_eq_true hb⟩, rfl⟩

/-- The texts of the keys of one batch tell these keys apart. -/
theorem mem_uniqueAdMetricKeys (h : StoreInv store) {key : AdMetricKey} :
    key ∈ uniqueAdMetricKeys (storedKeys id store.adMetrics) ↔ key ∈ storedKeys id store.adMetrics := by
  refine OrderedMap.mem_values_ofList fun k hk k' hk' e => ?_
  obtain ⟨m, hm, hb, rfl⟩ := mem_storedKeys.mp hk
  obtain ⟨m', hm', hb', rfl⟩ := mem_storedKeys.mp hk'
  exact h.texts m hm m' hm' (hb.trans hb'.symm) e

theorem mem_uniqueAdsetMetricKeys (h : StoreInv store) {key : AdsetMetricKey} :
    key ∈ uniqueAdsetMetricKeys (storedKeys id store.adsetMetrics) ↔
      key ∈ storedKeys id store.adsetMetrics := by
  refine OrderedMap.mem_values_ofList fun k hk k' hk' e => ?_
  obtain ⟨m, hm, -, rfl⟩ := mem_storedKeys.mp hk
  obtain ⟨m', hm', -, rfl⟩ := mem_storedKeys.mp hk'
  exact snapshotMetricKey_inj (h.adsetDates m hm) (h.adsetDates m' hm') e

/-- The rows without those of a batch, where the newest of the keys `ks` are the current ones. -/
def electedWithout {κ δ : Type} [DecidableEq κ] (id : Nat) (ks : List κ) (rows : List (Versioned κ δ)) :
    List (Versioned κ δ) :=
  (rows.filter fun r => r.batch ≠ id).map fun r =>
    if r.key ∈ ks then { r with current := decide (IsNewest (rows.filter fun r => r.batch ≠ id) r) }
    else r

section HiddenAndNew

variable {κ δ : Type} [DecidableEq κ] {p : κ → Bool} {rows news : List (Versioned κ δ)}
  {entries : List (κ × δ)}

omit [DecidableEq κ] in
/-- Without its batch the new versions are gone. -/
theorem filter_batch_hide_append (hnews : Forall₂ (IsVersionOf id) entries news)
    (hold : ∀ r ∈ rows, r.batch ≠ id) :
    (hideKeys p rows ++ news).filter (fun r => r.batch ≠ id) = hideKeys p rows := by
  rw [filter_append]
  have h1 : (hideKeys p rows).filter (fun r => r.batch ≠ id) = hideKeys p rows := by
    refine filter_eq_self.mpr fun r hr => ?_
    obtain ⟨s, hs, e⟩ := mem_hideKeys hr
    rw [e]
    exact decide_eq_true (hold s hs)
  have h2 : news.filter (fun r => r.batch ≠ id) = [] := by
    refine filter_eq_nil_iff.mpr fun r hr => ?_
    obtain ⟨e, -, hv⟩ := entry_of_mem_news hnews hr
    simp [hv.batch]
  rw [h1, h2, append_nil]

omit [DecidableEq κ] in
theorem mem_storedKeys_hide_append {t : VersionTable κ δ} (ht : t.rows = hideKeys p rows ++ news)
    (hnews : Forall₂ (IsVersionOf id) entries news) (hold : ∀ r ∈ rows, r.batch ≠ id) {k : κ} :
    k ∈ storedKeys id t ↔ k ∈ entries.map (·.1) := by
  rw [mem_storedKeys, ht]
  constructor
  · rintro ⟨m, hm, hb, rfl⟩
    rcases mem_append.mp hm with hm | hm
    · obtain ⟨s, hs, e⟩ := mem_hideKeys hm
      rw [e] at hb
      exact absurd hb (hold s hs)
    · obtain ⟨e, he, hv⟩ := entry_of_mem_news hnews hm
      exact mem_map.mpr ⟨e, he, hv.key.symm⟩
  · intro hk
    obtain ⟨e, he, rfl⟩ := mem_map.mp hk
    obtain ⟨r, hr, hv⟩ := news_of_mem_entry hnews he
    exact ⟨r, mem_append_right _ hr, hv.batch, hv.key⟩

/-- **The batch that hid rows and added versions is deleted**: its keys elect among the old rows,
    the other hidden rows stay hidden. -/
theorem electedWithout_hide_append (hnews : Forall₂ (IsVersionOf id) entries news)
    (hold : ∀ r ∈ rows, r.batch ≠ id) (ks : List κ) :
    electedWithout id ks (hideKeys p rows ++ news) = rows.map fun r =>
      { r with current := if r.key ∈ ks then decide (IsNewest rows r) else r.current && !p r.key } := by
  unfold electedWithout
  rw [filter_batch_hide_append hnews hold]
  unfold hideKeys
  rw [map_map]
  refine map_congr_left fun r _ => ?_
  have hnewest : IsNewest (rows.map fun r => if p r.key then r.clear else r)
      (if p r.key then r.clear else r) ↔ IsNewest rows r := by
    refine isNewest_map (f := fun r => if p r.key then r.clear else r) (fun s => ?_) r
    split
    · exact ⟨rfl, rfl⟩
    · exact ⟨rfl, rfl⟩
  rw [Function.comp_apply]
  cases hp : p r.key with
  | false =>
    rw [hp, if_neg Bool.false_ne_true] at hnewest
    rw [if_neg Bool.false_ne_true, Bool.not_false, Bool.and_true]
    simp only [hnewest]
    split
    · rfl
    · rfl
  | true =>
    rw [hp, if_pos rfl] at hnewest
    rw [if_pos rfl, Bool.not_true, Bool.and_false]
    have hkey : r.clear.key = r.key := rfl
    simp only [hnewest, hkey]
    split
    · rfl
    · rfl

end HiddenAndNew

theorem foldl_reelect_removeBatch {κ δ : Type} [DecidableEq κ] {t : VersionTable κ δ} (hc : Coherent t)
    {ks ks' : List κ} (hks : ∀ k, k ∈ ks ↔ k ∈ ks') :
    (ks.foldl (fun t k => reelect k t) (removeBatch id t)).rows = electedWithout id ks' t.rows := by
  rw [foldl_reelect_rows (hc.removeBatch id)]
  refine map_congr_left fun r _ => ?_
  simp only [hks]
  rfl

theorem deleteUpload_eq (hb : ∃ b ∈ store.batches, b.id = id) :
    (deleteUpload true id store).adMetrics =
        restoreCurrentAdMetrics (storedKeys id store.adMetrics) (removeBatch id store.adMetrics) ∧
      (deleteUpload true id store).adsetMetrics =
        restoreCurrentAdsetMetrics (storedKeys id store.adsetMetrics)
          (removeBatch id store.adsetMetrics) := by
  have hany : (store.batches.any (·.id = id) && true) = true := by simpa using hb
  unfold deleteUpload
  rw [if_pos hany]
  exact ⟨rfl, rfl⟩

section

variable (h : StoreInv store) (hb : ∃ b ∈ store.batches, b.id = id)
include h hb

/-- **The ad metrics after a deletion.** -/
theorem deleteUpload_adRows : (deleteUpload true id store).adMetrics.rows =
      electedWithout id (storedKeys id store.adMetrics) store.adMetrics.rows := by
  rw [(deleteUpload_eq hb).1]
  exact foldl_reelect_removeBatch h.ads fun _ => mem_uniqueAdMetricKeys h

/-- **The adset metrics after a deletion.** -/
theorem deleteUpload_adsetRows : (deleteUpload true id store).adsetMetrics.rows =
      electedWithout id (storedKeys id store.adsetMetrics) store.adsetMetrics.rows := by
  rw [(deleteUpload_eq hb).2]
  exact foldl_reelect_removeBatch h.aggregated fun _ => mem_uniqueAdsetMetricKeys h

/-- A deletion revives no key if and only if every key without a current metric that the batch
    stored is stored by this batch alone. -/
theorem delete_revives_nothing_iff : (∀ m ∈ (deleteUpload true id store).adMetrics.rows, m.current = true →
        HasCurrent m.key store.adMetrics.rows) ↔
      ∀ m ∈ store.adMetrics.rows, m.batch = id → ¬ HasCurrent m.key store.adMetrics.rows →
        ∀ m' ∈ store.adMetrics.rows, m'.key = m.key → m'.batch = id := by
  rw [deleteUpload_adRows h hb]
  constructor
  · intro hrevive m hm hbatch hnone m' hm' hk
    by_contra hne
    -- the newest remaining metric of the key would be elected
    have hleft : m' ∈ store.adMetrics.rows.filter fun r => r.batch ≠ id :=
      mem_filter.mpr ⟨hm', decide_eq_true hne⟩
    obtain ⟨w, hw, hwk, hnew⟩ := exists_newest hleft
    have hkey : w.key = m.key := hwk.trans hk
    have hstored : w.key ∈ storedKeys id store.adMetrics := mem_storedKeys.mpr ⟨m, hm, hbatch, hkey.symm⟩
    have hcur := hrevive _ (mem_map_of_mem hw) (by rw [if_pos hstored]; exact decide_eq_true hnew)
    rw [if_pos hstored] at hcur
    exact hnone (hkey ▸ hcur)
  · intro halone r hr hc
    obtain ⟨s, hs, rfl⟩ := mem_map.mp hr
    obtain ⟨hs, hne⟩ := mem_filter.mp hs
    split at hc
    · rename_i hstored
      rw [if_pos hstored]
      obtain ⟨m, hm, hbatch, hk⟩ := mem_storedKeys.mp hstored
      by_contra hnone
      exact of_decide_eq_true hne (halone m hm hbatch (hk ▸ hnone) s hs hk.symm)
    · rename_i hstored
      rw [if_neg hstored]
      exact ⟨s, hs, rfl, hc⟩

end

end Deletion

/-! ## 2. An import and the deletion of its batch -/

/-- What has to hold before the import of a file for a deletion to undo it: every current metric
    of a date of the file is in the file, and every key of the file that is stored has a current
    metric. -/
structure Undoable (sha1 : Sha1) (file : MetaCsvFile) (rows : List MetaAdDailyMetric) : Prop where
  shown : ∀ m ∈ rows, m.current = true → m.key.metricDate ∈ fileDates sha1 file →
    snapshotAdMetricKey m.key ∈ (fileKeys sha1 file).map snapshotAdMetricKey
  alive : ∀ m ∈ rows, m.key ∈ fileKeys sha1 file → HasCurrent m.key rows

section Undo

variable {sha1 : Sha1} {toLowerCase : String → String} {env : ImportEnv} {policy : ConflictPolicy}
  {file : MetaCsvFile} {store stored : MetaStore} {batchId : Nat}

/-- The flag a metric has after import and deletion. -/
def undoneFlag (sha1 : Sha1) (policy : ConflictPolicy) (file : MetaCsvFile) (store : MetaStore)
    (m : MetaAdDailyMetric) : Bool :=
  if isTaken sha1 policy file store m.key then decide (IsNewest store.adMetrics.rows m)
  else m.current && !isMissing sha1 file m.key

/-- **An import followed by the deletion of its batch.** -/
theorem delete_importAdRows (h : StoreInv store) (hres : Reserved store stored batchId)
    (hn : (dailyKeys (parsedAdRows sha1 file)).Nodup) (hvalid : FileValid sha1 file) :
    (deleteUpload true batchId
        (importAdRows sha1 toLowerCase env policy batchId file stored).1).adMetrics.rows =
      store.adMetrics.rows.map fun m => { m with current := undoneFlag sha1 policy file store m } := by
  have hstored := Reserved.storeInv h hres
  have hafter := h.importAdRows toLowerCase env policy hres hn
  obtain ⟨news, hrows, hnews⟩ := importAdRows_adRows toLowerCase env policy batchId hstored.ads hn
  have hbatch : ∃ b ∈ (importAdRows sha1 toLowerCase env policy batchId file stored).1.batches,
      b.id = batchId := exists_updateBatch (fun b => by rfl) hres.found
  have hold : ∀ m ∈ stored.adMetrics.rows, m.batch ≠ batchId := by
    rw [hres.adMetrics]
    exact hres.unusedAd
  have htaken : isTaken sha1 policy file stored = isTaken sha1 policy file store := by
    unfold isTaken
    rw [hres.adMetrics]
  rw [deleteUpload_adRows hafter hbatch, hrows, electedWithout_hide_append hnews hold, hres.adMetrics]
  refine map_congr_left fun m _ => ?_
  have hkey : m.key ∈ storedKeys batchId
      (importAdRows sha1 toLowerCase env policy batchId file stored).1.adMetrics ↔
      isTaken sha1 policy file store m.key = true := by
    rw [mem_storedKeys_hide_append hrows hnews hold, mem_takenOffers_keys, htaken]
  have hmissing : (refreshes sha1 file && isMissing sha1 file m.key) = isMissing sha1 file m.key := by
    cases hmiss : isMissing sha1 file m.key with
    | false => rw [Bool.and_false]
    | true =>
      unfold isMissing at hmiss
      rw [Bool.and_eq_true] at hmiss
      rw [hvalid.refreshes (contains_iff_mem.mp hmiss.1), Bool.and_true]
  unfold undoneFlag
  by_cases ht : isTaken sha1 policy file store m.key = true
  · rw [if_pos (hkey.mpr ht), if_pos ht]
  · rw [if_neg fun hk => ht (hkey.mp hk), if_neg ht, htaken, hmissing, Bool.eq_false_iff.mpr ht,
      Bool.false_or]

theorem isTaken_imp {key : AdMetricKey} (h : isTaken sha1 policy file store key = true) :
    key ∈ fileKeys sha1 file := by
  unfold isTaken at h
  rw [Bool.and_eq_true] at h
  exact of_decide_eq_true h.1

/-- A key of the file without a current metric is stored under every policy. -/
theorem isTaken_of_not_current {key : AdMetricKey} (hk : key ∈ fileKeys sha1 file)
    (hc : ¬ HasCurrent key store.adMetrics.rows) : isTaken sha1 policy file store key = true := by
  unfold isTaken
  rw [decide_eq_true hk, decide_eq_false hc, Bool.and_false, Bool.not_false, Bool.and_self]

/-- **The flags come back if and only if the import could be undone.** -/
theorem map_undoneFlag_iff (h : StoreInv store) :
    (store.adMetrics.rows.map fun m => { m with current := undoneFlag sha1 policy file store m }) =
        store.adMetrics.rows ↔ Undoable sha1 file store.adMetrics.rows := by
  have hflags : (store.adMetrics.rows.map fun m =>
        { m with current := undoneFlag sha1 policy file store m }) = store.adMetrics.rows ↔
      ∀ m ∈ store.adMetrics.rows, undoneFlag sha1 policy file store m = m.current := by
    conv_lhs => rhs; rw [← map_id store.adMetrics.rows]
    rw [map_inj_left]
    refine forall₂_congr fun m _ => ⟨fun e => congrArg Versioned.current e, fun e => ?_⟩
    rw [e]
    rfl
  rw [hflags]
  constructor
  · intro hall
    refine ⟨fun m hm hc hdate => ?_, fun m hm hk => ?_⟩
    · by_contra htext
      have hmiss : isMissing sha1 file m.key = true := by
        unfold isMissing
        rw [contains_iff_mem.mpr hdate, Bool.true_and, Bool.not_eq_true', Bool.eq_false_iff]
        exact fun hin => htext (contains_iff_mem.mp hin)
      have hnot : ¬ isTaken sha1 policy file store m.key = true := fun ht =>
        htext (mem_map_of_mem (isTaken_imp ht))
      have e := hall m hm
      unfold undoneFlag at e
      rw [if_neg hnot, hmiss, hc] at e
      cases e
    · by_contra hnone
      -- the newest metric of the key would be elected
      obtain ⟨w, hw, hwk, hnew⟩ := exists_newest hm
      have e := hall w hw
      unfold undoneFlag at e
      rw [hwk, if_pos (isTaken_of_not_current hk hnone), decide_eq_true hnew] at e
      exact hnone ⟨w, hw, hwk, e.symm⟩
  · intro hu m hm
    unfold undoneFlag
    split
    · next ht => exact (h.ads.current_iff_newest hm (hu.alive m hm (isTaken_imp ht))).symm
    · cases hc : m.current with
      | false => rfl
      | true =>
        have hmiss : isMissing sha1 file m.key = false := by
          unfold isMissing
          cases hd : (fileDates sha1 file).contains m.key.metricDate with
          | false => rfl
          | true =>
            have htext := hu.shown m hm hc (contains_iff_mem.mp hd)
            rw [contains_iff_mem.mpr htext]
            rfl
        rw [hmiss]
        rfl

/-- **When a deletion is the inverse of an import, and when a deletion revives nothing**, in every
    reachable store. -/
theorem reachable_deletion_iff (h : Reachable sha1 toLowerCase store) :
    (∀ (env : ImportEnv) (policy : ConflictPolicy) (file : MetaCsvFile) (batchId errorCount : Nat),
      FileValid sha1 file →
      (importMetaAdDailyCsv sha1 toLowerCase env policy file store).2 = .imported batchId errorCount →
      ((deleteUpload true batchId
          (importMetaAdDailyCsv sha1 toLowerCase env policy file store).1).adMetrics.rows =
        store.adMetrics.rows ↔ Undoable sha1 file store.adMetrics.rows)) ∧
    ∀ id, (∃ b ∈ store.batches, b.id = id) →
      ((∀ m ∈ (deleteUpload true id store).adMetrics.rows, m.current = true →
          HasCurrent m.key store.adMetrics.rows) ↔
        ∀ m ∈ store.adMetrics.rows, m.batch = id → ¬ HasCurrent m.key store.adMetrics.rows →
          ∀ m' ∈ store.adMetrics.rows, m'.key = m.key → m'.batch = id) := by
  have hinv := h.inv
  refine ⟨?_, fun id hb => delete_revives_nothing_iff hinv hb⟩
  intro env policy file batchId errorCount hvalid himported
  rcases importMetaAdDailyCsv_cases hinv.toBatchInv sha1 toLowerCase env policy file with
    ⟨-, hnot⟩ | ⟨stored, id, hres, hn, e⟩
  · exact absurd himported (hnot batchId errorCount)
  · rw [e] at himported
    cases himported
    rw [e, delete_importAdRows hinv hres hn hvalid]
    exact map_undoneFlag_iff hinv

end Undo

/-! ## 3. Samples -/

/-- Ad 7 is current. -/
def oneAdStore : MetaStore :=
  runAll sampleSha1 asciiLowerCase [sampleImport .SKIP "h" [sampleRow "2026-01-05" "7" "1"]] emptyStore

/-- Ad 7 was stored twice and is missing from the last file. -/
def hiddenAdStore : MetaStore :=
  runAll sampleSha1 asciiLowerCase
    [sampleImport .SKIP "h" [sampleRow "2026-01-05" "7" "1"],
      sampleImport .OVERWRITE "g" [sampleRow "2026-01-05" "7" "2"],
      sampleImport .SKIP "f" [sampleRow "2026-01-05" "8" "3"]] emptyStore

/-- The second file supersedes the only metric of the date and its deletion brings it back; the
    deletion of the first batch leaves no metric behind. -/
theorem reachable_deletion_iff_overwrite :
    (deleteUpload true 1 (importMetaAdDailyCsv sampleSha1 asciiLowerCase sampleEnv .OVERWRITE
        (sampleFile "g" [sampleRow "2026-01-05" "7" "2"]) oneAdStore).1).adMetrics.rows =
      oneAdStore.adMetrics.rows ∧
    ∀ m ∈ (deleteUpload true 0 oneAdStore).adMetrics.rows, m.current = true →
      HasCurrent m.key oneAdStore.adMetrics.rows :=
  have hreach : Reachable sampleSha1 asciiLowerCase oneAdStore := Reachable.start.runAll _
  have h := reachable_deletion_iff hreach
  ⟨(h.1 sampleEnv .OVERWRITE _ 1 0 (by decide +kernel) (by decide +kernel)).mpr
      ⟨by decide +kernel, by decide +kernel⟩,
    (h.2 0 (by decide +kernel)).mpr (by decide +kernel)⟩

/-- A file without ad 7 hides its metric, and the deletion of that file does not show it again.
    And the hidden ad 7 comes back when the later of its two batches is deleted. -/
theorem deletion_does_not_undo :
    (Reachable sampleSha1 asciiLowerCase oneAdStore ∧
      FileValid sampleSha1 (sampleFile "g" [sampleRow "2026-01-05" "8" "2"]) ∧
      (importMetaAdDailyCsv sampleSha1 asciiLowerCase sampleEnv .SKIP
        (sampleFile "g" [sampleRow "2026-01-05" "8" "2"]) oneAdStore).2 = .imported 1 0 ∧
      oneAdStore.adMetrics.rows.map (·.current) = [true] ∧
      (deleteUpload true 1 (importMetaAdDailyCsv sampleSha1 asciiLowerCase sampleEnv .SKIP
        (sampleFile "g" [sampleRow "2026-01-05" "8" "2"]) oneAdStore).1).adMetrics.rows.map
          (·.current) = [false]) ∧
    Reachable sampleSha1 asciiLowerCase hiddenAdStore ∧
      (∃ b ∈ hiddenAdStore.batches, b.id = 1) ∧
      ∃ m ∈ (deleteUpload true 1 hiddenAdStore).adMetrics.rows,
        m.current = true ∧ ¬ HasCurrent m.key hiddenAdStore.adMetrics.rows := by
  refine ⟨⟨Reachable.start.runAll _, ?_, ?_, ?_, ?_⟩, Reachable.start.runAll _, ?_, ?_⟩
  · decide +kernel
  · decide +kernel
  · decide +kernel
  · decide +kernel
  · decide +kernel
  · decide +kernel

end AdsManagement.Meta
