/-
  File:      Meta/LevelAgreement.lean
  Subject:   DO AD LEVEL AND ADSET LEVEL AGREE? As long as no file is imported in part, and the
             adset metrics beneath those of a deleted batch were made of the ad metrics beneath its
             own, and of those it has not touched.

  An adset metric records the ids of the ad metrics it was aggregated from. Ids are given out
  once and the columns of a metric never change, so that these ids fix the sums for good
  (`Recorded`). The levels agree where the recorded ids are the ids of the current ad metrics.

  * `AgreementInv.importRows`, `AgreementInv.delete` -- one step;
  * `levels_agree` -- every run whose steps meet the condition.
-/
import AdsManagement.Meta.UploadDeletion

namespace AdsManagement.Meta

open Common Lib Coupang List

/-! ## 1. Sums -/

/-- The sums that both levels hold. -/
structure Totals where
  spendUsd : ℚ
  purchaseCount : Int
  reach : Int
  impressions : Int
  linkClicks : Int
  shopClicks : Int
  clicksAll : Int
  landingPageViews : Int
deriving DecidableEq

def totalsOf (rows : List MetaAdDailyMetric) : Totals where
  spendUsd := spendOf rows
  purchaseCount := totalOf rows (·.purchaseCount)
  reach := totalOf rows (·.reach)
  impressions := totalOf rows (·.impressions)
  linkClicks := totalOf rows (·.linkClicks)
  shopClicks := totalOf rows (·.shopClicks)
  clicksAll := totalOf rows (·.clicksAll)
  landingPageViews := totalOf rows (·.landingPageViews)

def recordedTotals (data : AdsetMetricData) : Totals where
  spendUsd := data.spendUsd.value
  purchaseCount := data.resultCount
  reach := data.reach
  impressions := data.impressions
  linkClicks := data.linkClicks
  shopClicks := data.shopClicks
  clicksAll := data.clicksAll
  landingPageViews := data.landingPageViews

/-- The ad metrics an adset metric was aggregated from. -/
def metricIds (data : AdsetMetricData) : List Nat :=
  match data.rawRow with
  | .file _ => []
  | .aggregate metricIds _ _ _ => metricIds

variable {rows : List MetaAdDailyMetric}
variable {rows' : List MetaAdDailyMetric}

theorem totalOf_congr (h : (rows.map (·.data)).Perm (rows'.map (·.data))) (selector : AdMetricData → Int) :
    totalOf rows selector = totalOf rows' selector := by
  have hsum := (h.map selector).sum_eq
  rw [map_map, map_map] at hsum
  exact hsum

/-- The sums depend on the columns only, in any order. -/
theorem totalsOf_congr (h : (rows.map (·.data)).Perm (rows'.map (·.data))) :
    totalsOf rows = totalsOf rows' := by
  have hspend : spendOf rows = spendOf rows' := by
    have hsum := (h.map fun data => data.spendUsd.value).sum_eq
    rw [map_map, map_map] at hsum
    exact hsum
  unfold totalsOf
  simp only [hspend, totalOf_congr h]

/-- The spend of some metrics has no more decimals than each of them. -/
theorem spendOf_eq (rows : List MetaAdDailyMetric) :
    spendOf rows = (⟨(rows.map fun row => row.data.spendUsd.units).sum⟩ : Scaled 4).value := by
  induction rows with
  | nil => simp [spendOf, Scaled.value]
  | cons row rows ih =>
    unfold spendOf at ih ⊢
    rw [map_cons, sum_cons, ih, map_cons, sum_cons]
    unfold Scaled.value
    push_cast
    ring

/-- **An aggregate records the sums of its metrics.** -/
theorem recordedTotals_aggregateAdRows (toLowerCase : String → String) (first : MetaAdDailyMetric)
    (rest : List MetaAdDailyMetric) :
    recordedTotals (aggregateAdRows toLowerCase first rest).data = totalsOf (first :: rest) := by
  have hspend : (Scaled.ofRat 4 (spendOf (first :: rest))).value = spendOf (first :: rest) := by
    rw [spendOf_eq, Scaled.ofRat_value]
  unfold recordedTotals totalsOf aggregateAdRows
  simp only [hspend]

/-! ## 2. Recorded ids -/

/-- The ids of an adset metric fix its sums. -/
structure Recorded (ads : VersionTable AdMetricKey AdMetricData) (data : AdsetMetricData) : Prop where
  nonempty : metricIds data ≠ []
  nodup : (metricIds data).Nodup
  known : ∀ i ∈ metricIds data, i < ads.nextId
  totals : ∀ rows : List MetaAdDailyMetric, (∀ r ∈ rows, r ∈ ads.rows) →
    (rows.map (·.id)).Perm (metricIds data) → totalsOf rows = recordedTotals data

variable {ads ads' : VersionTable AdMetricKey AdMetricData} {data : AdsetMetricData}

/-- Rows with old ids, as they stand in the older table. -/
theorem Grows.exists_old (h : Grows ads ads') (rows : List MetaAdDailyMetric)
    (hrows : ∀ r ∈ rows, r ∈ ads'.rows) (hids : ∀ r ∈ rows, r.id < ads.nextId) :
    ∃ old : List MetaAdDailyMetric, (∀ r ∈ old, r ∈ ads.rows) ∧ old.map (·.id) = rows.map (·.id) ∧
      old.map (·.data) = rows.map (·.data) := by
  induction rows with
  | nil => exact ⟨[], fun r hr => (nomatch hr), rfl, rfl⟩
  | cons r rows ih =>
    obtain ⟨old, h1, h2, h3⟩ := ih (fun r hr => hrows r (mem_cons_of_mem _ hr))
      fun r hr => hids r (mem_cons_of_mem _ hr)
    rcases h.rows r (hrows r mem_cons_self) with ⟨s, hs, e⟩ | hid
    · refine ⟨s :: old, fun u hu => ?_, ?_, ?_⟩
      · rcases mem_cons.mp hu with rfl | hu
        · exact hs
        · exact h1 u hu
      · rw [map_cons, map_cons, h2, e]
      · rw [map_cons, map_cons, h3, e]
    · have := hids r mem_cons_self
      omega

theorem Recorded.grows (hr : Recorded ads data) (h : Grows ads ads') : Recorded ads' data where
  nonempty := hr.nonempty
  nodup := hr.nodup
  known := fun i hi => Nat.lt_of_lt_of_le (hr.known i hi) h.nextId
  totals := by
    intro rows hrows hperm
    have hids : ∀ r ∈ rows, r.id < ads.nextId := fun r hrow =>
      hr.known r.id (hperm.mem_iff.mp (mem_map_of_mem hrow))
    obtain ⟨old, h1, h2, h3⟩ := Grows.exists_old h rows hrows hids
    rw [← h2] at hperm
    rw [← totalsOf_congr (by rw [h3] : (old.map (·.data)).Perm (rows.map (·.data)))]
    exact hr.totals old h1 hperm

/-- An aggregate of stored metrics is recorded. -/
theorem recorded_aggregateAdRows (hc : Coherent ads) (toLowerCase : String → String)
    {first : MetaAdDailyMetric} {rest : List MetaAdDailyMetric}
    (hrows : ∀ r ∈ first :: rest, r ∈ ads.rows) (hnodup : ((first :: rest).map (·.id)).Nodup) :
    Recorded ads (aggregateAdRows toLowerCase first rest).data where
  nonempty := cons_ne_nil _ _
  nodup := hnodup
  known := by
    intro i hi
    obtain ⟨r, hr, rfl⟩ := mem_map.mp hi
    exact hc.fresh r (hrows r hr)
  totals := by
    intro rows hsub hperm
    rw [recordedTotals_aggregateAdRows]
    -- metrics with the same ids are the same metrics
    have hrowsNodup : rows.Nodup := Nodup.of_map _ (hperm.nodup_iff.mpr hnodup)
    have hmem : ∀ r, r ∈ rows ↔ r ∈ first :: rest := by
      intro r
      constructor
      · intro hr
        obtain ⟨s, hs, e⟩ := mem_map.mp (hperm.mem_iff.mp (mem_map_of_mem hr))
        rw [← hc.eq_of_id (hrows s hs) (hsub r hr) e]
        exact hs
      · intro hr
        obtain ⟨s, hs, e⟩ := mem_map.mp (hperm.mem_iff.mpr (mem_map_of_mem hr))
        rw [← hc.eq_of_id (hsub s hs) (hrows r hr) e]
        exact hs
    have hp : rows.Perm (first :: rest) :=
      (perm_ext_iff_of_nodup hrowsNodup (Nodup.of_map _ hnodup)).mpr hmem
    exact totalsOf_congr (hp.map _)

/-! ## 3. The invariant -/

/-- The adset metrics of one date and adset. -/
def adsetVersions (key : AdsetMetricKey) (rows : List MetaAdsetDailyMetric) : List MetaAdsetDailyMetric :=
  rows.filter fun w => w.key = key

/-- The ad metrics of a date and adset, and its adset metrics. -/
structure AgreesAt (group : List MetaAdDailyMetric) (versions : List MetaAdsetDailyMetric) : Prop where
  exists_iff : (∃ w ∈ versions, w.current = true) ↔ ∃ m ∈ group, m.current = true
  ids : ∀ w ∈ versions, w.current = true → ∀ i, i ∈ metricIds w.data ↔
    ∃ m ∈ group, m.current = true ∧ m.id = i

structure AgreementInv (store : MetaStore) : Prop where
  agrees : ∀ key, AgreesAt (adsetGroup key store.adMetrics.rows)
    (adsetVersions key store.adsetMetrics.rows)
  recorded : ∀ w ∈ store.adsetMetrics.rows, Recorded store.adMetrics w.data
  /-- The batch of an ad metric has an adset metric for it. -/
  covered : ∀ m ∈ store.adMetrics.rows, ∃ w ∈ store.adsetMetrics.rows,
    w.batch = m.batch ∧ w.key = adsetKeyOf m

variable {key : AdsetMetricKey}

theorem mem_adsetGroup {m : MetaAdDailyMetric} :
    m ∈ adsetGroup key rows ↔ m ∈ rows ∧ adsetKeyOf m = key := by
  unfold adsetGroup
  rw [mem_filter, decide_eq_true_iff]

theorem mem_adsetVersions {rows : List MetaAdsetDailyMetric} {w : MetaAdsetDailyMetric} :
    w ∈ adsetVersions key rows ↔ w ∈ rows ∧ w.key = key := by
  unfold adsetVersions
  rw [mem_filter, decide_eq_true_iff]

/-- What the dashboards and the drill-downs have to agree on. -/
structure LevelsAgree (store : MetaStore) : Prop where
  exists_iff : ∀ key, HasCurrent key store.adsetMetrics.rows ↔
    ∃ m ∈ store.adMetrics.rows, m.current = true ∧ adsetKeyOf m = key
  totals : ∀ w ∈ store.adsetMetrics.rows, w.current = true → recordedTotals w.data =
    totalsOf (adsetGroup w.key (store.adMetrics.rows.filter (·.current)))

variable {store : MetaStore}

/-- **The invariant says that the levels agree.** -/
theorem AgreementInv.levelsAgree (hinv : StoreInv store) (h : AgreementInv store) :
    LevelsAgree store where
  exists_iff := by
    intro key
    constructor
    · rintro ⟨w, hw, hk, hc⟩
      obtain ⟨m, hm, hcm⟩ := (h.agrees key).exists_iff.mp ⟨w, mem_adsetVersions.mpr ⟨hw, hk⟩, hc⟩
      obtain ⟨hm, hkm⟩ := mem_adsetGroup.mp hm
      exact ⟨m, hm, hcm, hkm⟩
    · rintro ⟨m, hm, hc, hk⟩
      obtain ⟨w, hw, hcw⟩ := (h.agrees key).exists_iff.mpr ⟨m, mem_adsetGroup.mpr ⟨hm, hk⟩, hc⟩
      obtain ⟨hw, hkw⟩ := mem_adsetVersions.mp hw
      exact ⟨w, hw, hkw, hcw⟩
  totals := by
    intro w hw hc
    have hrec := h.recorded w hw
    have hids := (h.agrees w.key).ids w (mem_adsetVersions.mpr ⟨hw, rfl⟩) hc
    have hsub : ∀ r ∈ adsetGroup w.key (store.adMetrics.rows.filter (·.current)),
        r ∈ store.adMetrics.rows := fun r hr => (mem_filter.mp (mem_adsetGroup.mp hr).1).1
    refine (hrec.totals _ hsub ?_).symm
    have hnodup : ((adsetGroup w.key (store.adMetrics.rows.filter (·.current))).map (·.id)).Nodup :=
      hinv.ads.nodup.sublist ((filter_sublist.trans filter_sublist).map _)
    refine (perm_ext_iff_of_nodup hnodup hrec.nodup).mpr fun i => ?_
    rw [hids i, mem_map]
    constructor
    · rintro ⟨m, hm, rfl⟩
      obtain ⟨hm, hk⟩ := mem_adsetGroup.mp hm
      obtain ⟨hm, hcm⟩ := mem_filter.mp hm
      exact ⟨m, mem_adsetGroup.mpr ⟨hm, hk⟩, hcm, rfl⟩
    · rintro ⟨m, hm, hcm, rfl⟩
      obtain ⟨hm, hk⟩ := mem_adsetGroup.mp hm
      exact ⟨m, mem_adsetGroup.mpr ⟨mem_filter.mpr ⟨hm, hcm⟩, hk⟩, rfl⟩

/-- The invariant reads the metric tables only. -/
theorem AgreementInv.of_same {store' : MetaStore} (h : AgreementInv store)
    (hads : store'.adMetrics = store.adMetrics) (hadsets : store'.adsetMetrics = store.adsetMetrics) :
    AgreementInv store' := by
  obtain ⟨h1, h2, h3⟩ := h
  refine ⟨?_, ?_, ?_⟩
  · rw [hads, hadsets]
    exact h1
  · rw [hads, hadsets]
    exact h2
  · rw [hads, hadsets]
    exact h3

/-! ## 4. Imports -/

section Import

variable {sha1 : Sha1} {toLowerCase : String → String} {env : ImportEnv} {policy : ConflictPolicy}
  {file : MetaCsvFile} {stored : MetaStore} {batchId : Nat}

variable (toLowerCase env batchId) in
/-- A file whose valid rows are all skipped stores nothing and counts as no snapshot. -/
theorem importAdRows_skipped (hskip : ∀ key ∈ fileKeys sha1 file,
      policy = .SKIP ∧ HasCurrent key store.adMetrics.rows) (hr : refreshes sha1 file = false) :
    (importAdRows sha1 toLowerCase env policy batchId file store).1.adMetrics = store.adMetrics ∧
      (importAdRows sha1 toLowerCase env policy batchId file store).1.adsetMetrics =
        store.adsetMetrics := by
  obtain ⟨-, e2, e3, -⟩ := importAdRows_parts sha1 toLowerCase env file policy batchId store
  rw [hr] at e2 e3
  refine ⟨e2.trans ?_, e3⟩
  unfold offeredAds
  by_cases hp : policy = .SKIP
  · rw [decide_eq_true hp]
    exact foldl_offer_keep batchId env.now fun e he => (hskip e.1 (mem_fileOffers he)).2
  · have hnil : fileOffers sha1 toLowerCase env file store = [] := by
      refine eq_nil_iff_forall_not_mem.mpr fun e he => ?_
      exact hp (hskip e.1 (mem_fileOffers he)).1
    rw [hnil]
    rfl

theorem grows_importAdRows :
    Grows store.adMetrics (importAdRows sha1 toLowerCase env policy batchId file store).1.adMetrics := by
  have hoff : Grows store.adMetrics (offeredAds sha1 toLowerCase env file policy batchId store) :=
    Grows.foldl_offer _ _ _ _ _
  rw [(importAdRows_parts sha1 toLowerCase env file policy batchId store).2.1]
  unfold deactivateMissingAdSnapshotMetrics
  split
  · split
    · exact hoff
    · exact hoff.trans (Grows.of_descends batchId (Descends.hide _) rfl)
  · exact hoff

/-- On the dates of a snapshot the levels agree. -/
theorem agreesAt_importAdRows (hinv : StoreInv store) (hres : Reserved store stored batchId)
    (hn : (dailyKeys (parsedAdRows sha1 file)).Nodup) (hr : refreshes sha1 file = true)
    (hdate : key.metricDate ∈ fileDates sha1 file) :
    AgreesAt (adsetGroup key
        (importAdRows sha1 toLowerCase env policy batchId file stored).1.adMetrics.rows)
      (adsetVersions key
        (importAdRows sha1 toLowerCase env policy batchId file stored).1.adsetMetrics.rows) where
  exists_iff := by
    have h : HasCurrent key
        (importAdRows sha1 toLowerCase env policy batchId file stored).1.adsetMetrics.rows ↔ _ :=
      hasCurrent_adset_importAdRows hinv hres hn hr hdate
    constructor
    · rintro ⟨w, hw, hc⟩
      obtain ⟨hw, hk⟩ := mem_adsetVersions.mp hw
      obtain ⟨m, hm, hcm, hkm⟩ := h.mp ⟨w, hw, hk, hc⟩
      exact ⟨m, mem_adsetGroup.mpr ⟨hm, hkm⟩, hcm⟩
    · rintro ⟨m, hm, hc⟩
      obtain ⟨hm, hk⟩ := mem_adsetGroup.mp hm
      obtain ⟨w, hw, hkw, hcw⟩ := h.mpr ⟨m, hm, hc, hk⟩
      exact ⟨w, mem_adsetVersions.mpr ⟨hw, hkw⟩, hcw⟩
  ids := by
    intro w hw hc i
    obtain ⟨hmem, rfl⟩ := mem_adsetVersions.mp hw
    obtain ⟨first, rest, hg, ha⟩ := current_adset_importAdRows hinv hres hn hr hmem hc hdate
    have hids : metricIds w.data = (first :: rest).map (·.id) :=
      congrArg (fun a : AdsetAggregateInput => metricIds a.data) ha
    rw [hids, ← hg, mem_map]
    constructor
    · rintro ⟨m, hm, rfl⟩
      obtain ⟨hm, hk⟩ := mem_adsetGroup.mp hm
      obtain ⟨hm, hcm, -⟩ := mem_refreshed.mp hm
      exact ⟨m, mem_adsetGroup.mpr ⟨hm, hk⟩, hcm, rfl⟩
    · rintro ⟨m, hm, hcm, rfl⟩
      obtain ⟨hm, hk⟩ := mem_adsetGroup.mp hm
      have hd : m.key.metricDate ∈ fileDates sha1 file := by
        rw [← hk] at hdate
        exact hdate
      exact ⟨m, mem_adsetGroup.mpr ⟨mem_refreshed.mpr ⟨hm, hcm, hd⟩, hk⟩, rfl⟩

variable {dates : List Int}

/-- The metrics of a date and adset are among those of the other dates. -/
theorem adsetGroup_filter_date (hk : key.metricDate ∉ dates) (rows : List MetaAdDailyMetric) :
    adsetGroup key (rows.filter fun m => !dates.contains m.key.metricDate) = adsetGroup key rows := by
  unfold adsetGroup
  rw [filter_filter]
  refine filter_congr fun m _ => ?_
  by_cases e : adsetKeyOf m = key
  · have hm : m.key.metricDate ∉ dates := by
      rw [← e] at hk
      exact hk
    simp [hm]
  · simp [e]

theorem adsetVersions_filter_date (hk : key.metricDate ∉ dates) (rows : List MetaAdsetDailyMetric) :
    adsetVersions key (rows.filter fun w => !dates.contains w.key.metricDate) = adsetVersions key rows := by
  unfold adsetVersions
  rw [filter_filter]
  refine filter_congr fun w _ => ?_
  by_cases e : w.key = key
  · simp [e, hk]
  · simp [e]

/-- An aggregate of a refresh is recorded. -/
theorem recorded_refreshAggregates {order : QueryOrder} (hinv : StoreInv store) {a : AdsetAggregateInput}
    (ha : a ∈ refreshAggregates toLowerCase order dates store.adMetrics) :
    Recorded store.adMetrics a.data := by
  obtain ⟨first, rest, hg, e⟩ := isAggregateOf_refreshAggregates hinv.adDates ha
  have hsub : (first :: rest).Subperm store.adMetrics.rows := by
    rw [← hg]
    exact (filter_sublist.subperm).trans ((order.adMetrics_perm _).subperm.trans
      filter_sublist.subperm)
  rw [e]
  refine recorded_aggregateAdRows hinv.ads toLowerCase hsub.subset ?_
  have hids : ((first :: rest).map (·.id)).Subperm (store.adMetrics.rows.map (·.id)) := by
    obtain ⟨l, hp, hs⟩ := hsub
    exact ⟨l.map (·.id), hp.map _, hs.map _⟩
  obtain ⟨l, hp, hs⟩ := hids
  exact hp.nodup_iff.mp (hinv.ads.nodup.sublist hs)

/-- A snapshot import keeps the invariant. -/
theorem AgreementInv.snapshot (hinv : StoreInv store) (h : AgreementInv store)
    (hres : Reserved store stored batchId) (hn : (dailyKeys (parsedAdRows sha1 file)).Nodup)
    (hr : refreshes sha1 file = true) :
    AgreementInv (importAdRows sha1 toLowerCase env policy batchId file stored).1 := by
  have hstored := Reserved.storeInv hinv hres
  have hafter := hinv.importAdRows toLowerCase env policy hres hn
  have hold : AgreementInv stored := h.of_same hres.adMetrics hres.adsetMetrics
  obtain ⟨news, hrows, hnews⟩ := importAdRows_adRows toLowerCase env policy batchId hstored.ads hn
  obtain ⟨newAdsets, harows, hanews⟩ :=
    importAdRows_adsetRows toLowerCase env policy hinv hres hn hr
  refine ⟨fun key => ?_, fun w hw => ?_, fun m hm => ?_⟩
  · by_cases hdate : key.metricDate ∈ fileDates sha1 file
    · exact agreesAt_importAdRows hinv hres hn hr hdate
    · rw [← adsetGroup_filter_date hdate, ← adsetVersions_filter_date hdate,
        importAdRows_frame hstored.ads hn, importAdRows_adset_frame hinv hres hn,
        adsetGroup_filter_date hdate, adsetVersions_filter_date hdate]
      exact hold.agrees key
  · rw [harows] at hw
    rcases mem_append.mp hw with hw | hw
    · obtain ⟨s, hs, e⟩ := mem_hideKeys hw
      rw [e]
      exact (hold.recorded s hs).grows grows_importAdRows
    · obtain ⟨e, he, hv⟩ := entry_of_mem_news hanews hw
      obtain ⟨a, ha, rfl⟩ := mem_map.mp he
      rw [hv.data]
      exact recorded_refreshAggregates hafter ha
  · rw [hrows] at hm
    rcases mem_append.mp hm with hm | hm
    · obtain ⟨s, hs, e⟩ := mem_hideKeys hm
      obtain ⟨w, hw, hb, hk⟩ := hold.covered s hs
      refine ⟨_, by rw [harows]; exact mem_append_left _ (mem_map_of_mem hw), ?_⟩
      rw [e]
      split
      · exact ⟨hb, hk⟩
      · exact ⟨hb, hk⟩
    · obtain ⟨e, he, hv⟩ := entry_of_mem_news hnews hm
      have hdate : m.key.metricDate ∈ fileDates sha1 file :=
        mem_fileDates.mpr ⟨m.key, by rw [hv.key]; exact mem_fileKeys_of_taken he, rfl⟩
      have hmem : m ∈ (importAdRows sha1 toLowerCase env policy batchId file stored).1.adMetrics.rows := by
        rw [hrows]
        exact mem_append_right _ hm
      obtain ⟨a, ha, hk⟩ := exists_refreshAggregate hafter.adDates hmem hv.current hdate
      obtain ⟨w, hw, hvw⟩ := news_of_mem_entry hanews (mem_map.mpr ⟨a, ha, rfl⟩)
      exact ⟨w, by rw [harows]; exact mem_append_right _ hw, hvw.batch.trans hv.batch.symm,
        hvw.key.trans hk⟩

/-- The ways out before the first row: the file of an earlier upload, a storage or rates that
    fail, missing columns, a daily key twice, an abort. -/
def stopsBeforeRows (sha1 : Sha1) (env : ImportEnv) (policy : ConflictPolicy) (file : MetaCsvFile)
    (store : MetaStore) : Bool :=
  !(reserveBatch env .AD policy file store).2.2 || env.storageFails ||
    decide (missingColumns META_AD_DAILY_REQUIRED_COLUMNS file.headers ≠ []) ||
    decide (duplicatedValues (dailyKeys (parsedAdRows sha1 file)) ≠ []) ||
    (env.ratesError.isSome && (parsedAdRows sha1 file).any fun parsed =>
      parsed.parsedRow.isSome && parsed.issues.length = 0) || env.aborts

theorem sameMetrics_of_stops (h : BatchInv store)
    (hstops : stopsBeforeRows sha1 env policy file store = true) :
    SameMetrics store (importMetaAdDailyCsv sha1 toLowerCase env policy file store).1 := by
  unfold Meta.importMetaAdDailyCsv importCsv
  dsimp only
  split
  · exact SameMetrics.refl h
  · rename_i hr
    have hres := reserveBatch_spec h (by simpa using hr)
    have hst := hres.storedBatch
    split
    · exact hres.toSameMetrics.failBatch _ _ _
    · split
      · exact hst.toSameMetrics.failBatch _ _ _
      · split
        · exact hst.toSameMetrics.failBatch _ _ _
        · split
          · exact hst.toSameMetrics.failBatch _ _ _
          · split
            · exact hst.toSameMetrics
            · rename_i hfails hmissing hduplicate hrates haborts
              refine absurd hstops ?_
              unfold stopsBeforeRows
              simp only [not_not] at hmissing hduplicate
              simp only [Bool.not_eq_true] at hr hfails hrates haborts
              rw [hr, hfails, hmissing, hduplicate, hrates, haborts]
              decide

/-- **A step of the first kind**: a file without invalid row, one that stores nothing, or one that
    is refused. -/
theorem AgreementInv.importMetaAdDailyCsv (hinv : StoreInv store) (h : AgreementInv store)
    (hfile : stopsBeforeRows sha1 env policy file store = true ∨ FileValid sha1 file ∨
      ∀ key ∈ fileKeys sha1 file, policy = .SKIP ∧ HasCurrent key store.adMetrics.rows) :
    AgreementInv (importMetaAdDailyCsv sha1 toLowerCase env policy file store).1 := by
  rcases hfile with hstops | hfile
  · have hs : SameMetrics store (Meta.importMetaAdDailyCsv sha1 toLowerCase env policy file store).1 :=
      sameMetrics_of_stops hinv.toBatchInv hstops
    exact h.of_same hs.adMetrics hs.adsetMetrics
  rcases importMetaAdDailyCsv_cases hinv.toBatchInv sha1 toLowerCase env policy file with
    ⟨hs, -⟩ | ⟨stored, batchId, hres, hn, e⟩
  · exact h.of_same hs.adMetrics hs.adsetMetrics
  · rw [e]
    cases hr : refreshes sha1 file with
    | true => exact AgreementInv.snapshot hinv h hres hn hr
    | false =>
      have hskip : ∀ key ∈ fileKeys sha1 file,
          policy = .SKIP ∧ HasCurrent key stored.adMetrics.rows := by
        intro key hkey
        rcases hfile with hvalid | hskip
        · have := hvalid.refreshes (mem_fileDates.mpr ⟨key, hkey, rfl⟩)
          rw [hr] at this
          cases this
        · rw [hres.adMetrics]
          exact hskip key hkey
      obtain ⟨h1, h2⟩ := importAdRows_skipped toLowerCase env batchId hskip hr
      exact h.of_same (h1.trans hres.adMetrics) (h2.trans hres.adsetMetrics)

end Import

/-! ## 5. Deletions -/

section Elected

variable {κ δ : Type} [DecidableEq κ] {id : Nat} {ks : List κ} {rows : List (Versioned κ δ)}

/-- The rows that are current after a deletion. -/
def LeftCurrent (id : Nat) (ks : List κ) (rows : List (Versioned κ δ)) (r : Versioned κ δ) : Prop :=
  r ∈ rows.filter (fun r => r.batch ≠ id) ∧
    if r.key ∈ ks then IsNewest (rows.filter fun r => r.batch ≠ id) r else r.current = true

/-- They are these rows, with the flag set. -/
theorem mem_electedWithout_current {r : Versioned κ δ} :
    r ∈ electedWithout id ks rows ∧ r.current = true ↔
      ∃ s, LeftCurrent id ks rows s ∧ r = { s with current := true } := by
  constructor
  · rintro ⟨hr, hc⟩
    obtain ⟨s, hs, rfl⟩ := mem_map.mp hr
    by_cases hk : s.key ∈ ks
    · rw [if_pos hk] at hc ⊢
      refine ⟨s, ⟨hs, by rw [if_pos hk]; exact of_decide_eq_true hc⟩, ?_⟩
      rw [show decide (IsNewest (rows.filter fun r => r.batch ≠ id) s) = true from hc]
    · rw [if_neg hk] at hc ⊢
      refine ⟨s, ⟨hs, by rw [if_neg hk]; exact hc⟩, ?_⟩
      rw [← hc]
  · rintro ⟨s, ⟨hs, hcur⟩, rfl⟩
    refine ⟨mem_map.mpr ⟨s, hs, ?_⟩, rfl⟩
    by_cases hk : s.key ∈ ks
    · rw [if_pos hk] at hcur ⊢
      rw [decide_eq_true hcur]
    · rw [if_neg hk] at hcur ⊢
      rw [← hcur]

/-- Rows that the batch did not store and whose keys are not elected again stay as they are. -/
theorem filter_electedWithout {q : Versioned κ δ → Bool}
    (hq : ∀ (r : Versioned κ δ) (c : Bool), q { r with current := c } = q r)
    (h : ∀ r ∈ rows, q r = true → r.batch ≠ id ∧ r.key ∉ ks) :
    (electedWithout id ks rows).filter q = rows.filter q := by
  unfold electedWithout
  rw [filter_map, filter_filter]
  have hsame : rows.filter (fun r => (q ∘ fun r =>
      if r.key ∈ ks then { r with current := decide (IsNewest (rows.filter fun r => r.batch ≠ id) r) }
      else r) r && decide (r.batch ≠ id)) = rows.filter q := by
    refine filter_congr fun r hr => ?_
    have hqr : q (if r.key ∈ ks then
        { r with current := decide (IsNewest (rows.filter fun r => r.batch ≠ id) r) } else r) = q r := by
      split
      · exact hq r _
      · rfl
    rw [Function.comp_apply, hqr]
    cases hc : q r with
    | false => rfl
    | true => simpa using (h r hr hc).1
  rw [hsame]
  conv_rhs => rw [← map_id (rows.filter q)]
  refine map_congr_left fun r hr => ?_
  obtain ⟨hr, hc⟩ := mem_filter.mp hr
  rw [if_neg (h r hr hc).2]
  rfl

/-- A version right beneath those of the batch: of a key the batch stored, and the highest one
    of the other batches. -/
def Beneath (id : Nat) (rows : List (Versioned κ δ)) (r : Versioned κ δ) : Prop :=
  r.batch ≠ id ∧ (∃ s ∈ rows, s.batch = id ∧ s.key = r.key) ∧
    ∀ s ∈ rows, s.batch ≠ id → s.key = r.key → s.version ≤ r.version

instance (id : Nat) (rows : List (Versioned κ δ)) (r : Versioned κ δ) : Decidable (Beneath id rows r) :=
  inferInstanceAs (Decidable (r.batch ≠ id ∧ (∃ s ∈ rows, s.batch = id ∧ s.key = r.key) ∧
    ∀ s ∈ rows, s.batch ≠ id → s.key = r.key → s.version ≤ r.version))

variable {t : VersionTable κ δ} {r : Versioned κ δ}

theorem leftCurrent_iff_beneath (hr : r ∈ t.rows) (hk : r.key ∈ storedKeys id t) :
    LeftCurrent id (storedKeys id t) t.rows r ↔ Beneath id t.rows r := by
  unfold LeftCurrent Beneath IsNewest
  rw [if_pos hk, mem_filter, decide_eq_true_iff]
  constructor
  · rintro ⟨⟨-, hb⟩, hnewest⟩
    exact ⟨hb, mem_storedKeys.mp hk, fun s hs hsb => hnewest s (mem_filter.mpr ⟨hs, decide_eq_true hsb⟩)⟩
  · rintro ⟨hb, -, hnewest⟩
    refine ⟨⟨hr, hb⟩, fun s hs => ?_⟩
    obtain ⟨hs, hsb⟩ := mem_filter.mp hs
    exact hnewest s hs (of_decide_eq_true hsb)

omit [DecidableEq κ] in
theorem not_beneath (hk : r.key ∉ storedKeys id t) : ¬ Beneath id t.rows r := fun h =>
  hk (mem_storedKeys.mpr h.2.1)

end Elected

/-- An ad metric that went into the current adset metric, of an ad the batch did not store. -/
def LeftByBatch (id : Nat) (store : MetaStore) (m : MetaAdDailyMetric) : Prop :=
  (∀ s ∈ store.adMetrics.rows, s.batch = id → s.key ≠ m.key) ∧
    ∃ w ∈ store.adsetMetrics.rows, w.key = adsetKeyOf m ∧ w.current = true ∧ m.id ∈ metricIds w.data

instance (id : Nat) (store : MetaStore) (m : MetaAdDailyMetric) : Decidable (LeftByBatch id store m) :=
  inferInstanceAs (Decidable ((∀ s ∈ store.adMetrics.rows, s.batch = id → s.key ≠ m.key) ∧
    ∃ w ∈ store.adsetMetrics.rows, w.key = adsetKeyOf m ∧ w.current = true ∧ m.id ∈ metricIds w.data))

/-- What a deletion has to find at every date and adset where the batch stored an adset metric:
    the adset metric beneath it was aggregated from the ad metrics beneath those of the batch and
    the untouched ones, each of them still stored; and if there is no such adset metric, there are
    no such ad metrics. -/
structure DeletionAgrees (id : Nat) (store : MetaStore) : Prop where
  known : ∀ w ∈ store.adsetMetrics.rows, Beneath id store.adsetMetrics.rows w →
    ∀ i ∈ metricIds w.data, ∃ m ∈ store.adMetrics.rows, adsetKeyOf m = w.key ∧ m.id = i
  aggregated : ∀ w ∈ store.adsetMetrics.rows, Beneath id store.adsetMetrics.rows w →
    ∀ m ∈ store.adMetrics.rows, adsetKeyOf m = w.key →
      (m.id ∈ metricIds w.data ↔ Beneath id store.adMetrics.rows m ∨ LeftByBatch id store m)
  alone : ∀ w ∈ store.adsetMetrics.rows, w.batch = id →
    (∀ v ∈ store.adsetMetrics.rows, v.key = w.key → v.batch = id) →
    ∀ m ∈ store.adMetrics.rows, adsetKeyOf m = w.key →
      ¬ Beneath id store.adMetrics.rows m ∧ ¬ LeftByBatch id store m

section Delete

variable {id : Nat}
variable {κ δ : Type}

theorem LeftCurrent.mem [DecidableEq κ] {ks : List κ} {rows : List (Versioned κ δ)} {r : Versioned κ δ}
    (h : LeftCurrent id ks rows r) : r ∈ rows := (mem_filter.mp h.1).1

/-- Where the batch stored no adset metric the deletion touches neither level. -/
theorem deleteUpload_untouched (hinv : StoreInv store) (h : AgreementInv store)
    (hkey : key ∉ storedKeys id store.adsetMetrics) :
    adsetGroup key (electedWithout id (storedKeys id store.adMetrics) store.adMetrics.rows) =
        adsetGroup key store.adMetrics.rows ∧
      adsetVersions key (electedWithout id (storedKeys id store.adsetMetrics) store.adsetMetrics.rows) =
        adsetVersions key store.adsetMetrics.rows := by
  -- an ad metric of the batch has an adset metric of the batch
  have hads : ∀ m ∈ store.adMetrics.rows, adsetKeyOf m = key → m.batch ≠ id := by
    intro m hm hk hb
    obtain ⟨w, hw, hwb, hwk⟩ := h.covered m hm
    exact hkey (mem_storedKeys.mpr ⟨w, hw, hwb.trans hb, hwk.trans hk⟩)
  constructor
  · refine filter_electedWithout (fun _ _ => rfl) fun m hm hk => ?_
    have hk' : adsetKeyOf m = key := of_decide_eq_true hk
    refine ⟨hads m hm hk', fun hin => ?_⟩
    obtain ⟨m', hm', hb, e⟩ := mem_storedKeys.mp hin
    -- metrics of one key refer to one adset
    have href := hinv.linked m' hm'
    rw [e] at href
    have hsame : adsetKeyOf m' = key := by
      rw [← hk']
      unfold adsetKeyOf
      rw [e, hinv.adsets.refers_id href (hinv.linked m hm)]
    exact hads m' hm' hsame hb
  · refine filter_electedWithout (fun _ _ => rfl) fun w hw hk => ?_
    have hk' : w.key = key := of_decide_eq_true hk
    refine ⟨fun hb => hkey (mem_storedKeys.mpr ⟨w, hw, hb, hk'⟩), ?_⟩
    rw [hk']
    exact hkey

/-- As the levels agree before a deletion, what it leaves current are the metrics beneath those of
    the batch and the untouched ones. -/
theorem leftCurrent_iff (hinv : StoreInv store) (h : AgreementInv store) {m : MetaAdDailyMetric}
    (hm : m ∈ store.adMetrics.rows) :
    LeftCurrent id (storedKeys id store.adMetrics) store.adMetrics.rows m ↔
      Beneath id store.adMetrics.rows m ∨ LeftByBatch id store m := by
  by_cases hk : m.key ∈ storedKeys id store.adMetrics
  · rw [leftCurrent_iff_beneath hm hk, or_iff_left]
    rintro ⟨hnone, -⟩
    obtain ⟨s, hs, hb, e⟩ := mem_storedKeys.mp hk
    exact hnone s hs hb e
  · have hnone : ∀ s ∈ store.adMetrics.rows, s.batch = id → s.key ≠ m.key := fun s hs hb e =>
      hk (mem_storedKeys.mpr ⟨s, hs, hb, e⟩)
    have hagrees := h.agrees (adsetKeyOf m)
    rw [or_iff_right (not_beneath hk)]
    unfold LeftCurrent
    rw [if_neg hk]
    constructor
    · rintro ⟨-, hc⟩
      have hgroup := mem_adsetGroup.mpr ⟨hm, rfl⟩
      obtain ⟨w, hw, hcw⟩ := hagrees.exists_iff.mpr ⟨m, hgroup, hc⟩
      obtain ⟨hmem, hkw⟩ := mem_adsetVersions.mp hw
      exact ⟨hnone, w, hmem, hkw, hcw, (hagrees.ids w hw hcw m.id).mpr ⟨m, hgroup, hc, rfl⟩⟩
    · rintro ⟨-, w, hw, hkw, hcw, hi⟩
      obtain ⟨m', hm', hc, e⟩ := (hagrees.ids w (mem_adsetVersions.mpr ⟨hw, hkw⟩) hcw m.id).mp hi
      rw [← hinv.ads.eq_of_id (mem_adsetGroup.mp hm').1 hm e]
      refine ⟨mem_filter.mpr ⟨(mem_adsetGroup.mp hm').1, decide_eq_true fun hb => ?_⟩, hc⟩
      rw [hinv.ads.eq_of_id (mem_adsetGroup.mp hm').1 hm e] at hb
      exact hnone m hm hb rfl

/-- Where the batch stored an adset metric, the levels agree without it. -/
theorem DeletionAgrees.agreesAt (hd : DeletionAgrees id store) (hinv : StoreInv store)
    (h : AgreementInv store) (hkey : key ∈ storedKeys id store.adsetMetrics) :
    AgreesAt (adsetGroup key (electedWithout id (storedKeys id store.adMetrics) store.adMetrics.rows))
      (adsetVersions key
        (electedWithout id (storedKeys id store.adsetMetrics) store.adsetMetrics.rows)) where
  exists_iff := by
    constructor
    · rintro ⟨w, hw, hc⟩
      obtain ⟨hw, hk⟩ := mem_adsetVersions.mp hw
      obtain ⟨s, hs, rfl⟩ := mem_electedWithout_current.mp ⟨hw, hc⟩
      have hks : s.key = key := hk
      have hbeneath := (leftCurrent_iff_beneath hs.mem (hks ▸ hkey)).mp hs
      obtain ⟨i, hi⟩ := exists_mem_of_ne_nil _ (h.recorded s hs.mem).nonempty
      obtain ⟨m, hm, hkm, rfl⟩ := hd.known s hs.mem hbeneath i hi
      have hleft := (leftCurrent_iff hinv h hm).mpr ((hd.aggregated s hs.mem hbeneath m hm hkm).mp hi)
      obtain ⟨hm, hcm⟩ := mem_electedWithout_current.mpr ⟨m, hleft, rfl⟩
      exact ⟨_, mem_adsetGroup.mpr ⟨hm, hkm.trans hks⟩, hcm⟩
    · rintro ⟨r, hr, hc⟩
      obtain ⟨hr, hk⟩ := mem_adsetGroup.mp hr
      obtain ⟨m, hm, rfl⟩ := mem_electedWithout_current.mp ⟨hr, hc⟩
      obtain ⟨w, hw, hb, rfl⟩ := mem_storedKeys.mp hkey
      have hother : ∃ v ∈ store.adsetMetrics.rows, v.key = w.key ∧ v.batch ≠ id := by
        by_contra hnone
        have hnot := hd.alone w hw hb (fun v hv hkv => by_contra fun hvb => hnone ⟨v, hv, hkv, hvb⟩)
          m hm.mem hk
        exact ((leftCurrent_iff hinv h hm.mem).mp hm).elim hnot.1 hnot.2
      obtain ⟨v, hv, hkv, hvb⟩ := hother
      have hleft : v ∈ store.adsetMetrics.rows.filter fun r => r.batch ≠ id :=
        mem_filter.mpr ⟨hv, decide_eq_true hvb⟩
      obtain ⟨s, hs, hks, hnew⟩ := exists_newest hleft
      have hks' : s.key = w.key := hks.trans hkv
      have hcur : LeftCurrent id (storedKeys id store.adsetMetrics) store.adsetMetrics.rows s := by
        refine ⟨hs, ?_⟩
        rw [if_pos (hks' ▸ hkey)]
        exact hnew
      obtain ⟨hm', hcm⟩ := mem_electedWithout_current.mpr ⟨s, hcur, rfl⟩
      exact ⟨_, mem_adsetVersions.mpr ⟨hm', hks'⟩, hcm⟩
  ids := by
    intro w hw hc i
    obtain ⟨hw, hk⟩ := mem_adsetVersions.mp hw
    obtain ⟨s, hs, rfl⟩ := mem_electedWithout_current.mp ⟨hw, hc⟩
    have hks : s.key = key := hk
    have hbeneath := (leftCurrent_iff_beneath hs.mem (hks ▸ hkey)).mp hs
    constructor
    · intro hi
      obtain ⟨m, hm, hkm, rfl⟩ := hd.known s hs.mem hbeneath i hi
      have hleft := (leftCurrent_iff hinv h hm).mpr ((hd.aggregated s hs.mem hbeneath m hm hkm).mp hi)
      obtain ⟨hm, hcm⟩ := mem_electedWithout_current.mpr ⟨m, hleft, rfl⟩
      exact ⟨_, mem_adsetGroup.mpr ⟨hm, hkm.trans hks⟩, hcm, rfl⟩
    · rintro ⟨r, hr, hcr, rfl⟩
      obtain ⟨hr, hkr⟩ := mem_adsetGroup.mp hr
      obtain ⟨m, hm, rfl⟩ := mem_electedWithout_current.mp ⟨hr, hcr⟩
      exact (hd.aggregated s hs.mem hbeneath m hm.mem (Eq.trans hkr hks.symm)).mpr
        ((leftCurrent_iff hinv h hm.mem).mp hm)

theorem mem_electedWithout [DecidableEq κ] {ks : List κ} {rows : List (Versioned κ δ)} {r : Versioned κ δ}
    (hr : r ∈ electedWithout id ks rows) :
    ∃ s ∈ rows, s.batch ≠ id ∧ r = { s with current := r.current } := by
  obtain ⟨s, hs, rfl⟩ := mem_map.mp hr
  obtain ⟨hs, hb⟩ := mem_filter.mp hs
  refine ⟨s, hs, of_decide_eq_true hb, ?_⟩
  split
  · rfl
  · rfl

theorem exists_mem_electedWithout [DecidableEq κ] (ks : List κ) {rows : List (Versioned κ δ)}
    {s : Versioned κ δ} (hs : s ∈ rows) (hb : s.batch ≠ id) :
    ∃ r ∈ electedWithout id ks rows, r.batch = s.batch ∧ r.key = s.key := by
  refine ⟨_, mem_map_of_mem (mem_filter.mpr ⟨hs, decide_eq_true hb⟩), ?_⟩
  split
  · exact ⟨rfl, rfl⟩
  · exact ⟨rfl, rfl⟩

/-- **A step of the second kind**: a deletion that finds what it needs, or writes nothing. -/
theorem AgreementInv.deleteUpload (hinv : StoreInv store) (h : AgreementInv store) (retains : Bool)
    (hd : (store.batches.any (·.id = id) && retains) = true → DeletionAgrees id store) :
    AgreementInv (deleteUpload retains id store) := by
  by_cases hdone : (store.batches.any (·.id = id) && retains) = true
  · replace hd := hd hdone
    rw [Bool.and_eq_true] at hdone
    obtain ⟨hany, rfl⟩ := hdone
    have hb : ∃ b ∈ store.batches, b.id = id := by simpa using hany
    have e1 := deleteUpload_adRows hinv hb
    have e2 := deleteUpload_adsetRows hinv hb
    have hgrows : Grows store.adMetrics (Meta.deleteUpload true id store).adMetrics := by
      refine Grows.of_descends id (fun r hr => ?_) ?_
      · rw [e1] at hr
        obtain ⟨s, hs, -, e⟩ := mem_electedWithout hr
        exact .inl ⟨s, hs, e⟩
      · rw [(deleteUpload_eq hb).1]
        exact nextId_foldl_reelect _ _
    refine ⟨fun key => ?_, fun w hw => ?_, fun m hm => ?_⟩
    · rw [e1, e2]
      by_cases hkey : key ∈ storedKeys id store.adsetMetrics
      · exact hd.agreesAt hinv h hkey
      · obtain ⟨h1, h2⟩ := deleteUpload_untouched hinv h hkey
        rw [h1, h2]
        exact h.agrees key
    · rw [e2] at hw
      obtain ⟨s, hs, -, e⟩ := mem_electedWithout hw
      rw [e]
      exact (h.recorded s hs).grows hgrows
    · rw [e1] at hm
      obtain ⟨s, hs, hbatch, e⟩ := mem_electedWithout hm
      obtain ⟨w, hw, hwb, hwk⟩ := h.covered s hs
      rw [← hwb] at hbatch
      rw [e2, e]
      obtain ⟨r, hr, hrb, hrk⟩ := exists_mem_electedWithout (storedKeys id store.adsetMetrics) hw hbatch
      exact ⟨r, hr, hrb.trans hwb, hrk.trans hwk⟩
  · have hsame : Meta.deleteUpload retains id store = store := if_neg hdone
    rw [hsame]
    exact h

end Delete

/-! ## 6. Runs -/

section Runs

variable (sha1 : Sha1) (toLowerCase : String → String)

/-- The stores of all runs of ad-level imports and deletions in which no file is imported in part
    and every deletion that writes finds what it needs. -/
inductive AgreeingRun : MetaStore → Prop where
  | start : AgreeingRun emptyStore
  | importFile {store : MetaStore} (env : ImportEnv) (policy : ConflictPolicy) (file : MetaCsvFile)
      (h : AgreeingRun store)
      (hfile : stopsBeforeRows sha1 env policy file store = true ∨ FileValid sha1 file ∨
        ∀ key ∈ fileKeys sha1 file, policy = .SKIP ∧ HasCurrent key store.adMetrics.rows) :
      AgreeingRun (importMetaAdDailyCsv sha1 toLowerCase env policy file store).1
  | delete {store : MetaStore} (retains : Bool) (id : Nat) (h : AgreeingRun store)
      (hd : (store.batches.any (·.id = id) && retains) = true → DeletionAgrees id store) :
      AgreeingRun (deleteUpload retains id store)

variable {sha1 toLowerCase}

theorem AgreeingRun.inv (h : AgreeingRun sha1 toLowerCase store) :
    StoreInv store ∧ AgreementInv store := by
  induction h with
  | start =>
    refine ⟨StoreInv.empty, fun key => ⟨?_, fun w hw => ?_⟩, fun w hw => ?_, fun m hm => ?_⟩
    · exact ⟨fun ⟨w, hw, _⟩ => (nomatch hw), fun ⟨m, hm, _⟩ => (nomatch hm)⟩
    · cases hw
    · cases hw
    · cases hm
  | importFile env policy file _ hfile ih =>
    exact ⟨ih.1.importMetaAdDailyCsv, AgreementInv.importMetaAdDailyCsv ih.1 ih.2 hfile⟩
  | delete retains id _ hd ih =>
    exact ⟨ih.1.deleteUpload retains id, AgreementInv.deleteUpload ih.1 ih.2 retains hd⟩

/-- **The levels agree in every state of such a run.** -/
theorem levels_agree {store : MetaStore} (h : AgreeingRun sha1 toLowerCase store) :
    LevelsAgree store := AgreementInv.levelsAgree h.inv.1 h.inv.2

end Runs

/-! ## 7. Samples -/

/-- Both ads are stored twice. -/
def twoVersionsStore : MetaStore :=
  (importMetaAdDailyCsv sampleSha1 asciiLowerCase sampleEnv .OVERWRITE
    (sampleFile "g" [sampleRow "2026-01-05" "7" "2", sampleRow "2026-01-05" "8" "3"])
    (importMetaAdDailyCsv sampleSha1 asciiLowerCase sampleEnv .SKIP
      (sampleFile "h" [sampleRow "2026-01-05" "7" "1.5", sampleRow "2026-01-05" "8" "1"])
      emptyStore).1).1

theorem deletionAgrees_twoVersionsStore : DeletionAgrees 1 twoVersionsStore :=
  ⟨by decide +kernel, by decide +kernel, by decide +kernel⟩

/-- The deletion of the second versions finds the adset metric of the first ones. -/
theorem levels_agree_after_delete : LevelsAgree (deleteUpload true 1 twoVersionsStore) := by
  have h1 : AgreeingRun sampleSha1 asciiLowerCase (importMetaAdDailyCsv sampleSha1 asciiLowerCase sampleEnv
      .SKIP (sampleFile "h" [sampleRow "2026-01-05" "7" "1.5", sampleRow "2026-01-05" "8" "1"])
      emptyStore).1 := .importFile _ _ _ .start (.inr (.inl (by decide +kernel)))
  have h2 : AgreeingRun sampleSha1 asciiLowerCase twoVersionsStore :=
    .importFile _ _ _ h1 (.inr (.inl (by decide +kernel)))
  exact levels_agree (.delete true 1 h2 fun _ => deletionAgrees_twoVersionsStore)

/-- The second row has no spend that can be read. -/
def partialStore : MetaStore :=
  runAll sampleSha1 asciiLowerCase
    [sampleImport .SKIP "h" [sampleRow "2026-01-05" "7" "1.5", sampleRow "2026-01-05" "8" "x"]] emptyStore

/-- The second file keeps ad 7 of the first batch, which is then deleted. -/
def staleStore : MetaStore :=
  runAll sampleSha1 asciiLowerCase
    [sampleImport .SKIP "h" [sampleRow "2026-01-05" "7" "1.5"],
      sampleImport .SKIP "g" [sampleRow "2026-01-05" "7" "2", sampleRow "2026-01-05" "9" "3"],
      .deleteUpload true 0] emptyStore

/-- After a file in part there is an ad metric without adset metric; after the deletion the adset
    metric still counts the ad that is gone. -/
theorem levels_disagree : ¬ LevelsAgree partialStore ∧ ¬ LevelsAgree staleStore := by
  constructor
  · intro h
    have hnone : ∀ m ∈ partialStore.adMetrics.rows, m.current = true →
        HasCurrent (adsetKeyOf m) partialStore.adsetMetrics.rows := fun m hm hc =>
      (h.exists_iff _).mpr ⟨m, hm, hc, rfl⟩
    exact absurd hnone (by decide +kernel)
  · intro h
    exact absurd h.totals (by decide +kernel)

end AdsManagement.Meta
