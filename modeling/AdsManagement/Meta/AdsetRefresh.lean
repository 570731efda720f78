/-
  File:      Meta/AdsetRefresh.lean
  Subject:   THE REFRESH OF THE ADSET METRICS IN CLOSED FORM: the ad metrics that are current on
             the dates of a snapshot are grouped by date and adset, and every group is offered as
             one adset metric.

  The groups are found by text keys; for dates that were read from a file and for ids the text
  decides date and adset (`snapshotMetricKey_inj`), so that a group holds exactly the metrics of
  one adset on one date.

  * `adsetAggregates_spec` -- one aggregate for each date and adset with a metric;
  * `refresh_eq` -- the refresh as offers, followed by the hiding of the other adsets.
-/
import AdsManagement.Meta.AdImport

namespace AdsManagement.Meta

open Common Lib Coupang List

/-! ## 1. Text keys of adset metrics -/

theorem idText_inj {i j : Nat} (h : idText i = idText j) : i = j := by
  have hl : natText i = natText j := by
    have := congrArg String.toList h
    simpa [idText] using this
  obtain ⟨ds, hi, vi, -⟩ := readDigits_natText i
  obtain ⟨es, hj, vj, -⟩ := readDigits_natText j
  rw [hl, hj] at hi
  rw [← vi, ← vj, Option.some.inj hi]

theorem snapshotMetricKey_inj {a b : AdsetMetricKey} (ha : ReadsBack a.metricDate)
    (hb : ReadsBack b.metricDate) (h : snapshotMetricKey a = snapshotMetricKey b) : a = b := by
  have hl := congrArg String.toList h
  unfold snapshotMetricKey at hl
  simp only [String.toList_append, append_assoc] at hl
  obtain ⟨hd, h2⟩ := formatDateOnly_append_inj ha hb hl
  have hi := idText_inj (String.toList_inj.mp (append_cancel_left h2))
  cases b
  cases hd
  cases hi
  rfl

/-! ## 2. The groups -/

/-- The date and the adset of an ad metric. -/
def adsetKeyOf (metric : MetaAdDailyMetric) : AdsetMetricKey :=
  ⟨metric.key.metricDate, metric.data.metaAdsetRefId⟩

/-- The metrics of one adset on one date. -/
def adsetGroup (key : AdsetMetricKey) (metrics : List MetaAdDailyMetric) : List MetaAdDailyMetric :=
  metrics.filter fun metric => adsetKeyOf metric = key

/-- What the source computes for a date and an adset with metrics. -/
def IsAggregateOf (toLowerCase : String → String) (metrics : List MetaAdDailyMetric)
    (aggregate : AdsetAggregateInput) : Prop :=
  ∃ first rest, adsetGroup aggregate.key metrics = first :: rest ∧
    aggregate = aggregateAdRows toLowerCase first rest

variable {toLowerCase : String → String} {metrics : List MetaAdDailyMetric}
variable {a : AdsetAggregateInput}

theorem IsAggregateOf.exists_metric (h : IsAggregateOf toLowerCase metrics a) :
    ∃ m ∈ metrics, adsetKeyOf m = a.key := by
  obtain ⟨first, rest, hg, -⟩ := h
  have hfirst : first ∈ adsetGroup a.key metrics := by
    rw [hg]
    exact mem_cons_self
  obtain ⟨hm, hk⟩ := mem_filter.mp hfirst
  exact ⟨first, hm, of_decide_eq_true hk⟩

variable {m : MetaAdDailyMetric}

theorem filter_groupKey (hd : ∀ m ∈ metrics, ReadsBack m.key.metricDate) (hm : m ∈ metrics) :
    metrics.filter (fun x => groupKey x = groupKey m) = adsetGroup (adsetKeyOf m) metrics := by
  refine filter_congr fun x hx => ?_
  have : groupKey x = groupKey m ↔ adsetKeyOf x = adsetKeyOf m :=
    ⟨fun e => snapshotMetricKey_inj (hd x hx) (hd m hm) e, fun e => congrArg snapshotMetricKey e⟩
  simp only [this]

/-- An entry of the group map: its metrics are those of one date and adset. -/
theorem mem_groups {k : String} {group : List MetaAdDailyMetric}
    (hd : ∀ m ∈ metrics, ReadsBack m.key.metricDate)
    (h : (k, group) ∈ (groupBy groupKey metrics).entries) :
    ∃ first rest, group = first :: rest ∧ first ∈ metrics ∧ groupKey first = k ∧
      group = adsetGroup (adsetKeyOf first) metrics := by
  obtain ⟨e, hne⟩ := get_groupBy_eq_some (OrderedMap.get_eq_some_iff.mpr h)
  cases group with
  | nil => exact absurd rfl hne
  | cons first rest =>
    have hm : first ∈ metrics.filter (groupKey · = k) := by
      rw [← e]
      exact mem_cons_self
    obtain ⟨hm, hk⟩ := mem_filter.mp hm
    have hk' : groupKey first = k := by simpa using hk
    refine ⟨first, rest, rfl, hm, hk', ?_⟩
    rw [← filter_groupKey hd hm, e, hk']

theorem map_adsetAggregates {entries : List (String × List MetaAdDailyMetric)}
    (h : ∀ e ∈ entries, ∃ first rest, e.2 = first :: rest ∧ groupKey first = e.1) :
    (adsetAggregates toLowerCase (entries.map (·.2))).map (fun a => snapshotMetricKey a.key) =
      entries.map (·.1) := by
  induction entries with
  | nil => rfl
  | cons e entries ih =>
    obtain ⟨first, rest, e1, e2⟩ := h e mem_cons_self
    have hrest := ih fun e' he' => h e' (mem_cons_of_mem _ he')
    unfold adsetAggregates at hrest ⊢
    rw [map_cons, filterMap_cons_some (by rw [e1]), map_cons, hrest]
    exact congrArg (· :: _) e2

/-- **There is one aggregate for each date and adset with a metric, made of all its metrics.** -/
theorem adsetAggregates_spec (hd : ∀ m ∈ metrics, ReadsBack m.key.metricDate) :
    ((adsetAggregates toLowerCase (groupBy groupKey metrics).values).map (·.key)).Nodup ∧
      (∀ a ∈ adsetAggregates toLowerCase (groupBy groupKey metrics).values,
        IsAggregateOf toLowerCase metrics a) ∧
      ∀ m ∈ metrics, ∃ a ∈ adsetAggregates toLowerCase (groupBy groupKey metrics).values,
        a.key = adsetKeyOf m := by
  refine ⟨?_, fun a ha => ?_, fun m hm => ?_⟩
  · have hmap : (adsetAggregates toLowerCase (groupBy groupKey metrics).values).map
        (fun a => snapshotMetricKey a.key) = (groupBy groupKey metrics).entries.map (·.1) := by
      refine map_adsetAggregates fun e he => ?_
      obtain ⟨first, rest, e1, -, e2, -⟩ := mem_groups hd he
      exact ⟨first, rest, e1, e2⟩
    have hn := (groupBy groupKey metrics).nodup
    rw [← hmap] at hn
    exact Nodup.of_map snapshotMetricKey (by rwa [map_map])
  · obtain ⟨group, hg, e⟩ := mem_filterMap.mp ha
    obtain ⟨⟨k, group'⟩, hp, rfl⟩ := mem_map.mp hg
    obtain ⟨first, rest, e1, -, -, e2⟩ := mem_groups hd hp
    rw [e1] at e e2
    cases e
    exact ⟨first, rest, e2.symm, rfl⟩
  · have hsome : (groupBy groupKey metrics).get (groupKey m) =
        some (metrics.filter (groupKey · = groupKey m)) := by
      rw [get_groupBy, if_neg]
      exact ne_nil_of_mem (mem_filter.mpr ⟨hm, by simp⟩)
    have hp := OrderedMap.get_eq_some_iff.mp hsome
    obtain ⟨first, rest, e1, -, e2, -⟩ := mem_groups hd hp
    have hfirst : first ∈ metrics := by
      have : first ∈ metrics.filter (groupKey · = groupKey m) := by
        rw [e1]
        exact mem_cons_self
      exact (mem_filter.mp this).1
    refine ⟨aggregateAdRows toLowerCase first rest, ?_, ?_⟩
    · refine mem_filterMap.mpr ⟨_, mem_map_of_mem hp, ?_⟩
      rw [e1]
    · exact snapshotMetricKey_inj (hd first hfirst) (hd m hm) e2

/-! ## 3. The refresh -/

/-- `OVERWRITE` skips nothing. -/
theorem aggregateTurn_eq (batchId now : Nat) (state : AggregateLoop) (a : AdsetAggregateInput) :
    aggregateTurn batchId now state a =
      ⟨offer false batchId now a.key a.data state.table,
        state.includedAdsetKeys ++ [snapshotMetricKey a.key], state.importedCount + 1⟩ := by
  have hskip : ¬ (importAdsetAggregateMetric .OVERWRITE batchId now a state.table).skipped = true :=
    fun h => (nomatch (importVersion_skipped_iff.mp h).1)
  have htable : (importAdsetAggregateMetric .OVERWRITE batchId now a state.table).table =
      offer false batchId now a.key a.data state.table := importVersion_table ..
  unfold aggregateTurn
  rw [if_neg hskip, htable]

/-- Every aggregate is offered and its key included. -/
theorem foldl_aggregateTurn (batchId now : Nat) (aggregates : List AdsetAggregateInput)
    (state : AggregateLoop) :
    aggregates.foldl (aggregateTurn batchId now) state =
      ⟨(aggregates.map fun a => (a.key, a.data)).foldl
          (fun t e => offer false batchId now e.1 e.2 t) state.table,
        state.includedAdsetKeys ++ aggregates.map (fun a => snapshotMetricKey a.key),
        state.importedCount + aggregates.length⟩ := by
  induction aggregates generalizing state with
  | nil => simp
  | cons a rest ih =>
    rw [foldl_cons, ih, aggregateTurn_eq]
    simp only [map_cons, foldl_cons, length_cons, append_assoc,
      singleton_append, Nat.add_assoc, Nat.add_comm 1]

section Refresh

variable (toLowerCase : String → String) (order : QueryOrder) (batchId now : Nat) (dates : List Int)
  (ads : VersionTable AdMetricKey AdMetricData) (adsetMetrics : VersionTable AdsetMetricKey AdsetMetricData)

/-- The aggregates of a refresh. -/
def refreshAggregates : List AdsetAggregateInput :=
  adsetAggregates toLowerCase
    (groupBy groupKey (order.adMetrics (currentOnDates dates ads.rows))).values

variable {toLowerCase order batchId now dates ads adsetMetrics}

theorem mem_currentOnDates {rows : List MetaAdDailyMetric} :
    m ∈ currentOnDates dates rows ↔ m ∈ rows ∧ m.current = true ∧ m.key.metricDate ∈ dates := by
  unfold currentOnDates
  simp

/-- The metrics the refresh reads. -/
theorem mem_refreshed :
    m ∈ order.adMetrics (currentOnDates dates ads.rows) ↔
      m ∈ ads.rows ∧ m.current = true ∧ m.key.metricDate ∈ dates := by
  rw [(order.adMetrics_perm _).mem_iff, mem_currentOnDates]

section

variable (hd : ∀ m ∈ ads.rows, ReadsBack m.key.metricDate)
include hd

/-- An aggregate is made of the metrics the refresh reads. -/
theorem isAggregateOf_refreshAggregates (ha : a ∈ refreshAggregates toLowerCase order dates ads) :
    IsAggregateOf toLowerCase (order.adMetrics (currentOnDates dates ads.rows)) a :=
  (adsetAggregates_spec fun m hm => hd m (mem_refreshed.mp hm).1).2.1 a ha

theorem key_of_mem_refreshAggregates (ha : a ∈ refreshAggregates toLowerCase order dates ads) :
    a.key.metricDate ∈ dates ∧ ReadsBack a.key.metricDate := by
  obtain ⟨m, hm, hk⟩ := (isAggregateOf_refreshAggregates hd ha).exists_metric
  obtain ⟨hr, -, hdate⟩ := mem_refreshed.mp hm
  rw [← hk]
  exact ⟨hdate, hd m hr⟩

/-- Every metric the refresh reads has its aggregate. -/
theorem exists_refreshAggregate (hm : m ∈ ads.rows)
    (hc : m.current = true) (hdate : m.key.metricDate ∈ dates) :
    ∃ a ∈ refreshAggregates toLowerCase order dates ads, a.key = adsetKeyOf m :=
  (adsetAggregates_spec fun m hm => hd m (mem_refreshed.mp hm).1).2.2 m
    (mem_refreshed.mpr ⟨hm, hc, hdate⟩)

/-- What the refresh offers, and the keys it hides afterwards. -/
theorem refresh_eq (hne : refreshAggregates toLowerCase order dates ads ≠ []) :
    (refreshAdsetAggregatesFromAdMetrics toLowerCase order batchId now dates ads adsetMetrics).1 =
      hide (fun k => dates.contains k.metricDate &&
          !((refreshAggregates toLowerCase order dates ads).map fun a =>
            snapshotMetricKey a.key).contains (snapshotMetricKey k))
        (((refreshAggregates toLowerCase order dates ads).map fun a => (a.key, a.data)).foldl
          (fun t e => offer false batchId now e.1 e.2 t) adsetMetrics) := by
  obtain ⟨a, ha⟩ := exists_mem_of_ne_nil _ hne
  have hdates : dates.length ≠ 0 := by
    have := (key_of_mem_refreshAggregates hd ha).1
    exact fun h => by rw [length_eq_zero_iff.mp h] at this; cases this
  have hlen : 0 < (refreshAggregates toLowerCase order dates ads).length :=
    length_pos_of_mem ha
  unfold refreshAdsetAggregatesFromAdMetrics
  rw [if_neg hdates]
  dsimp only
  rw [show adsetAggregates toLowerCase (groupBy groupKey
      (order.adMetrics (currentOnDates dates ads.rows))).values =
    refreshAggregates toLowerCase order dates ads from rfl, foldl_aggregateTurn]
  dsimp only [nil_append]
  have hlen' : 0 < ((refreshAggregates toLowerCase order dates ads).map fun a =>
      snapshotMetricKey a.key).length := by
    rw [length_map]
    exact hlen
  rw [if_pos hlen']
  unfold deactivateMissingSnapshotMetrics
  rw [if_neg (by omega)]

theorem nodup_refreshAggregates : ((refreshAggregates toLowerCase order dates ads).map (·.key)).Nodup :=
  (adsetAggregates_spec fun m hm => hd m (mem_refreshed.mp hm).1).1

end

/-- **The refresh in closed form**: no old adset metric of the dates stays current, and there is
    one new current metric for each aggregate. -/
theorem refresh_rows (hc : Coherent adsetMetrics) (hd : ∀ m ∈ ads.rows, ReadsBack m.key.metricDate)
    (hs : ∀ m ∈ adsetMetrics.rows, ReadsBack m.key.metricDate)
    (hne : refreshAggregates toLowerCase order dates ads ≠ []) :
    ∃ news, (refreshAdsetAggregatesFromAdMetrics toLowerCase order batchId now dates ads
          adsetMetrics).1.rows =
        hideKeys (fun k => dates.contains k.metricDate) adsetMetrics.rows ++ news ∧
      Forall₂ (IsVersionOf batchId)
        ((refreshAggregates toLowerCase order dates ads).map fun a => (a.key, a.data)) news := by
  have hn : (((refreshAggregates toLowerCase order dates ads).map fun a => (a.key, a.data)).map
      (·.1)).Nodup := by
    rw [map_map]
    exact nodup_refreshAggregates hd
  obtain ⟨news, hrows, hnews⟩ := foldl_offer_rows hc false batchId now hn
  have hall : ∀ l : List (AdsetMetricKey × AdsetMetricData),
      storedEntries false adsetMetrics.rows l = l := fun l =>
    filter_eq_self.mpr fun e _ => rfl
  rw [hall] at hrows hnews
  refine ⟨news, ?_, hnews⟩
  rw [refresh_eq hd hne, hide_rows (hc.foldl_offer _ _ _ _), hrows, hideKeys_append,
    hideKeys_hideKeys]
  refine congrArg₂ (· ++ ·) (hideKeys_congr fun r hr => ?_) (hideKeys_of_not fun r hr => ?_)
  · by_cases hk : r.key ∈ (refreshAggregates toLowerCase order dates ads).map (·.key)
    · obtain ⟨a, ha, e⟩ := mem_map.mp hk
      have h1 := (key_of_mem_refreshAggregates hd ha).1
      rw [e] at h1
      simp only [map_map, Function.comp_def, hk]
      simpa using h1
    · -- the text of an aggregate's key is the text of no other key
      have hnot : ((refreshAggregates toLowerCase order dates ads).map fun a =>
          snapshotMetricKey a.key).contains (snapshotMetricKey r.key) = false := by
        rw [Bool.eq_false_iff]
        intro hm
        obtain ⟨a, ha, e⟩ := mem_map.mp (contains_iff_mem.mp hm)
        have e' := snapshotMetricKey_inj (key_of_mem_refreshAggregates hd ha).2 (hs r hr) e
        exact hk (mem_map.mpr ⟨a, ha, e'⟩)
      simp only [map_map, Function.comp_def, hk, decide_false, Bool.false_or, hnot,
        Bool.not_false, Bool.and_true]
  · obtain ⟨e, he, hv⟩ := entry_of_mem_news hnews hr
    obtain ⟨a, ha, rfl⟩ := mem_map.mp he
    rw [hv.key, contains_iff_mem.mpr (mem_map.mpr ⟨a, ha, rfl⟩), Bool.not_true, Bool.and_false]

end Refresh

end AdsManagement.Meta
