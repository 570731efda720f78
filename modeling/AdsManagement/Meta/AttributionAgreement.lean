/-
  File:      Meta/AttributionAgreement.lean
  Subject:   DOES THE ATTRIBUTION OF AN ADSET FOLLOW ITS ADS? Yes, through imports, manual mappings,
             changes of the rules and rematches, in whatever order they come.

  Four pieces of code write attributions. Each of them treats the ad metrics of an adset on a date
  and its adset metric together; the rematch of single ad metrics, which does not, finds nothing to
  do as long as the attributions agree (`standaloneAdMetrics_eq_nil`).

  * `AttributionFollows` -- what the attributions have to satisfy;
  * `AttributionInv.importAds`, `AttributionInv.mapProduct`, `AttributionInv.rematchAdsetMetric` --
    one step;
  * `Settled` -- a metric that a further rematch leaves alone;
  * `attribution_follows_ads` -- every run.
-/
import AdsManagement.Meta.AttributionRematch
import AdsManagement.Meta.LevelAgreement
import AdsManagement.Meta.ManualMappings

namespace AdsManagement.Meta

open Common Lib Coupang List

/-! ## 1. Runs -/

/-- New rules and products. Rules are created and switched off in several places, which makes no
    difference here; the product of a rule is the UUID of a row. -/
structure RuleChange where
  rules : List ProductMatchRule
  products : List Product
  named : ∀ rule ∈ rules, rule.productId ≠ ""

/-- An import asks the matchers of the mappings service. -/
def importAds (sha1 : Sha1) (env : MappingEnv) (importEnv : ImportEnv) (file : MetaCsvFile)
    (db : MappingStore) : MetaStore × ImportOutcome :=
  importMetaAdDailyCsv sha1 env.toLowerCase
    { importEnv with matchProduct := matchProduct env db, matchStage := matchStage env db } .OVERWRITE file
    db.store

/-- No row of an imported file was invalid. -/
def ErrorFree (outcome : ImportOutcome) : Prop :=
  ∀ batchId errorCount, outcome = .imported batchId errorCount → errorCount = 0

def emptyMappingStore : MappingStore := ⟨emptyStore, [], [], [], []⟩

/-- The databases that the four kinds of steps reach. -/
inductive Attributed (sha1 : Sha1) : MappingStore → Prop where
  | start : Attributed sha1 emptyMappingStore
  | importAds {db : MappingStore} (env : MappingEnv) (importEnv : ImportEnv) (file : MetaCsvFile)
      (h : Attributed sha1 db) (hfree : ErrorFree (importAds sha1 env importEnv file db).2) :
      Attributed sha1 { db with store := (importAds sha1 env importEnv file db).1 }
  | createManualProductMapping {db db' : MappingStore} (env : MappingEnv) (body : Body)
      (h : Attributed sha1 db) (hok : createManualProductMapping env body db = .ok db') :
      Attributed sha1 db'
  | changeRules {db : MappingStore} (change : RuleChange) (h : Attributed sha1 db) :
      Attributed sha1 { db with rules := change.rules, products := change.products }
  | rematchCurrentMetrics {db db' : MappingStore} (env : RematchEnv) (body : Body)
      (summary : RematchSummary) (h : Attributed sha1 db)
      (hok : rematchCurrentMetrics env body db = .ok (db', summary)) : Attributed sha1 db'

/-! ## 2. The invariant -/

/-- The current adset metric of a date and adset with current ad metrics carries what they say
    together. -/
structure AttributionFollows (store : MetaStore) : Prop where
  exists_adset : ∀ m ∈ store.adMetrics.rows, m.current = true →
    HasCurrent (adsetKeyOf m) store.adsetMetrics.rows
  follows : ∀ w ∈ store.adsetMetrics.rows, w.current = true →
    sourceRowsOf w.key store.adMetrics.rows ≠ [] →
      adsetAttribution w.data = aggregateProductAttribution (sourceRowsOf w.key store.adMetrics.rows)

/-- No product id is the empty text, so that a product is there or `null`. -/
structure ProductsNamed (db : MappingStore) : Prop where
  rules : ∀ rule ∈ db.rules, rule.productId ≠ ""
  histories : ∀ history ∈ db.productHistories, history.value ≠ ""
  ads : ∀ m ∈ db.store.adMetrics.rows, m.data.productId ≠ some ""
  adsets : ∀ w ∈ db.store.adsetMetrics.rows, w.data.productId ≠ some ""

structure AttributionInv (db : MappingStore) : Prop where
  store : StoreInv db.store
  follows : AttributionFollows db.store
  named : ProductsNamed db

theorem isTruthy_eq_false_iff {productId : Option String} (h : productId ≠ some "") :
    isTruthy productId = false ↔ productId = none := by
  cases productId with
  | none => simp [isTruthy]
  | some p =>
    have hp : p ≠ "" := fun e => h (congrArg some e)
    simp [isTruthy, hp]

theorem AttributionInv.start : AttributionInv emptyMappingStore where
  store := StoreInv.empty
  follows := ⟨fun m hm => (by cases hm), fun w hw => (by cases hw)⟩
  named := ⟨fun r hr => (by cases hr), fun x hx => (by cases hx), fun m hm => (by cases hm),
    fun w hw => (by cases hw)⟩

variable {db : MappingStore}

theorem AttributionInv.changeRules (h : AttributionInv db) (change : RuleChange) :
    AttributionInv { db with rules := change.rules, products := change.products } where
  store := h.store
  follows := h.follows
  named := ⟨change.named, h.named.histories, h.named.ads, h.named.adsets⟩

/-- The matcher answers with a product or with none, never with an empty text. -/
theorem matchProduct_named (hrules : ∀ rule ∈ db.rules, rule.productId ≠ "")
    (hhist : ∀ history ∈ db.productHistories, history.value ≠ "") (env : MappingEnv) (metaAdsetId : Nat)
    (text : String) (d : Int) : (matchProduct env db metaAdsetId text d).productId ≠ some "" := by
  unfold matchProduct matchAdsetProduct
  dsimp only
  split
  · rename_i manual e
    have hm := (env.productHistories.perm _).mem_iff.mp (mem_of_find?_eq_some e)
    exact fun he => hhist manual (mem_filter.mp hm).1 (Option.some.inj he)
  · split
    · rename_i rule e
      have hm := (perm_insertionSort _ _).mem_iff.mp (mem_of_find?_eq_some e)
      have hm := (perm_insertionSort _ _).mem_iff.mp (mem_filter.mp hm).1
      have hm := (env.rules.perm _).mem_iff.mp hm
      exact fun he => hrules rule (mem_filter.mp hm).1 (Option.some.inj he)
    · exact fun he => by cases he

variable {key : AdsetMetricKey}

theorem isSourceOf_iff_key {m : MetaAdDailyMetric} :
    isSourceOf key m = true ↔ m.current = true ∧ adsetKeyOf m = key := by
  rw [isSourceOf_iff]
  unfold adsetKeyOf
  constructor
  · rintro ⟨hc, hid, hd⟩
    exact ⟨hc, by rw [hid, hd]⟩
  · rintro ⟨hc, rfl⟩
    exact ⟨hc, rfl, rfl⟩

theorem sourceRowsOf_eq (key : AdsetMetricKey) (rows : List MetaAdDailyMetric) :
    sourceRowsOf key rows = (adsetGroup key rows).filter (·.current) := by
  unfold adsetGroup
  rw [filter_filter]
  refine filter_congr fun m _ => ?_
  rw [Bool.eq_iff_iff, isSourceOf_iff_key, Bool.and_eq_true, decide_eq_true_iff]

/-! ## 3. Imports -/

section Import

variable {sha1 : Sha1} {toLowerCase : String → String} {env : ImportEnv} {policy : ConflictPolicy}
  {file : MetaCsvFile} {store stored : MetaStore} {batchId : Nat}

theorem AttributionFollows.of_same (h : AttributionFollows store) {store' : MetaStore}
    (hads : store'.adMetrics = store.adMetrics) (hadsets : store'.adsetMetrics = store.adsetMetrics) :
    AttributionFollows store' := by
  obtain ⟨h1, h2⟩ := h
  refine ⟨?_, ?_⟩
  · rw [hads, hadsets]
    exact h1
  · rw [hads, hadsets]
    exact h2

/-- The rows a refresh reads for one date and adset, in any order. -/
theorem adsetGroup_refreshed_perm {order : QueryOrder} {dates : List Int} (hdate : key.metricDate ∈ dates)
    (rows : List MetaAdDailyMetric) :
    (adsetGroup key (order.adMetrics (currentOnDates dates rows))).Perm (sourceRowsOf key rows) := by
  refine ((order.adMetrics_perm _).filter _).trans (Perm.of_eq ?_)
  unfold currentOnDates
  rw [filter_filter]
  refine filter_congr fun m _ => ?_
  rw [Bool.eq_iff_iff, isSourceOf_iff_key, Bool.and_eq_true, Bool.and_eq_true, decide_eq_true_iff,
    contains_iff_mem]
  constructor
  · rintro ⟨hk, hc, -⟩
    exact ⟨hc, hk⟩
  · rintro ⟨hc, rfl⟩
    exact ⟨rfl, hc, hdate⟩

/-- After a snapshot the attributions of its dates follow, and those of the other dates stay. -/
theorem AttributionFollows.snapshot (hinv : StoreInv store) (h : AttributionFollows store)
    (hres : Reserved store stored batchId) (hn : (dailyKeys (parsedAdRows sha1 file)).Nodup)
    (hr : refreshes sha1 file = true) :
    AttributionFollows (importAdRows sha1 toLowerCase env policy batchId file stored).1 := by
  have hstored := Reserved.storeInv hinv hres
  have hold : AttributionFollows stored := h.of_same hres.adMetrics hres.adsetMetrics
  have hads : ∀ key : AdsetMetricKey, key.metricDate ∉ fileDates sha1 file → adsetGroup key
      (importAdRows sha1 toLowerCase env policy batchId file stored).1.adMetrics.rows =
        adsetGroup key stored.adMetrics.rows := fun key hdate => by
    rw [← adsetGroup_filter_date hdate, importAdRows_frame hstored.ads hn, adsetGroup_filter_date hdate]
  have hadsets : ∀ key : AdsetMetricKey, key.metricDate ∉ fileDates sha1 file → adsetVersions key
      (importAdRows sha1 toLowerCase env policy batchId file stored).1.adsetMetrics.rows =
        adsetVersions key stored.adsetMetrics.rows := fun key hdate => by
    rw [← adsetVersions_filter_date hdate, importAdRows_adset_frame hinv hres hn,
      adsetVersions_filter_date hdate]
  refine ⟨fun m hm hc => ?_, fun w hw hc hne => ?_⟩
  · by_cases hdate : m.key.metricDate ∈ fileDates sha1 file
    · exact (hasCurrent_adset_importAdRows hinv hres hn hr hdate).mpr ⟨m, hm, hc, rfl⟩
    · have hm' : m ∈ adsetGroup (adsetKeyOf m) stored.adMetrics.rows := by
        rw [← hads (adsetKeyOf m) hdate]
        exact mem_adsetGroup.mpr ⟨hm, rfl⟩
      obtain ⟨w, hw, hk, hcw⟩ := hold.exists_adset m (mem_adsetGroup.mp hm').1 hc
      have hw' : w ∈ adsetVersions (adsetKeyOf m)
          (importAdRows sha1 toLowerCase env policy batchId file stored).1.adsetMetrics.rows := by
        rw [hadsets (adsetKeyOf m) hdate]
        exact mem_adsetVersions.mpr ⟨hw, hk⟩
      exact ⟨w, (mem_adsetVersions.mp hw').1, hk, hcw⟩
  · by_cases hdate : w.key.metricDate ∈ fileDates sha1 file
    · obtain ⟨first, rest, hg, e⟩ := current_adset_importAdRows hinv hres hn hr hw hc hdate
      have ha : adsetAttribution w.data = aggregateProductAttribution (first :: rest) :=
        congrArg (fun a : AdsetAggregateInput => adsetAttribution a.data) e
      rw [ha, ← hg]
      exact aggregateProductAttribution_perm (adsetGroup_refreshed_perm hdate _)
    · have hw' : w ∈ adsetVersions w.key stored.adsetMetrics.rows := by
        rw [← hadsets w.key hdate]
        exact mem_adsetVersions.mpr ⟨hw, rfl⟩
      rw [sourceRowsOf_eq, hads w.key hdate, ← sourceRowsOf_eq] at hne ⊢
      exact hold.follows w (mem_adsetVersions.mp hw').1 hc hne

/-- A file offers the products its matcher names. -/
theorem adOffers_product {P : Option String → Prop}
    (h : ∀ id text d, P (env.matchProduct id text d).productId) (adsets : AdsetTable)
    (parsed : List ParsedAdDaily) :
    ∀ e ∈ (adOffers toLowerCase env adsets parsed).2, P e.2.productId := by
  induction parsed generalizing adsets with
  | nil => exact fun e he => (by cases he)
  | cons p rest ih =>
    unfold adOffers
    cases p.parsedRow with
    | none => exact ih adsets
    | some row =>
      dsimp only
      split
      · exact ih _
      · intro e he
        rcases mem_cons.mp he with rfl | he
        · exact h _ _ _
        · exact ih _ e he

theorem aggregateProductAttribution_named (rows : List MetaAdDailyMetric) :
    (aggregateProductAttribution rows).productId ≠ some "" := by
  rcases aggregateProductAttribution_cases rows with ⟨p, hp⟩ | e
  · rw [aggregateProductAttribution_of_namesAll hp]
    exact fun e => hp.named (Option.some.inj e)
  · rw [e]
    exact fun e => (by cases e)

variable (toLowerCase env policy) in
/-- An import stores named products. -/
theorem productsNamed_importAdRows (hinv : StoreInv store) (hres : Reserved store stored batchId)
    (hn : (dailyKeys (parsedAdRows sha1 file)).Nodup)
    (hmatch : ∀ id text d, (env.matchProduct id text d).productId ≠ some "")
    (hads : ∀ m ∈ store.adMetrics.rows, m.data.productId ≠ some "")
    (hadsets : ∀ w ∈ store.adsetMetrics.rows, w.data.productId ≠ some "") :
    (∀ m ∈ (importAdRows sha1 toLowerCase env policy batchId file stored).1.adMetrics.rows,
        m.data.productId ≠ some "") ∧
      ∀ w ∈ (importAdRows sha1 toLowerCase env policy batchId file stored).1.adsetMetrics.rows,
        w.data.productId ≠ some "" := by
  have hext : Extends batchId (fileOffers sha1 toLowerCase env file stored)
      (adsetEntriesOf sha1 toLowerCase env policy batchId file stored) store
      (importAdRows sha1 toLowerCase env policy batchId file stored).1 := importAdRows_extends hinv hres
  have hafter := hinv.importAdRows toLowerCase env policy hres hn
  constructor
  · intro m hm
    rcases hext.adRows m hm with ⟨s, hs, e⟩ | ⟨-, hnew⟩
    · rw [e]
      exact hads s hs
    · exact adOffers_product (P := (· ≠ some "")) hmatch _ _ (m.key, m.data) hnew
  · intro w hw
    rcases hext.adsetRows w hw with ⟨s, hs, e⟩ | ⟨-, hnew⟩
    · rw [e]
      exact hadsets s hs
    · obtain ⟨a, ha, e⟩ := mem_map.mp hnew
      obtain ⟨first, rest, -, ea⟩ := isAggregateOf_refreshAggregates hafter.adDates ha
      have hdata : w.data.productId = (aggregateProductAttribution (first :: rest)).productId := by
        rw [show w.data = a.data from (congrArg Prod.snd e).symm, ea]
        rfl
      rw [hdata]
      exact aggregateProductAttribution_named _

end Import

/-- **An import without invalid rows keeps the invariant.** -/
theorem AttributionInv.importAds {sha1 : Sha1} (h : AttributionInv db) (env : MappingEnv)
    (importEnv : ImportEnv) (file : MetaCsvFile)
    (hfree : ErrorFree (importAds sha1 env importEnv file db).2) :
    AttributionInv { db with store := (Meta.importAds sha1 env importEnv file db).1 } := by
  unfold Meta.importAds at hfree ⊢
  obtain ⟨asked, hasked⟩ : ∃ asked : ImportEnv, asked =
      { importEnv with matchProduct := matchProduct env db, matchStage := matchStage env db } := ⟨_, rfl⟩
  have hmatch : ∀ id text d, (asked.matchProduct id text d).productId ≠ some "" := by
    rw [hasked]
    exact matchProduct_named h.named.rules h.named.histories env
  rw [← hasked] at hfree ⊢
  rcases importMetaAdDailyCsv_cases h.store.toBatchInv sha1 env.toLowerCase asked .OVERWRITE file with
    ⟨hs, -⟩ | ⟨stored, batchId, hres, hn, e⟩
  · refine ⟨h.store.of_sameMetrics hs, h.follows.of_same hs.adMetrics hs.adsetMetrics,
      h.named.rules, h.named.histories, ?_, ?_⟩
    · rw [hs.adMetrics]
      exact h.named.ads
    · rw [hs.adsetMetrics]
      exact h.named.adsets
  · rw [e] at hfree ⊢
    have hzero := hfree batchId _ (importAdRows_parts sha1 env.toLowerCase asked file .OVERWRITE batchId
      stored).2.2.2
    have hnamed := productsNamed_importAdRows env.toLowerCase asked .OVERWRITE h.store hres hn hmatch
      h.named.ads h.named.adsets
    refine ⟨h.store.importAdRows env.toLowerCase asked .OVERWRITE hres hn, ?_, h.named.rules, h.named.histories, hnamed.1, hnamed.2⟩
    cases hr : refreshes sha1 file with
    | true => exact AttributionFollows.snapshot h.store h.follows hres hn hr
    | false =>
      -- a file without valid rows stores nothing
      have hskip : ∀ key ∈ fileKeys sha1 file,
          ConflictPolicy.OVERWRITE = .SKIP ∧ HasCurrent key stored.adMetrics.rows := by
        intro key hkey
        rw [refreshes_iff.mpr ⟨hzero, ne_nil_of_mem hkey⟩] at hr
        cases hr
      obtain ⟨h1, h2⟩ := importAdRows_skipped env.toLowerCase asked batchId hskip hr
      exact h.follows.of_same (h1.trans hres.adMetrics) (h2.trans hres.adsetMetrics)

/-! ## 4. Manual mappings -/

variable {f : MetaAdDailyMetric → AdMetricData} {store : MetaStore}

/-- A change of columns that leaves every ad metric with its adset keeps the store in order. -/
theorem StoreInv.reattribute {store' : MetaStore} (h : StoreInv store)
    {g : MetaAdsetDailyMetric → AdsetMetricData} (hads : store'.adMetrics = recolumn f store.adMetrics)
    (hf : ∀ m, (f m).metaAdsetRefId = m.data.metaAdsetRefId)
    (hadsets : store'.adsetMetrics = recolumn g store.adsetMetrics) (hinv : AdsetsInv store'.adsets)
    (hkeeps : Keeps store.adsets store'.adsets) (hb : store'.batches = store.batches)
    (hn : store'.nextBatchId = store.nextBatchId) : StoreInv store' where
  ids := by
    rw [hb, hn]
    exact h.ids
  adMetrics := by
    intro s hs
    rw [hads] at hs
    obtain ⟨m, hm, rfl⟩ := mem_recolumn.mp hs
    rw [hn]
    exact h.adMetrics m hm
  adsetMetrics := by
    intro s hs
    rw [hadsets] at hs
    obtain ⟨w, hw, rfl⟩ := mem_recolumn.mp hs
    rw [hn]
    exact h.adsetMetrics w hw
  ads := by
    rw [hads]
    exact h.ads.recolumn f
  aggregated := by
    rw [hadsets]
    exact h.aggregated.recolumn g
  adsets := hinv
  linked := by
    intro s hs
    rw [hads] at hs
    obtain ⟨m, hm, rfl⟩ := mem_recolumn.mp hs
    rw [hf]
    exact hkeeps _ _ (h.linked m hm)
  adDates := by
    intro s hs
    rw [hads] at hs
    obtain ⟨m, hm, rfl⟩ := mem_recolumn.mp hs
    exact h.adDates m hm
  adsetDates := by
    intro s hs
    rw [hadsets] at hs
    obtain ⟨w, hw, rfl⟩ := mem_recolumn.mp hs
    exact h.adsetDates w hw
  texts := by
    intro s hs s' hs' hbatch htext
    rw [hads] at hs hs'
    obtain ⟨m, hm, rfl⟩ := mem_recolumn.mp hs
    obtain ⟨m', hm', rfl⟩ := mem_recolumn.mp hs'
    exact h.texts m hm m' hm' hbatch htext

theorem sourceRowsOf_recolumn {t : VersionTable AdMetricKey AdMetricData}
    (hf : ∀ m ∈ t.rows, (f m).metaAdsetRefId = m.data.metaAdsetRefId) (key : AdsetMetricKey) :
    sourceRowsOf key (recolumn f t).rows =
      (sourceRowsOf key t.rows).map fun m => { m with data := f m } := by
  have hsrc : ∀ m ∈ t.rows, isSourceOf key { m with data := f m } = isSourceOf key m := fun m hm => by
    unfold isSourceOf
    rw [hf m hm]
  unfold sourceRowsOf recolumn
  rw [filter_map]
  exact congrArg _ (filter_congr hsrc)

/-- The attributions follow after a change of columns, if they do for every date and adset. -/
theorem AttributionFollows.reattribute {store' : MetaStore} (h : AttributionFollows store)
    {g : MetaAdsetDailyMetric → AdsetMetricData} (hads : store'.adMetrics = recolumn f store.adMetrics)
    (hf : ∀ m, (f m).metaAdsetRefId = m.data.metaAdsetRefId)
    (hadsets : store'.adsetMetrics = recolumn g store.adsetMetrics)
    (hgroup : ∀ w ∈ store.adsetMetrics.rows, w.current = true →
      sourceRowsOf w.key store.adMetrics.rows ≠ [] → adsetAttribution (g w) =
        aggregateProductAttribution ((sourceRowsOf w.key store.adMetrics.rows).map fun m =>
          { m with data := f m })) : AttributionFollows store' where
  exists_adset := by
    intro s hs hc
    rw [hads] at hs
    obtain ⟨m, hm, rfl⟩ := mem_recolumn.mp hs
    obtain ⟨w, hw, hk, hcw⟩ := h.exists_adset m hm hc
    have hkey : adsetKeyOf { m with data := f m } = adsetKeyOf m := by
      unfold adsetKeyOf
      rw [hf]
    rw [hkey, hadsets]
    exact ⟨_, mem_recolumn.mpr ⟨w, hw, rfl⟩, hk, hcw⟩
  follows := by
    intro s hs hc hne
    rw [hadsets] at hs
    obtain ⟨w, hw, rfl⟩ := mem_recolumn.mp hs
    rw [hads, sourceRowsOf_recolumn fun m _ => hf m] at hne ⊢
    exact hgroup w hw hc fun e => hne (by rw [e]; rfl)

theorem bestAdsetCandidate_mem {candidates : List MetaAdset} {adset : MetaAdset}
    (h : bestAdsetCandidate candidates = some adset) : adset ∈ candidates :=
  (perm_insertionSort _ _).mem_iff.mp (mem_of_mem_head? (Option.mem_def.mpr h))

variable {body : Body}

/-- The adset of a request is found, takes over an external id that is free, or is created. -/
theorem AdsetsInv.resolveAdset {t t' : AdsetTable} (h : AdsetsInv t) {env : MappingEnv} {adset : MetaAdset}
    (hok : resolveAdset env body t = .ok (t', adset)) : AdsetsInv t' ∧ Keeps t t' := by
  have hfound : ∀ {a : MetaAdset}, (.ok (t, a) : Except ApiError (AdsetTable × MetaAdset)) =
      .ok (t', adset) → AdsetsInv t' ∧ Keeps t t' := fun e => by
    cases e
    exact ⟨h, Keeps.refl _⟩
  unfold Meta.resolveAdset at hok
  split at hok
  · split at hok
    · exact hfound hok
    · cases hok
  · split at hok
    · rename_i externalAdsetId _
      split at hok
      · exact hfound hok
      · rename_i hnone
        have hfree : ∀ b ∈ t.rows, b.externalAdsetId ≠ some externalAdsetId := by
          intro b hb
          simpa using find?_eq_none.mp hnone b hb
        split at hok
        · cases hok
        · dsimp only at hok
          split at hok
          · rename_i legacy e
            have hm := (env.order.adsets_perm _).mem_iff.mp (bestAdsetCandidate_mem e)
            obtain ⟨hm, hl⟩ := mem_filter.mp hm
            have hl' : legacy.externalAdsetId = none := (of_decide_eq_true hl).1
            cases hok
            refine h.update legacy.id _ (fun a => rfl) fun a ha hid => .inr ⟨?_, ?_⟩
            · rw [h.eq_of_id ha hm hid]
              exact hl'
            · intro e' he b hb
              cases he
              exact hfree b hb
          · cases hok
            exact h.create _ (fun n => rfl) fun e' he b hb => by cases he; exact hfree b hb
    · obtain ⟨adsetName, -, hok⟩ := bind_eq_ok.mp hok
      dsimp only at hok
      split at hok
      · exact hfound hok
      · cases hok
        exact h.create _ (fun n => rfl) fun e' he => by cases he

/-- A group whose ads all carry one manual attribution. -/
theorem aggregateProductAttribution_manual {p : String} (hp : p ≠ "") {rows : List MetaAdDailyMetric}
    (hne : rows ≠ []) (h : ∀ m ∈ rows, adAttribution m.data = ⟨some p, .MANUAL, none⟩) :
    aggregateProductAttribution rows = ⟨some p, .MANUAL, none⟩ := by
  have hall : ∀ a ∈ attributionsOf rows, a = ⟨some p, .MANUAL, none⟩ := by
    intro a ha
    obtain ⟨m, hm, rfl⟩ := mem_map.mp ha
    exact h m hm
  have hl : attributionsOf rows ≠ [] := fun e => hne (map_eq_nil_iff.mp e)
  have hnames : NamesAll p (attributionsOf rows) := ⟨hl, hp, fun a ha => by rw [hall a ha]⟩
  have hsource : commonSource (attributionsOf rows) = .MANUAL := by
    obtain ⟨a, ha⟩ := exists_mem_of_ne_nil _ hl
    have hs : (((attributionsOf rows).map (·.source)).filter (· ≠ .UNMATCHED)).eraseDups = [.MANUAL] := by
      refine eraseDups_eq_singleton_iff.mpr ⟨?_, fun y hy => ?_⟩
      · refine mem_filter.mpr ⟨mem_map.mpr ⟨a, ha, by rw [hall a ha]⟩, by decide⟩
      · obtain ⟨b, hb, rfl⟩ := mem_map.mp (mem_filter.mp hy).1
        rw [hall b hb]
    unfold commonSource
    rw [hs]
    rfl
  rw [aggregateProductAttribution_of_namesAll hnames]
  unfold commonAttribution commonRule
  rw [hsource]

variable {db' : MappingStore}

/-- **A request that succeeds**: the metrics it covers take its product, ads and adsets alike. -/
theorem createManualProductMapping_cases {env : MappingEnv}
    (hok : createManualProductMapping env body db = .ok db') :
    ∃ (productId : String) (history : ManualHistory String) (f : MetaAdDailyMetric → AdMetricData)
      (g : MetaAdsetDailyMetric → AdsetMetricData) (covers : AdsetMetricKey → Bool),
      productId ≠ "" ∧ history.value = productId ∧
      db'.productHistories = db.productHistories ++ [history] ∧ db'.rules = db.rules ∧
      db'.products = db.products ∧
      db'.store.adMetrics = recolumn f db.store.adMetrics ∧
      db'.store.adsetMetrics = recolumn g db.store.adsetMetrics ∧
      (∀ m, f m = if m.current && covers (adsetKeyOf m) then manualProductAd productId m.data else m.data) ∧
      (∀ w, g w = if w.current && covers w.key then manualProductAdset productId w.data else w.data) ∧
      (AdsetsInv db.store.adsets → AdsetsInv db'.store.adsets ∧ Keeps db.store.adsets db'.store.adsets) ∧
      db'.store.batches = db.store.batches ∧ db'.store.nextBatchId = db.store.nextBatchId := by
  obtain ⟨productId, hproduct, hok⟩ := bind_eq_ok.mp hok
  obtain ⟨⟨effectiveFrom, effectiveTo⟩, -, hok⟩ := bind_eq_ok.mp hok
  obtain ⟨⟨adsets, metaAdset⟩, hresolve, hok⟩ := bind_eq_ok.mp hok
  obtain ⟨-, -, hok⟩ := bind_eq_ok.mp hok
  have hnamed : productId ≠ "" := by
    unfold requiredString at hproduct
    split at hproduct
    · cases hproduct
    · rename_i hne
      cases hproduct
      exact hne
  have hadsets : AdsetsInv db.store.adsets →
      AdsetsInv (adsets.update metaAdset.id fun adset => { adset with currentProductId := some productId }) ∧
        Keeps db.store.adsets
          (adsets.update metaAdset.id fun adset => { adset with currentProductId := some productId }) := by
    intro h
    obtain ⟨h1, h2⟩ := h.resolveAdset hresolve
    obtain ⟨h3, h4⟩ := h1.update metaAdset.id
      (fun adset => { adset with currentProductId := some productId }) (fun _ => rfl) fun _ _ _ => .inl rfl
    exact ⟨h3, h2.trans h4⟩
  have hsame : ∀ {κ δ : Type} (t : VersionTable κ δ), t = recolumn (fun r => r.data) t := fun t =>
    (recolumn_self fun _ _ => rfl).symm
  cases happlied : isFalsyValue (body.get "applyCurrentMetrics") with
  | true =>
    cases hok
    refine ⟨productId, ⟨db.productHistories.length, metaAdset.id, productId, effectiveFrom, effectiveTo⟩,
      fun m => m.data, fun w => w.data, fun _ => false, hnamed, rfl, rfl, rfl, rfl, ?_, ?_,
      fun m => by simp, fun w => by simp, ?_, ?_, ?_⟩
    all_goals rw [happlied]
    · exact hsame _
    · exact hsame _
    · exact hadsets
    · rfl
    · rfl
  | false =>
    cases hok
    refine ⟨productId, ⟨db.productHistories.length, metaAdset.id, productId, effectiveFrom, effectiveTo⟩,
      _, _, fun key => decide (key.metaAdsetId = metaAdset.id) &&
        inRange effectiveFrom effectiveTo key.metricDate, hnamed, rfl, rfl, rfl, rfl, ?_, ?_,
      fun m => rfl, fun w => rfl, ?_, ?_, ?_⟩
    all_goals rw [happlied]
    · refine (updateMetrics_eq _ _ _).trans (recolumn_congr fun m _ => ?_)
      unfold selectsAd adsetKeyOf
      rw [Bool.and_comm (decide _), Bool.and_assoc]
    · refine (updateMetrics_eq _ _ _).trans (recolumn_congr fun w _ => ?_)
      unfold selectsAdset
      rw [Bool.and_comm (decide _), Bool.and_assoc]
    · exact hadsets
    · rfl
    · rfl

/-- **A manual mapping keeps the invariant.** -/
theorem AttributionInv.mapProduct (h : AttributionInv db) {env : MappingEnv}
    (hok : createManualProductMapping env body db = .ok db') : AttributionInv db' := by
  obtain ⟨p, history, f, g, covers, hp, hvalue, hhist, hrules, -, hads, hadsets, hf, hg, hinv, hb, hn⟩ :=
    createManualProductMapping_cases hok
  have href : ∀ m, (f m).metaAdsetRefId = m.data.metaAdsetRefId := by
    intro m
    rw [hf]
    split
    · rfl
    · rfl
  obtain ⟨h1, h2⟩ := hinv h.store.adsets
  refine ⟨h.store.reattribute hads href hadsets h1 h2 hb hn,
    h.follows.reattribute hads href hadsets fun w hw hc hne => ?_, ?_, ?_, ?_, ?_⟩
  · -- the request covers all ad metrics of the group and the adset metric, or none of them
    have hgroup : ∀ m ∈ sourceRowsOf w.key db.store.adMetrics.rows,
        (m.current && covers (adsetKeyOf m)) = covers w.key := by
      intro m hm
      obtain ⟨hcm, hk⟩ := isSourceOf_iff_key.mp (mem_sourceRowsOf.mp hm).2
      rw [hcm, hk, Bool.true_and]
    have hgw : (w.current && covers w.key) = covers w.key := by rw [hc, Bool.true_and]
    rw [hg, hgw]
    cases hcov : covers w.key with
    | true =>
      refine (aggregateProductAttribution_manual hp ?_ fun m' hm' => ?_).symm
      · exact fun e => hne (map_eq_nil_iff.mp e)
      · obtain ⟨m, hm, rfl⟩ := mem_map.mp hm'
        rw [hf, hgroup m hm, if_pos hcov]
        rfl
    | false =>
      have hsame : (sourceRowsOf w.key db.store.adMetrics.rows).map (fun m => { m with data := f m }) =
          sourceRowsOf w.key db.store.adMetrics.rows := by
        refine (map_congr_left fun m hm => ?_).trans (map_id _)
        rw [hf, hgroup m hm, hcov]
        rfl
      rw [hsame]
      exact h.follows.follows w hw hc hne
  · rw [hrules]
    exact h.named.rules
  · rw [hhist]
    intro x hx
    rcases mem_append.mp hx with hx | hx
    · exact h.named.histories x hx
    · rw [mem_singleton.mp hx, hvalue]
      exact hp
  · rw [hads]
    intro s hs
    obtain ⟨m, hm, rfl⟩ := mem_recolumn.mp hs
    rw [hf]
    split
    · exact fun e => hp (Option.some.inj e)
    · exact h.named.ads m hm
  · rw [hadsets]
    intro s hs
    obtain ⟨w, hw, rfl⟩ := mem_recolumn.mp hs
    rw [hg]
    split
    · exact fun e => hp (Option.some.inj e)
    · exact h.named.adsets w hw

/-! ## 5. One transaction of the rematch -/

section Rematch

variable {env : RematchEnv} {w : MetaAdsetDailyMetric}

/-- The attributions after the transaction, aggregated, are what the transaction found. -/
theorem aggregate_rematched (rows : List MetaAdDailyMetric) :
    aggregateSourceProductMatch (rows.map fun m => adAttribution (rematchedAd env db m)) =
      aggregateSourceProductMatch (rows.map (sourceResult env db)) := by
  have hnone : ∀ {l : List ProductMatch} {a : ProductMatch}, a ∈ l → isTruthy a.productId = false →
      aggregateSourceProductMatch l = none := by
    intro l a ha hf
    cases e : aggregateSourceProductMatch l with
    | none => rfl
    | some b =>
      obtain ⟨p, hp⟩ := namesAll_of_aggregateSourceProductMatch e
      rw [hp.truthy a ha] at hf
      cases hf
  have hrow : ∀ m, adAttribution (rematchedAd env db m) = sourceResult env db m ∨
      (isTruthy (adAttribution (rematchedAd env db m)).productId = false ∧
        isTruthy (sourceResult env db m).productId = false) := by
    intro m
    unfold rematchedAd sourceResult
    by_cases hp : isTruthy m.data.productId = true
    · rw [if_pos hp, if_pos hp]
      exact .inl rfl
    · rw [if_neg hp, if_neg hp]
      by_cases hn : isTruthy (nameMatch env db m).productId = true
      · rw [if_pos hn]
        exact .inl rfl
      · rw [if_neg hn]
        exact .inr ⟨by simpa [adAttribution] using hp, by simpa using hn⟩
  by_cases hall : ∀ m ∈ rows, adAttribution (rematchedAd env db m) = sourceResult env db m
  · rw [map_congr_left hall]
  · push Not at hall
    obtain ⟨m, hm, hne⟩ := hall
    rcases hrow m with e | ⟨h1, h2⟩
    · exact absurd e hne
    · rw [hnone (mem_map_of_mem hm) h1, hnone (mem_map_of_mem hm) h2]

/-- A transaction that finds an attribution finds a product. -/
theorem foundAttribution_named {result : ProductMatch} (h : foundAttribution env db w = some result) :
    isTruthy result.productId = true := by
  unfold foundAttribution at h
  split at h
  · dsimp only at h
    split at h
    · rename_i ht
      cases h
      exact ht
    · cases h
  · obtain ⟨p, hp⟩ := namesAll_of_aggregateSourceProductMatch h
    rw [aggregateSourceProductMatch_of_namesAll hp] at h
    cases h
    simpa [isTruthy, commonAttribution] using hp.named

theorem rematchedAd_ref (m : MetaAdDailyMetric) :
    (rematchedAd env db m).metaAdsetRefId = m.data.metaAdsetRefId := by
  unfold rematchedAd
  split
  · rfl
  · split
    · rfl
    · rfl

/-- **A transaction keeps the invariant.** -/
theorem AttributionInv.transacted (h : AttributionInv db) (hw : w ∈ db.store.adsetMetrics.rows)
    (hcur : w.current = true) (hp : isTruthy w.data.productId = false) (ht : Transacted env db w db') :
    AttributionInv db' := by
  have href : ∀ m : MetaAdDailyMetric, (if isSourceOf w.key m then rematchedAd env db m
      else m.data).metaAdsetRefId = m.data.metaAdsetRefId := by
    intro m
    split
    · exact rematchedAd_ref m
    · rfl
  obtain ⟨h1, h2⟩ := ht.adsets h.store.adsets
  refine ⟨h.store.reattribute ht.adMetrics href ht.adsetMetrics h1 h2 ht.batches ht.nextBatchId,
    h.follows.reattribute ht.adMetrics href ht.adsetMetrics fun v hv hc hne => ?_, ?_, ?_, ?_, ?_⟩
  · by_cases hk : v.key = w.key
    · -- the group of the transaction
      have e := h.store.aggregated.oneCurrent hv hw hc hcur hk
      subst e
      rw [if_pos rfl]
      have hmap : ((sourceRowsOf v.key db.store.adMetrics.rows).map fun m =>
          { m with data := if isSourceOf v.key m then rematchedAd env db m else m.data }) =
          (sourceRowsOf v.key db.store.adMetrics.rows).map fun m =>
            { m with data := rematchedAd env db m } := by
        refine map_congr_left fun m hm => ?_
        rw [if_pos (mem_sourceRowsOf.mp hm).2]
      have hatt : attributionsOf ((sourceRowsOf v.key db.store.adMetrics.rows).map fun m =>
          { m with data := rematchedAd env db m }) =
          (sourceRowsOf v.key db.store.adMetrics.rows).map fun m => adAttribution (rematchedAd env db m) := by
        unfold attributionsOf
        rw [map_map]
        rfl
      have hfound : foundAttribution env db v =
          aggregateSourceProductMatch ((sourceRowsOf v.key db.store.adMetrics.rows).map
            (sourceResult env db)) := if_neg hne
      rw [hmap, aggregateProductAttribution_eq, hatt, aggregate_rematched, ← hfound]
      unfold rematchedAdset
      cases hf : foundAttribution env db v with
      | some result => rfl
      | none =>
        -- nothing found: the metric had no product, so its ads had none in common
        have hold := h.follows.follows v hv hc hne
        rcases aggregateProductAttribution_cases (sourceRowsOf v.key db.store.adMetrics.rows) with
          ⟨p, hall⟩ | hun
        · rw [aggregateProductAttribution_of_namesAll hall] at hold
          have hprod : v.data.productId = some p := congrArg ProductMatch.productId hold
          rw [hprod] at hp
          simp [isTruthy, hall.named] at hp
        · exact hold.trans hun
    · have hid : v.id ≠ w.id := fun e => hk (by rw [h.store.aggregated.eq_of_id hv hw e])
      rw [if_neg hid]
      have hmap : ((sourceRowsOf v.key db.store.adMetrics.rows).map fun m =>
          { m with data := if isSourceOf w.key m then rematchedAd env db m else m.data }) =
          sourceRowsOf v.key db.store.adMetrics.rows := by
        refine (map_congr_left fun m hm => ?_).trans (map_id _)
        have hnot : ¬ isSourceOf w.key m = true := fun hs =>
          hk ((isSourceOf_iff_key.mp (mem_sourceRowsOf.mp hm).2).2.symm.trans (isSourceOf_iff_key.mp hs).2)
        rw [if_neg hnot]
        rfl
      rw [hmap]
      exact h.follows.follows v hv hc hne
  · rw [ht.rules]
    exact h.named.rules
  · rw [ht.productHistories]
    exact h.named.histories
  · rw [ht.adMetrics]
    intro s hs
    obtain ⟨m, hm, rfl⟩ := mem_recolumn.mp hs
    unfold rematchedAd
    split
    · split
      · exact h.named.ads m hm
      · split
        · exact matchProduct_named h.named.rules h.named.histories _ _ _ _
        · exact h.named.ads m hm
    · exact h.named.ads m hm
  · rw [ht.adsetMetrics]
    intro s hs
    obtain ⟨v, hv, rfl⟩ := mem_recolumn.mp hs
    split
    · unfold rematchedAdset
      cases hf : foundAttribution env db w with
      | none => exact h.named.adsets w hw
      | some result =>
        intro e
        have ht := foundAttribution_named hf
        rw [show result.productId = some "" from e] at ht
        cases ht
    · exact h.named.adsets v hv

/-- A turn of the loop leaves the database alone, or it is a transaction. -/
theorem rematchAdsetMetric_cases (h : AttributionInv db) (env : RematchEnv) (id : Nat) :
    ((rematchAdsetMetric env db id).1 = db ∧ ∀ w ∈ db.store.adsetMetrics.rows, w.id = id →
        w.current = true → w.data.productId ≠ none) ∨
      ∃ w ∈ db.store.adsetMetrics.rows, w.id = id ∧ w.current = true ∧
        isTruthy w.data.productId = false ∧ Transacted env db w (rematchAdsetMetric env db id).1 := by
  by_cases hex : ∃ w ∈ db.store.adsetMetrics.rows, w.id = id ∧ w.current = true ∧
      isTruthy w.data.productId = false
  · obtain ⟨w, hw, rfl, hc, hp⟩ := hex
    exact .inr ⟨w, hw, rfl, hc, hp, rematchAdsetMetric_transacted h.store.ads h.store.aggregated hw hc hp⟩
  · push Not at hex
    refine .inl ⟨rematchAdsetMetric_resolved fun w hw hid => ?_, fun w hw hid hc hnone => ?_⟩
    · by_cases hc : w.current = true
      · exact .inr (by simpa using hex w hw hid hc)
      · exact .inl (by simpa using hc)
    · refine hex w hw hid hc ?_
      rw [hnone]
      rfl

/-! ## 6. What a rematch keeps -/

/-- Row by row: a metric that has a product stays as it is. -/
def KeepsProducts {κ δ : Type} (product : δ → Option String) (t t' : VersionTable κ δ) : Prop :=
  Forall₂ (fun m m' => m'.id = m.id ∧ (product m.data ≠ none → m' = m)) t.rows t'.rows

/-- Attributions are set in rows without a product. -/
def Refills {κ δ : Type} (set : ProductMatch → δ → δ) (product : δ → Option String)
    (t t' : VersionTable κ δ) : Prop :=
  ∃ f, t' = recolumn f t ∧
    ∀ r ∈ t.rows, (∃ a, f r = set a r.data) ∧ (product r.data ≠ none → f r = r.data)

theorem Refills.trans {κ δ : Type} {set : ProductMatch → δ → δ} {product : δ → Option String}
    (hset : ∀ a b d, set b (set a d) = set b d) {t t' t'' : VersionTable κ δ}
    (h : Refills set product t t') (h' : Refills set product t' t'') : Refills set product t t'' := by
  obtain ⟨f, rfl, hf⟩ := h
  obtain ⟨f', rfl, hf'⟩ := h'
  refine ⟨_, recolumn_recolumn f f' t, fun r hr => ?_⟩
  obtain ⟨⟨a, ha⟩, hkeep⟩ := hf r hr
  obtain ⟨⟨b, hb⟩, hkeep'⟩ := hf' _ (mem_recolumn.mpr ⟨r, hr, rfl⟩)
  refine ⟨⟨b, hb.trans ?_⟩, fun hp => ?_⟩
  · rw [ha, hset]
  · have hfr := hkeep hp
    exact (hkeep' (by show product (f r) ≠ none; rw [hfr]; exact hp)).trans hfr

/-- What the turns of the loop have in common. -/
structure Rematched (db db' : MappingStore) : Prop where
  ads : Refills setAdAttribution (·.productId) db.store.adMetrics db'.store.adMetrics
  adsets : Refills setAdsetAttribution (·.productId) db.store.adsetMetrics
    db'.store.adsetMetrics
  productHistories : db'.productHistories = db.productHistories
  rules : db'.rules = db.rules
  products : db'.products = db.products

theorem Rematched.refl (db : MappingStore) : Rematched db db where
  ads := ⟨fun m => m.data, (recolumn_self fun _ _ => rfl).symm,
    fun m _ => ⟨⟨adAttribution m.data, rfl⟩, fun _ => rfl⟩⟩
  adsets := ⟨fun v => v.data, (recolumn_self fun _ _ => rfl).symm,
    fun v _ => ⟨⟨adsetAttribution v.data, rfl⟩, fun _ => rfl⟩⟩
  productHistories := rfl
  rules := rfl
  products := rfl

theorem setAdAttribution_set (a b : ProductMatch) (data : AdMetricData) :
    setAdAttribution b (setAdAttribution a data) = setAdAttribution b data := rfl

theorem setAdsetAttribution_set (a b : ProductMatch) (data : AdsetMetricData) :
    setAdsetAttribution b (setAdsetAttribution a data) = setAdsetAttribution b data := rfl

theorem Rematched.trans {db'' : MappingStore} (h : Rematched db db') (h' : Rematched db' db'') :
    Rematched db db'' where
  ads := Refills.trans setAdAttribution_set h.ads h'.ads
  adsets := Refills.trans setAdsetAttribution_set h.adsets h'.adsets
  productHistories := h'.productHistories.trans h.productHistories
  rules := h'.rules.trans h.rules
  products := h'.products.trans h.products

theorem Refills.keepsProducts {κ δ : Type} {set : ProductMatch → δ → δ} {product : δ → Option String}
    {t t' : VersionTable κ δ} (h : Refills set product t t') : KeepsProducts product t t' := by
  obtain ⟨f, rfl, hf⟩ := h
  unfold KeepsProducts recolumn
  rw [forall₂_map_right_iff, forall₂_same]
  intro m hm
  refine ⟨rfl, fun hp => ?_⟩
  rw [(hf m hm).2 hp]

theorem Transacted.rematched (h : AttributionInv db) (hw : w ∈ db.store.adsetMetrics.rows)
    (hp : isTruthy w.data.productId = false) (ht : Transacted env db w db') : Rematched db db' where
  ads := by
    refine ⟨_, ht.adMetrics, fun m hm => ⟨?_, fun hne => ?_⟩⟩
    · split
      · unfold rematchedAd
        split
        · exact ⟨adAttribution m.data, rfl⟩
        · split
          · exact ⟨nameMatch env db m, rfl⟩
          · exact ⟨adAttribution m.data, rfl⟩
      · exact ⟨adAttribution m.data, rfl⟩
    · have htruthy : isTruthy m.data.productId = true := by
        by_contra hf
        exact hne ((isTruthy_eq_false_iff (h.named.ads m hm)).mp (by simpa using hf))
      unfold rematchedAd
      split
      · rfl
      · rfl
  adsets := by
    refine ⟨_, ht.adsetMetrics, fun v hv => ⟨?_, fun hne => ?_⟩⟩
    · split
      · rename_i hid
        rw [h.store.aggregated.eq_of_id hv hw hid]
        unfold rematchedAdset
        cases foundAttribution env db w with
        | none => exact ⟨adsetAttribution w.data, rfl⟩
        | some result => exact ⟨result, rfl⟩
      · exact ⟨adsetAttribution v.data, rfl⟩
    · split
      · rename_i hid
        rw [h.store.aggregated.eq_of_id hv hw hid] at hne
        exact absurd ((isTruthy_eq_false_iff (h.named.adsets w hw)).mp hp) hne
      · rfl
  productHistories := ht.productHistories
  rules := ht.rules
  products := ht.products

/-- **One turn**: the invariant stays, and no product is changed. -/
theorem AttributionInv.rematchAdsetMetric (h : AttributionInv db) (env : RematchEnv) (id : Nat) :
    AttributionInv (rematchAdsetMetric env db id).1 ∧ Rematched db (rematchAdsetMetric env db id).1 := by
  rcases rematchAdsetMetric_cases h env id with ⟨e, -⟩ | ⟨w, hw, rfl, hc, hp, ht⟩
  · rw [e]
    exact ⟨h, Rematched.refl db⟩
  · exact ⟨h.transacted hw hc hp ht, ht.rematched h hw hp⟩

/-- The turns over a list of metrics. -/
def adsetTurns (env : RematchEnv) (ids : List Nat) (db : MappingStore) : MappingStore :=
  ids.foldl (fun db id => (rematchAdsetMetric env db id).1) db

theorem rematchEach_fst (transaction : MappingStore → Nat → MappingStore × RematchOutcome) (ids : List Nat)
    (db : MappingStore) :
    (rematchEach transaction ids db).1 = ids.foldl (fun db id => (transaction db id).1) db := by
  have hrun : ∀ (ids : List Nat) (state : MappingStore × RematchOutcome),
      (ids.foldl (fun state id => ((transaction state.1 id).1, state.2.add (transaction state.1 id).2))
        state).1 = ids.foldl (fun db id => (transaction db id).1) state.1 := by
    intro ids
    induction ids with
    | nil => exact fun _ => rfl
    | cons id ids ih => exact fun state => ih _
  exact hrun ids (db, emptyMetaRematchOutcome)

theorem AttributionInv.adsetTurns (h : AttributionInv db) (env : RematchEnv) (ids : List Nat) :
    AttributionInv (adsetTurns env ids db) ∧ Rematched db (Meta.adsetTurns env ids db) := by
  induction ids generalizing db with
  | nil => exact ⟨h, Rematched.refl db⟩
  | cons id ids ih =>
    obtain ⟨h1, h2⟩ := h.rematchAdsetMetric env id
    obtain ⟨h3, h4⟩ := ih h1
    exact ⟨h3, h2.trans h4⟩

theorem mem_unmatchedAdsetMetrics {range : Option DateRange} :
    w ∈ unmatchedAdsetMetrics env range store ↔ w ∈ store.adsetMetrics.rows ∧ w.current = true ∧
      w.data.productId = none ∧ inDates range w.key.metricDate = true := by
  unfold unmatchedAdsetMetrics
  rw [(env.adsetMetrics.perm _).mem_iff, mem_filter, Bool.and_eq_true, Bool.and_eq_true,
    Option.isNone_iff_eq_none, and_assoc]

/-- **No ad metric is left for itself**: without a product it keeps the product of its adset metric
    `null`, and that metric is in the list. -/
theorem standaloneAdMetrics_eq_nil (h : AttributionInv db) (env : RematchEnv) (range : Option DateRange) :
    standaloneAdMetrics (unmatchedAdsetMetrics env range db.store)
      (unmatchedAdMetrics env range db.store) = [] := by
  refine filter_eq_nil_iff.mpr fun m hm => ?_
  unfold unmatchedAdMetrics at hm
  rw [(env.adMetrics.perm _).mem_iff, mem_filter, Bool.and_eq_true, Bool.and_eq_true,
    Option.isNone_iff_eq_none] at hm
  obtain ⟨hm, ⟨hc, hp⟩, hdate⟩ := hm
  obtain ⟨w, hw, hk, hcw⟩ := h.follows.exists_adset m hm hc
  have hsrc : m ∈ sourceRowsOf w.key db.store.adMetrics.rows :=
    mem_sourceRowsOf.mpr ⟨hm, isSourceOf_iff_key.mpr ⟨hc, hk.symm⟩⟩
  have hprod : w.data.productId = none := by
    have hold := h.follows.follows w hw hcw (ne_nil_of_mem hsrc)
    rcases aggregateProductAttribution_cases (sourceRowsOf w.key db.store.adMetrics.rows) with
      ⟨p, hall⟩ | hun
    · have hsome := hall.all _ (mem_map_of_mem hsrc)
      rw [show (adAttribution m.data).productId = none from hp] at hsome
      cases hsome
    · rw [hun] at hold
      exact congrArg ProductMatch.productId hold
  have hlist : w ∈ unmatchedAdsetMetrics env range db.store := by
    refine mem_unmatchedAdsetMetrics.mpr ⟨hw, hcw, hprod, ?_⟩
    rw [hk]
    exact hdate
  simp only [Bool.not_eq_true, Bool.not_eq_false', contains_iff_mem]
  refine mem_map.mpr ⟨w, hlist, ?_⟩
  rw [hk]
  rfl

theorem rematchInRange_fst (h : AttributionInv db) (env : RematchEnv) (range : Option DateRange) :
    (rematchInRange env range db).1 =
      adsetTurns env ((unmatchedAdsetMetrics env range db.store).map (·.id)) db := by
  unfold rematchInRange
  dsimp only
  rw [standaloneAdMetrics_eq_nil h, rematchEach_fst, map_nil, rematchEach_fst]
  rfl

end Rematch

/-! ## 7. A second rematch -/

/-- Two environments that differ in the order of query results only. -/
structure SameMatchers (env env' : MappingEnv) : Prop where
  toLowerCase : env'.toLowerCase = env.toLowerCase
  regexTest : env'.regexTest = env.regexTest

theorem matchProduct_congr (h : Rematched db db') (env : MappingEnv) (metaAdsetId : Nat) (text : String)
    (d : Int) :
    matchProduct env db' metaAdsetId text d = matchProduct env db metaAdsetId text d := by
  unfold matchProduct activeRules
  rw [h.productHistories, h.rules, h.products]

theorem mem_activeRules {env : MappingEnv} {rule : ProductMatchRule} :
    rule ∈ activeRules env db ↔ rule ∈ db.rules.filter fun rule =>
      rule.isActive && productIsActive db.products rule.productId := by
  unfold activeRules
  rw [(perm_insertionSort _ _).mem_iff, (env.rules.perm _).mem_iff]

/-- Whether a product is found does not depend on the order of histories and rules. -/
theorem matchProduct_isTruthy_order (hnamed : ProductsNamed db) {env env' : MappingEnv}
    (hsame : SameMatchers env env') {metaAdsetId : Nat} {text : String} {d : Int}
    (h : isTruthy (matchProduct env db metaAdsetId text d).productId = false) :
    isTruthy (matchProduct env' db metaAdsetId text d).productId = false := by
  have hnone := (isTruthy_eq_false_iff
    (matchProduct_named hnamed.rules hnamed.histories env metaAdsetId text d)).mp h
  have hmatches : ∀ nameKey rule, ProductMatchRule.matches env' nameKey rule =
      ProductMatchRule.matches env nameKey rule := fun nameKey rule => by
    unfold ProductMatchRule.matches
    rw [hsame.toLowerCase, hsame.regexTest]
  unfold matchProduct matchAdsetProduct at hnone ⊢
  dsimp only at hnone ⊢
  split at hnone
  · cases hnone
  · rename_i hhist
    split at hnone
    · cases hnone
    · rename_i hrules
      have hhist' : (env'.productHistories.arrange (ofAdset metaAdsetId db.productHistories)).find?
          (fun history => history.covers (formatDateOnly d)) = none := by
        refine find?_eq_none.mpr fun history hm => find?_eq_none.mp hhist history ?_
        exact (env.productHistories.perm _).mem_iff.mpr ((env'.productHistories.perm _).mem_iff.mp hm)
      have hrules' : (((activeRules env' db).filter fun rule => rule.isActive &&
          isDateInRange (formatDateOnly d) (some (formatDateOnly rule.validFrom))
            (rule.validTo.map formatDateOnly)).insertionSort fun a b => a.priority ≤ b.priority).find?
          (ProductMatchRule.matches env' (AdsetNameNormalizer.toKey env'.toLowerCase text)) = none := by
        refine find?_eq_none.mpr fun rule hm => ?_
        rw [hmatches, hsame.toLowerCase]
        refine find?_eq_none.mp hrules rule ?_
        rw [(perm_insertionSort _ _).mem_iff, mem_filter, mem_activeRules] at hm ⊢
        exact hm
      rw [hhist', hrules']
      rfl

section Settled

variable {env : RematchEnv} {w : MetaAdsetDailyMetric}

/-- The matcher has nothing for the metric or for the ad metrics of its group. -/
structure Settled (env : MappingEnv) (db : MappingStore) (w : MetaAdsetDailyMetric) : Prop where
  byName : sourceRowsOf w.key db.store.adMetrics.rows = [] →
    isTruthy (matchProduct env db w.key.metaAdsetId w.data.adsetName w.key.metricDate).productId = false
  bySource : ∀ m ∈ sourceRowsOf w.key db.store.adMetrics.rows, isTruthy m.data.productId = false →
    isTruthy (matchProduct env db m.data.metaAdsetRefId (sourceRowMatchText m.data)
      m.key.metricDate).productId = false

/-- The metric `id`, if it is still without a product. -/
def SettledAt (env : MappingEnv) (db : MappingStore) (id : Nat) : Prop :=
  ∀ w ∈ db.store.adsetMetrics.rows, w.id = id → w.current = true → w.data.productId = none →
    Settled env db w

theorem Settled.reorder {env env' : MappingEnv} (hnamed : ProductsNamed db) (hsame : SameMatchers env env')
    (h : Settled env db w) : Settled env' db w where
  byName := fun hnil => matchProduct_isTruthy_order hnamed hsame (h.byName hnil)
  bySource := fun m hm hp => matchProduct_isTruthy_order hnamed hsame (h.bySource m hm hp)

/-- The groups after a rematch, row by row. -/
theorem Rematched.source (h : Rematched db db') : ∃ f : MetaAdDailyMetric → AdMetricData,
    (∀ key, sourceRowsOf key db'.store.adMetrics.rows =
      (sourceRowsOf key db.store.adMetrics.rows).map fun m => { m with data := f m }) ∧
    ∀ m ∈ db.store.adMetrics.rows, (∃ a, f m = setAdAttribution a m.data) ∧
      (m.data.productId ≠ none → f m = m.data) := by
  obtain ⟨f, e, hf⟩ := h.ads
  refine ⟨f, fun key => ?_, hf⟩
  rw [e]
  refine sourceRowsOf_recolumn (fun m hm => ?_) key
  obtain ⟨⟨a, ha⟩, -⟩ := hf m hm
  rw [ha]
  rfl

/-- The adset metrics after a rematch; one without a product is an old one. -/
theorem Rematched.adset (h : Rematched db db') (hw : w ∈ db'.store.adsetMetrics.rows)
    (hp : w.data.productId = none) : ∃ v ∈ db.store.adsetMetrics.rows, v.id = w.id ∧ v.key = w.key ∧
      v.current = w.current ∧ v.data.adsetName = w.data.adsetName ∧ v.data.productId = none := by
  obtain ⟨g, e, hg⟩ := h.adsets
  rw [e] at hw
  obtain ⟨v, hv, rfl⟩ := mem_recolumn.mp hw
  obtain ⟨⟨a, ha⟩, hkeep⟩ := hg v hv
  refine ⟨v, hv, rfl, rfl, rfl, ?_, ?_⟩
  · rw [ha]
    rfl
  · by_contra hne
    have hgv : (g v).productId = none := hp
    rw [hkeep hne] at hgv
    exact hne hgv

/-- A settled metric stays settled. -/
theorem SettledAt.rematched {env : MappingEnv} {id : Nat} (h : SettledAt env db id)
    (hr : Rematched db db') : SettledAt env db' id := by
  intro w hw hid hc hp
  obtain ⟨v, hv, hvid, hvk, hvc, hvn, hvp⟩ := hr.adset hw hp
  have hset := h v hv (hvid.trans hid) (hvc.trans hc) hvp
  obtain ⟨f, hsrc, hf⟩ := hr.source
  refine ⟨fun hnil => ?_, fun m' hm' hm'p => ?_⟩
  · rw [matchProduct_congr hr, ← hvk, ← hvn]
    refine hset.byName ?_
    rw [hvk]
    rw [hsrc] at hnil
    exact map_eq_nil_iff.mp hnil
  · rw [matchProduct_congr hr]
    rw [hsrc] at hm'
    obtain ⟨m, hm, rfl⟩ := mem_map.mp hm'
    obtain ⟨⟨a, ha⟩, hkeep⟩ := hf m (mem_sourceRowsOf.mp hm).1
    have hmp : isTruthy m.data.productId = false := by
      by_cases hnone : m.data.productId = none
      · rw [hnone]
        rfl
      · have hsame : isTruthy (f m).productId = false := hm'p
        rw [hkeep hnone] at hsame
        exact hsame
    rw [← hvk] at hm
    have hold := hset.bySource m hm hmp
    rw [ha]
    exact hold

/-- **A turn settles its metric.** -/
theorem settledAt_rematchAdsetMetric (h : AttributionInv db) (env : RematchEnv) (id : Nat) :
    SettledAt env.toMappingEnv (rematchAdsetMetric env db id).1 id := by
  intro v hv hid hc hp
  rcases rematchAdsetMetric_cases h env id with ⟨e, hnot⟩ | ⟨w, hw, rfl, hcw, hpw, ht⟩
  · rw [e] at hv
    exact absurd hp (hnot v hv hid hc)
  · have hr := ht.rematched h hw hpw
    rw [ht.adsetMetrics] at hv
    obtain ⟨u, hu, rfl⟩ := mem_recolumn.mp hv
    have e := h.store.aggregated.eq_of_id hu hw hid
    subst e
    -- nothing was found, or the metric would have a product now
    have hfound : foundAttribution env db u = none := by
      cases hf : foundAttribution env db u with
      | none => rfl
      | some result =>
        have hprod : result.productId = none := by
          have hp' : (if u.id = u.id then rematchedAdset env db u else u.data).productId = none := hp
          rw [if_pos rfl] at hp'
          unfold rematchedAdset at hp'
          rw [hf] at hp'
          exact hp'
        have := foundAttribution_named hf
        rw [hprod] at this
        cases this
    have hdata : (if u.id = u.id then rematchedAdset env db u else u.data) = u.data := by
      rw [if_pos rfl]
      unfold rematchedAdset
      rw [hfound]
    have hsrc : sourceRowsOf u.key (rematchAdsetMetric env db u.id).1.store.adMetrics.rows =
        (sourceRowsOf u.key db.store.adMetrics.rows).map fun m =>
          { m with data := rematchedAd env db m } := by
      rw [ht.adMetrics, sourceRowsOf_recolumn]
      · refine map_congr_left fun m hm => ?_
        rw [if_pos (mem_sourceRowsOf.mp hm).2]
      · intro m _
        split
        · exact rematchedAd_ref m
        · rfl
    refine ⟨fun hnil => ?_, fun m' hm' hm'p => ?_⟩
    · rw [matchProduct_congr hr]
      rw [hsrc, map_eq_nil_iff] at hnil
      rw [hdata]
      unfold foundAttribution at hfound
      rw [if_pos hnil] at hfound
      dsimp only at hfound
      split at hfound
      · cases hfound
      · next hf => simpa using hf
    · rw [matchProduct_congr hr]
      rw [hsrc] at hm'
      obtain ⟨m, hm, rfl⟩ := mem_map.mp hm'
      have hm'p' : isTruthy (rematchedAd env db m).productId = false := hm'p
      unfold rematchedAd at hm'p' ⊢
      split at hm'p'
      · rename_i htr
        rw [htr] at hm'p'
        cases hm'p'
      · rename_i htr
        split at hm'p'
        · rename_i hn
          have hn' : isTruthy (nameMatch env db m).productId = false := hm'p'
          rw [hn] at hn'
          cases hn'
        · rename_i hn
          rw [if_neg hn]
          simpa [nameMatch] using hn

theorem settledAt_adsetTurns (h : AttributionInv db) (env : RematchEnv) (ids : List Nat) :
    ∀ id ∈ ids, SettledAt env.toMappingEnv (adsetTurns env ids db) id := by
  induction ids generalizing db with
  | nil => exact fun id hid => (by cases hid)
  | cons first ids ih =>
    obtain ⟨h1, h2⟩ := h.rematchAdsetMetric env first
    intro id hid
    rcases mem_cons.mp hid with rfl | hid
    · exact (settledAt_rematchAdsetMetric h env id).rematched (h1.adsetTurns env ids).2
    · exact ih h1 id hid

section

variable (h : AttributionInv db) (hw : w ∈ db.store.adsetMetrics.rows) (hc : w.current = true)
  (hp : w.data.productId = none)
include h hw hc hp

/-- A metric without a product has ads that name no product together, with or without the matcher. -/
theorem aggregate_settled {rows : List MetaAdDailyMetric}
    (hperm : rows.Perm (sourceRowsOf w.key db.store.adMetrics.rows)) (hne : rows ≠ [])
    (hmatch : ∀ m ∈ rows, isTruthy m.data.productId = false →
      isTruthy (nameMatch env db m).productId = false) :
    aggregateSourceProductMatch (rows.map (sourceResult env db)) = none := by
  cases e : aggregateSourceProductMatch (rows.map (sourceResult env db)) with
  | none => rfl
  | some a =>
    -- all ads would name one product, and so would the adset metric
    obtain ⟨p, hall⟩ := namesAll_of_aggregateSourceProductMatch e
    have hown : ∀ m ∈ rows, sourceResult env db m = adAttribution m.data := by
      intro m hm
      unfold sourceResult
      cases hpm : isTruthy m.data.productId with
      | true => rw [if_pos rfl]
      | false =>
        have htr := hall.truthy _ (mem_map_of_mem hm)
        unfold sourceResult at htr
        rw [hpm, if_neg Bool.false_ne_true, hmatch m hm hpm] at htr
        cases htr
    rw [map_congr_left hown] at hall
    have hold := h.follows.follows w hw hc fun enil => hne (perm_nil.mp (enil ▸ hperm))
    rw [← aggregateProductAttribution_perm hperm, aggregateProductAttribution_of_namesAll hall] at hold
    have hsome : w.data.productId = some p := congrArg ProductMatch.productId hold
    rw [hp] at hsome
    cases hsome

/-- A turn over a settled metric does nothing. -/
theorem rematchAdsetMetric_settled (hset : Settled env.toMappingEnv db w) :
    (rematchAdsetMetric env db w.id).1 = db := by
  have hperm := env.adMetrics.perm (sourceRowsOf w.key db.store.adMetrics.rows)
  unfold rematchAdsetMetric
  rw [find?_metric_id h.store.aggregated hw]
  dsimp only
  rw [if_neg (by simp [hc, hp, isTruthy])]
  split
  · rename_i hnil
    rw [length_eq_zero_iff.mp hnil] at hperm
    unfold rematchByName
    rw [if_pos (by simp [hset.byName (nil_perm.mp hperm)])]
  · rename_i hne
    generalize env.adMetrics.arrange (sourceRowsOf w.key db.store.adMetrics.rows) = rows at hperm hne ⊢
    have hsources : ∀ m ∈ rows, isSourceOf w.key m = true := fun m hm =>
      (mem_sourceRowsOf.mp (hperm.mem_iff.mp hm)).2
    have hmatch : ∀ m ∈ rows, isTruthy m.data.productId = false →
        isTruthy (nameMatch env db m).productId = false :=
      fun m hm hpm => hset.bySource m (hperm.mem_iff.mp hm) hpm
    have hnone : (rows.map (sourceMatch fun text => matchProduct env.toMappingEnv db w.key.metaAdsetId
        text w.key.metricDate)).filter (fun row => row.shouldUpdate &&
          isTruthy row.result.productId) = [] := by
      refine filter_eq_nil_iff.mpr fun u hu => ?_
      obtain ⟨m, hm, rfl⟩ := mem_map.mp hu
      rw [sourceMatch_eq (hsources m hm)]
      cases hpm : isTruthy m.data.productId with
      | true => simp
      | false => simp [hmatch m hm hpm]
    unfold rematchBySource
    dsimp only
    rw [map_sourceMatch_result hsources, hnone,
      aggregate_settled h hw hc hp hperm (fun e => hne (by rw [e]; rfl)) hmatch]
    rfl

end

/-- **The second of two rematches changes nothing.** -/
theorem rematchInRange_twice (h : AttributionInv db) {env' : RematchEnv}
    (hsame : SameMatchers env.toMappingEnv env'.toMappingEnv) (range : Option DateRange) :
    (rematchInRange env' range (rematchInRange env range db).1).1 = (rematchInRange env range db).1 := by
  have hturns := rematchInRange_fst h env range
  obtain ⟨h1, hr⟩ := h.adsetTurns env ((unmatchedAdsetMetrics env range db.store).map (·.id))
  have hsettled := settledAt_adsetTurns h env ((unmatchedAdsetMetrics env range db.store).map (·.id))
  rw [← hturns] at h1 hr hsettled
  rw [rematchInRange_fst h1]
  have hstay : ∀ ids : List Nat, (∀ id ∈ ids,
      (rematchAdsetMetric env' (rematchInRange env range db).1 id).1 = (rematchInRange env range db).1) →
        adsetTurns env' ids (rematchInRange env range db).1 = (rematchInRange env range db).1 := by
    intro ids
    induction ids with
    | nil => exact fun _ => rfl
    | cons id ids ih =>
      intro hids
      unfold adsetTurns
      rw [foldl_cons, hids id mem_cons_self]
      exact ih fun i hi => hids i (mem_cons_of_mem _ hi)
  refine hstay _ fun id hid => ?_
  obtain ⟨w, hw, rfl⟩ := mem_map.mp hid
  obtain ⟨hmem, hc, hp, hdate⟩ := mem_unmatchedAdsetMetrics.mp hw
  obtain ⟨v, hv, hvid, hvk, hvc, -, hvp⟩ := hr.adset hmem hp
  have hlist : w.id ∈ (unmatchedAdsetMetrics env range db.store).map (·.id) := by
    refine mem_map.mpr ⟨v, mem_unmatchedAdsetMetrics.mpr ⟨hv, hvc.trans hc, hvp, ?_⟩, hvid⟩
    rw [hvk]
    exact hdate
  exact rematchAdsetMetric_settled h1 hmem hc hp
    ((hsettled w.id hlist w hmem rfl hc hp).reorder h1.named hsame)

end Settled

/-! ## 8. Every run -/

theorem rematchCurrentMetrics_ok {env : RematchEnv} {summary : RematchSummary}
    (h : rematchCurrentMetrics env body db = .ok (db', summary)) :
    ∃ range, dateRangeFromBody body = .ok range ∧ rematchInRange env range db = (db', summary) := by
  obtain ⟨range, hrange, h⟩ := bind_eq_ok.mp h
  exact ⟨range, hrange, Except.ok.inj h⟩

theorem AttributionInv.rematch {env : RematchEnv} {summary : RematchSummary} (h : AttributionInv db)
    (hok : rematchCurrentMetrics env body db = .ok (db', summary)) :
    AttributionInv db' ∧ Rematched db db' := by
  obtain ⟨range, -, e⟩ := rematchCurrentMetrics_ok hok
  have hfst := rematchInRange_fst h env range
  rw [e] at hfst
  rw [show db' = _ from hfst]
  exact h.adsetTurns env _

theorem Attributed.inv {sha1 : Sha1} (h : Attributed sha1 db) : AttributionInv db := by
  induction h with
  | start => exact AttributionInv.start
  | importAds env importEnv file _ hfree ih => exact ih.importAds env importEnv file hfree
  | createManualProductMapping env body _ hok ih => exact ih.mapProduct hok
  | changeRules change _ ih => exact ih.changeRules change
  | rematchCurrentMetrics env body summary _ hok ih => exact (ih.rematch hok).1

/-- The current adset metric of the group, and what its ads have in common. -/
structure FollowsAds (store : MetaStore) (key : AdsetMetricKey) (ads : List MetaAdDailyMetric) : Prop where
  exists_adset : ∃ w ∈ store.adsetMetrics.rows, w.key = key ∧ w.current = true
  attribution : ∀ w ∈ store.adsetMetrics.rows, w.key = key → w.current = true →
    adsetAttribution w.data = aggregateProductAttribution ads
  product : ∀ w ∈ store.adsetMetrics.rows, w.key = key → w.current = true →
    ∀ p, w.data.productId = some p ↔ ∀ m ∈ ads, m.data.productId = some p

theorem AttributionInv.followsAds (h : AttributionInv db) {ads : List MetaAdDailyMetric}
    (hads : ads.Perm (sourceRowsOf key db.store.adMetrics.rows)) (hne : ads ≠ []) :
    FollowsAds db.store key ads := by
  have hne' : sourceRowsOf key db.store.adMetrics.rows ≠ [] := fun e => hne (perm_nil.mp (e ▸ hads))
  have hatt : ∀ w ∈ db.store.adsetMetrics.rows, w.key = key → w.current = true →
      adsetAttribution w.data = aggregateProductAttribution ads := by
    rintro w hw rfl hc
    rw [aggregateProductAttribution_perm hads]
    exact h.follows.follows w hw hc hne'
  obtain ⟨m, hm⟩ := exists_mem_of_ne_nil _ hne
  have hsrc := mem_sourceRowsOf.mp (hads.mem_iff.mp hm)
  obtain ⟨hcm, hk⟩ := isSourceOf_iff_key.mp hsrc.2
  refine ⟨?_, hatt, fun w hw hkw hc p => ?_⟩
  · obtain ⟨w, hw, hkw, hcw⟩ := h.follows.exists_adset m hsrc.1 hcm
    exact ⟨w, hw, hkw.trans hk, hcw⟩
  · have hprod : w.data.productId = (aggregateProductAttribution ads).productId :=
      congrArg ProductMatch.productId (hatt w hw hkw hc)
    rw [hprod]
    constructor
    · intro hp x hx
      rcases aggregateProductAttribution_cases ads with ⟨q, hq⟩ | hun
      · rw [aggregateProductAttribution_of_namesAll hq] at hp
        rw [← hp]
        exact hq.all _ (mem_map_of_mem hx)
      · rw [hun] at hp
        cases hp
    · intro hall
      have hnamed : p ≠ "" := by
        rintro rfl
        exact h.named.ads m hsrc.1 (hall m hm)
      have hnames : NamesAll p (attributionsOf ads) := by
        refine ⟨fun e => hne (map_eq_nil_iff.mp e), hnamed, fun a ha => ?_⟩
        obtain ⟨x, hx, rfl⟩ := mem_map.mp ha
        exact hall x hx
      rw [aggregateProductAttribution_of_namesAll hnames]
      rfl

/-- **The attribution of an adset follows its ads in every database that is reached; a rematch
    changes no product that is there, and a second one changes nothing.** -/
theorem attribution_follows_ads {sha1 : Sha1} {db : MappingStore} (h : Attributed sha1 db) :
    (∀ key ads, ads.Perm (sourceRowsOf key db.store.adMetrics.rows) → ads ≠ [] →
      FollowsAds db.store key ads) ∧
    ∀ (env : RematchEnv) (body : Body) (db' : MappingStore) (summary : RematchSummary),
      rematchCurrentMetrics env body db = .ok (db', summary) →
        KeepsProducts (·.productId) db.store.adMetrics db'.store.adMetrics ∧
        KeepsProducts (·.productId) db.store.adsetMetrics db'.store.adsetMetrics ∧
        ∀ env' : RematchEnv, SameMatchers env.toMappingEnv env'.toMappingEnv →
          ∃ summary', rematchCurrentMetrics env' body db' = .ok (db', summary') := by
  have hinv := h.inv
  refine ⟨fun key ads hads hne => hinv.followsAds hads hne, fun env body db' summary hok => ?_⟩
  obtain ⟨hinv', hr⟩ := hinv.rematch hok
  refine ⟨hr.ads.keepsProducts, hr.adsets.keepsProducts, fun env' hsame => ?_⟩
  obtain ⟨range, hrange, e⟩ := rematchCurrentMetrics_ok hok
  have htwice := rematchInRange_twice hinv hsame range
  rw [e] at htwice
  refine ⟨(rematchInRange env' range db').2, ?_⟩
  unfold rematchCurrentMetrics
  rw [hrange]
  exact congrArg Except.ok (Prod.ext htwice rfl)

/-! ## 9. A sample -/

def sampleMatchers : RematchEnv :=
  { plainMappingEnv with
    toLowerCase := asciiLowerCase
    adsetMetrics := identityOrder
    adMetrics := identityOrder }

/-- Two ads of one adset, imported before there is a rule. -/
def twoUnmatchedAds : MappingStore :=
  { emptyMappingStore with
    store := (importAds sampleSha1 sampleMatchers.toMappingEnv sampleEnv
      (sampleFile "h" [sampleRow "2026-01-05" "7" "1.5", sampleRow "2026-01-05" "8" "1"])
      emptyMappingStore).1 }

/-- A rule for all names with an `a`. -/
def oneRule : RuleChange where
  rules := [⟨"r", "p", .CONTAINS, "a", some "a", 100, 20000, none, true⟩]
  products := [⟨"p", true⟩]
  named := by decide

def ruledAds : MappingStore := { twoUnmatchedAds with rules := oneRule.rules, products := oneRule.products }

/-- The rule arrives after the ads; the first rematch gives both of them its product. -/
theorem attribution_follows_two_ads :
    Attributed sampleSha1 ruledAds ∧
      (rematchInRange sampleMatchers none ruledAds).2.rematchedAdMetricCount = 2 ∧
      ∃ summary, rematchCurrentMetrics sampleMatchers [] (rematchInRange sampleMatchers none ruledAds).1 =
        .ok ((rematchInRange sampleMatchers none ruledAds).1, summary) := by
  have himport : (importAds sampleSha1 sampleMatchers.toMappingEnv sampleEnv
      (sampleFile "h" [sampleRow "2026-01-05" "7" "1.5", sampleRow "2026-01-05" "8" "1"])
      emptyMappingStore).2 = .imported 0 0 := by decide +kernel
  have hfree : ErrorFree (importAds sampleSha1 sampleMatchers.toMappingEnv sampleEnv
      (sampleFile "h" [sampleRow "2026-01-05" "7" "1.5", sampleRow "2026-01-05" "8" "1"])
      emptyMappingStore).2 := by
    intro batchId errorCount e
    rw [himport] at e
    cases e
    rfl
  have hreached : Attributed sampleSha1 ruledAds :=
    .changeRules oneRule (.importAds sampleMatchers.toMappingEnv sampleEnv _ .start hfree)
  refine ⟨hreached, by decide +kernel, ?_⟩
  exact ((attribution_follows_ads hreached).2 sampleMatchers [] _ _ rfl).2.2 sampleMatchers ⟨rfl, rfl⟩

end AdsManagement.Meta
