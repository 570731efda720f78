/-
  File:      Meta/AttributionRematch.lean
  Subject:   THE REMATCH OF METRICS WITHOUT A PRODUCT (mappings/mappings.service.ts): an adset
             metric is matched together with the ad metrics of its date, an ad metric without such
             an adset metric for itself.

  The metrics are listed first; each of them is then a transaction of its own, which reads its
  metric again. The copies of an attribution in the rows of an upload and the security audit are
  left out, as in the mapping requests. Where a query leaves the order of its rows open, a
  `RowOrder` answers.

  * `aggregateSourceProductMatch` -- the product that all ad metrics of an adset name;
  * `rematchAdsetMetric`, `rematchStandaloneAdMetric` -- the two transactions;
  * `rematchCurrentMetrics` -- the request.
-/
import AdsManagement.Meta.AdsetLinks
import AdsManagement.Meta.Mappings

namespace AdsManagement.Meta

open Common Lib Coupang List

/-! ## 1. The request -/

/-- What the rematch gets from outside. -/
structure RematchEnv extends MappingEnv where
  adsetMetrics : RowOrder MetaAdsetDailyMetric
  adMetrics : RowOrder MetaAdDailyMetric

def dateRangeFromBody (body : Body) : Except ApiError (Option DateRange) :=
  match optionalString (body.get "from"), optionalString (body.get "to") with
  | none, none => .ok none
  | some start, some stop => (parseDateRange (some start) (some stop)).map some
  | _, _ => .error ⟨"DATE_RANGE_REQUIRED", "Both from and to dates are required."⟩

/-- `range ? { metricDate: { gte: range.fromDate, lte: range.toDate } } : {}`. -/
def inDates (range : Option DateRange) (metricDate : Int) : Bool :=
  range.all fun r => r.holds metricDate

def unmatchedAdsetMetrics (env : RematchEnv) (range : Option DateRange) (store : MetaStore) :
    List MetaAdsetDailyMetric :=
  env.adsetMetrics.arrange (store.adsetMetrics.rows.filter fun metric =>
    metric.current && metric.data.productId.isNone && inDates range metric.key.metricDate)

def unmatchedAdMetrics (env : RematchEnv) (range : Option DateRange) (store : MetaStore) :
    List MetaAdDailyMetric :=
  env.adMetrics.arrange (store.adMetrics.rows.filter fun metric =>
    metric.current && metric.data.productId.isNone && inDates range metric.key.metricDate)

def adsetDateKey (metaAdsetId : Nat) (metricDate : Int) : String :=
  idText metaAdsetId ++ ":" ++ formatDateOnly metricDate

/-- The ad metrics whose adset and date are not among the adset metrics of the list. -/
def standaloneAdMetrics (metrics : List MetaAdsetDailyMetric) (unmatched : List MetaAdDailyMetric) :
    List MetaAdDailyMetric :=
  let adsetMetricKeys := metrics.map fun metric => adsetDateKey metric.key.metaAdsetId metric.key.metricDate
  unmatched.filter fun metric =>
    !adsetMetricKeys.contains (adsetDateKey metric.data.metaAdsetRefId metric.key.metricDate)

/-! ## 2. Attributions -/

/-- The attribution columns of an ad metric. -/
def adAttribution (data : AdMetricData) : ProductMatch :=
  ⟨data.productId, data.productMatchSource, data.productMatchRuleId⟩

def adsetAttribution (data : AdsetMetricData) : ProductMatch :=
  ⟨data.productId, data.productMatchSource, data.productMatchRuleId⟩

def setAdAttribution (result : ProductMatch) (data : AdMetricData) : AdMetricData :=
  { data with
    productId := result.productId
    productMatchSource := result.source
    productMatchRuleId := result.matchRuleId }

def setAdsetAttribution (result : ProductMatch) (data : AdsetMetricData) : AdsetMetricData :=
  { data with
    productId := result.productId
    productMatchSource := result.source
    productMatchRuleId := result.matchRuleId }

def updateAdMetric (id : Nat) (result : ProductMatch) (db : MappingStore) : MappingStore :=
  { db with
    store := { db.store with
      adMetrics := updateMetrics (fun row => row.id = id) (setAdAttribution result) db.store.adMetrics } }

def updateAdsetMetric (id : Nat) (result : ProductMatch) (db : MappingStore) : MappingStore :=
  { db with
    store := { db.store with
      adsetMetrics :=
        updateMetrics (fun row => row.id = id) (setAdsetAttribution result) db.store.adsetMetrics } }

def sourceRowMatchText (data : AdMetricData) : String :=
  data.adNameSnapshot ++ " " ++ data.adsetNameSnapshot ++ " " ++ data.campaignNameSnapshot

/-- An element of `sourceMatches`. -/
structure SourceMatch where
  id : Nat
  result : ProductMatch
  shouldUpdate : Bool

/-- A row with a product keeps it, any other row is matched by its names. -/
def sourceMatch (matchText : String → ProductMatch) (row : MetaAdDailyMetric) : SourceMatch :=
  if isTruthy row.data.productId then ⟨row.id, adAttribution row.data, false⟩
  else
    let result := matchText (sourceRowMatchText row.data)
    ⟨row.id, result, isTruthy result.productId⟩

def aggregateSourceProductMatch (rows : List ProductMatch) : Option ProductMatch :=
  if rows.length = 0 ∨ rows.any (fun row => !isTruthy row.productId) then none
  else
    match (rows.map (·.productId)).eraseDups with
    | [productId] =>
      if !isTruthy productId then none
      else
        let sources := ((rows.map (·.source)).filter (· ≠ .UNMATCHED)).eraseDups
        let source :=
          match sources with
          | [source] => source
          | _ =>
            if sources.contains .MANUAL then .MANUAL
            else if sources.contains .RULE then .RULE
            else .INFERRED
        let ruleIds := (rows.filterMap fun row => row.matchRuleId.filter (· != "")).eraseDups
        some ⟨productId, source,
          match source, ruleIds with
          | .RULE, [ruleId] => some ruleId
          | _, _ => none⟩
    | _ => none

/-! ## 3. One metric -/

structure RematchOutcome where
  adset : Nat
  ad : Nat
  rule : Nat
  manual : Nat
  resolvedAdset : Nat
  resolvedAd : Nat

def emptyMetaRematchOutcome : RematchOutcome := ⟨0, 0, 0, 0, 0, 0⟩

def RematchOutcome.add (a b : RematchOutcome) : RematchOutcome where
  adset := a.adset + b.adset
  ad := a.ad + b.ad
  rule := a.rule + b.rule
  manual := a.manual + b.manual
  resolvedAdset := a.resolvedAdset + b.resolvedAdset
  resolvedAd := a.resolvedAd + b.resolvedAd

/-- The adset takes the product of its latest current metric that has one. -/
def refreshCurrentAdsetProduct (metaAdsetId : Nat) (db : MappingStore) : MappingStore :=
  let latest := ((db.store.adsetMetrics.rows.filter fun metric =>
    metric.key.metaAdsetId = metaAdsetId && metric.current && metric.data.productId.isSome).insertionSort
      fun a b => b.key.metricDate ≤ a.key.metricDate).head?
  match latest with
  | none => db
  | some metric =>
    if !isTruthy metric.data.productId then db
    else
      { db with
        store := { db.store with
          adsets := db.store.adsets.update metaAdsetId fun adset =>
            { adset with currentProductId := metric.data.productId } } }

def isSourceOf (key : AdsetMetricKey) (row : MetaAdDailyMetric) : Bool :=
  row.current && row.data.metaAdsetRefId = key.metaAdsetId && row.key.metricDate = key.metricDate

/-- The current ad metrics of an adset on a date. -/
def sourceRowsOf (key : AdsetMetricKey) (rows : List MetaAdDailyMetric) : List MetaAdDailyMetric :=
  rows.filter (isSourceOf key)

/-- An adset metric without ad metrics is matched by the name of the adset. -/
def rematchByName (env : RematchEnv) (db : MappingStore) (metric : MetaAdsetDailyMetric) :
    MappingStore × RematchOutcome :=
  let result := matchProduct env.toMappingEnv db metric.key.metaAdsetId metric.data.adsetName
    metric.key.metricDate
  if !isTruthy result.productId then (db, emptyMetaRematchOutcome)
  else
    (refreshCurrentAdsetProduct metric.key.metaAdsetId (updateAdsetMetric metric.id result db),
      { emptyMetaRematchOutcome with
        adset := 1
        rule := if result.source = .RULE then 1 else 0
        manual := if result.source = .MANUAL then 1 else 0 })

/-- The ad metrics that found a product, counted by its source; an adset metric that only takes
    over what its ad metrics had counts itself. -/
def countSource (source : MatchSource) (matchedSourceRows : List SourceMatch)
    (aggregateMatch : Option ProductMatch) : Nat :=
  (matchedSourceRows.filter fun row => row.result.source = source).length +
    if matchedSourceRows.length = 0 && aggregateMatch.any fun a => a.source = source then 1 else 0

section

variable (env : RematchEnv) (db : MappingStore)

def rematchBySource (metric : MetaAdsetDailyMetric)
    (sourceRows : List MetaAdDailyMetric) : MappingStore × RematchOutcome :=
  let sourceMatches := sourceRows.map (sourceMatch fun text =>
    matchProduct env.toMappingEnv db metric.key.metaAdsetId text metric.key.metricDate)
  let matchedSourceRows := sourceMatches.filter fun row => row.shouldUpdate && isTruthy row.result.productId
  let aggregateMatch := aggregateSourceProductMatch (sourceMatches.map (·.result))
  if matchedSourceRows.length = 0 && aggregateMatch.isNone then (db, emptyMetaRematchOutcome)
  else
    let updated := matchedSourceRows.foldl (fun db row => updateAdMetric row.id row.result db) db
    (match aggregateMatch with
      | none => updated
      | some result =>
        refreshCurrentAdsetProduct metric.key.metaAdsetId (updateAdsetMetric metric.id result updated),
      { emptyMetaRematchOutcome with
        adset := if aggregateMatch.isSome then 1 else 0
        ad := matchedSourceRows.length
        rule := countSource .RULE matchedSourceRows aggregateMatch
        manual := countSource .MANUAL matchedSourceRows aggregateMatch })

def rematchAdsetMetric (id : Nat) : MappingStore × RematchOutcome :=
  match db.store.adsetMetrics.rows.find? fun metric => metric.id = id with
  | none => (db, { emptyMetaRematchOutcome with resolvedAdset := 1 })
  | some metric =>
    if !metric.current || isTruthy metric.data.productId then
      (db, { emptyMetaRematchOutcome with resolvedAdset := 1 })
    else
      let sourceRows := env.adMetrics.arrange (sourceRowsOf metric.key db.store.adMetrics.rows)
      if sourceRows.length = 0 then rematchByName env db metric
      else rematchBySource env db metric sourceRows

def rematchStandaloneAdMetric (id : Nat) : MappingStore × RematchOutcome :=
  match db.store.adMetrics.rows.find? fun metric => metric.id = id with
  | none => (db, { emptyMetaRematchOutcome with resolvedAd := 1 })
  | some metric =>
    if !metric.current || isTruthy metric.data.productId then
      (db, { emptyMetaRematchOutcome with resolvedAd := 1 })
    else
      let result := matchProduct env.toMappingEnv db metric.data.metaAdsetRefId
        (sourceRowMatchText metric.data) metric.key.metricDate
      if !isTruthy result.productId then (db, emptyMetaRematchOutcome)
      else
        (updateAdMetric metric.id result db,
          { emptyMetaRematchOutcome with
            ad := 1
            rule := if result.source = .RULE then 1 else 0
            manual := if result.source = .MANUAL then 1 else 0 })

end

/-! ## 4. All metrics -/

/-- A loop of transactions over the metrics of a list. -/
def rematchEach (transaction : MappingStore → Nat → MappingStore × RematchOutcome) (ids : List Nat)
    (db : MappingStore) : MappingStore × RematchOutcome :=
  ids.foldl (fun state id =>
    let result := transaction state.1 id
    (result.1, state.2.add result.2)) (db, emptyMetaRematchOutcome)

structure RematchSummary where
  scannedCount : Nat
  rematchedCount : Nat
  rematchedAdMetricCount : Nat
  rematchedByRuleCount : Nat
  rematchedByManualCount : Nat
  stillUnmatchedCount : Int
  range : Option DateRange

def rematchInRange (env : RematchEnv) (range : Option DateRange) (db : MappingStore) :
    MappingStore × RematchSummary :=
  let metrics := unmatchedAdsetMetrics env range db.store
  let standalone := standaloneAdMetrics metrics (unmatchedAdMetrics env range db.store)
  let adsets := rematchEach (rematchAdsetMetric env) (metrics.map (·.id)) db
  let ads := rematchEach (rematchStandaloneAdMetric env) (standalone.map (·.id)) adsets.1
  (ads.1,
    { scannedCount := metrics.length + standalone.length
      rematchedCount := adsets.2.adset
      rematchedAdMetricCount := adsets.2.ad + ads.2.ad
      rematchedByRuleCount := adsets.2.rule + ads.2.rule
      rematchedByManualCount := adsets.2.manual + ads.2.manual
      stillUnmatchedCount := (metrics.length : Int) - adsets.2.adset - adsets.2.resolvedAdset +
        standalone.length - ads.2.ad - ads.2.resolvedAd
      range })

def rematchCurrentMetrics (env : RematchEnv) (body : Body) (db : MappingStore) :
    Except ApiError (MappingStore × RematchSummary) := do
  let range ← dateRangeFromBody body
  .ok (rematchInRange env range db)

/-! ## 5. The two aggregations -/

theorem eraseDups_eq_nil_iff {α : Type} [BEq α] {l : List α} : l.eraseDups = [] ↔ l = [] := by
  cases l with
  | nil => simp
  | cons a l => simp [eraseDups_cons]

/-- A list whose elements are all the same. -/
theorem eraseDups_eq_singleton_iff {α : Type} [BEq α] [LawfulBEq α] {l : List α} {x : α} :
    l.eraseDups = [x] ↔ x ∈ l ∧ ∀ y ∈ l, y = x := by
  cases l with
  | nil => simp
  | cons a l =>
    rw [eraseDups_cons, cons_eq_cons, eraseDups_eq_nil_iff, filter_eq_nil_iff]
    constructor
    · rintro ⟨rfl, h⟩
      exact ⟨mem_cons_self, by simpa using h⟩
    · rintro ⟨-, h⟩
      have ha := h a mem_cons_self
      exact ⟨ha, fun y hy => by simp [ha, h y (mem_cons_of_mem _ hy)]⟩

/-- What is left of a list without its repetitions does not depend on its order. -/
theorem eraseDups_perm {α : Type} [DecidableEq α] {l l' : List α} (h : l.Perm l') :
    l.eraseDups.Perm l'.eraseDups := by
  refine (perm_ext_iff_of_nodup (nodup_eraseDups l) (nodup_eraseDups l')).mpr fun x => ?_
  rw [mem_eraseDups, mem_eraseDups, h.mem_iff]

/-- All attributions name the product `p`. -/
structure NamesAll (p : String) (l : List ProductMatch) : Prop where
  nonempty : l ≠ []
  named : p ≠ ""
  all : ∀ a ∈ l, a.productId = some p

/-- The source of several attributions, out of their different sources. -/
def pickSource (sources : List MatchSource) : MatchSource :=
  match sources with
  | [source] => source
  | _ => if sources.contains .MANUAL then .MANUAL else if sources.contains .RULE then .RULE else .INFERRED

def commonSource (l : List ProductMatch) : MatchSource :=
  pickSource ((l.map (·.source)).filter (· ≠ .UNMATCHED)).eraseDups

def commonRule (l : List ProductMatch) : Option String :=
  match commonSource l, (l.filterMap fun a => a.matchRuleId.filter (· != "")).eraseDups with
  | .RULE, [ruleId] => some ruleId
  | _, _ => none

/-- The attribution of an adset all of whose ads name `p`. -/
def commonAttribution (p : String) (l : List ProductMatch) : ProductMatch :=
  ⟨some p, commonSource l, commonRule l⟩

variable {p : String} {l l' : List ProductMatch}

theorem NamesAll.truthy (h : NamesAll p l) : ∀ a ∈ l, isTruthy a.productId = true := by
  intro a ha
  rw [h.all a ha]
  simpa [isTruthy] using h.named

theorem NamesAll.perm (h : l.Perm l') (hp : NamesAll p l) : NamesAll p l' where
  nonempty := fun e => hp.nonempty (perm_nil.mp (e ▸ h))
  named := hp.named
  all := fun a ha => hp.all a (h.mem_iff.mpr ha)

theorem pickSource_perm {s s' : List MatchSource} (h : s.Perm s') : pickSource s = pickSource s' := by
  have hc : ∀ x, s.contains x = s'.contains x := fun x => by
    rw [Bool.eq_iff_iff, contains_iff_mem, contains_iff_mem, h.mem_iff]
  have hlen := h.length_eq
  unfold pickSource
  rw [hc, hc]
  match s, s' with
  | [], [] => rfl
  | [x], s' =>
    rw [singleton_perm.mp h]
  | x :: y :: s, x' :: y' :: s' => rfl
  | x :: y :: s, [x'] => simp at hlen

theorem commonSource_perm (h : l.Perm l') : commonSource l = commonSource l' :=
  pickSource_perm (eraseDups_perm ((h.map _).filter _))

theorem commonRule_perm (h : l.Perm l') : commonRule l = commonRule l' := by
  have hr := eraseDups_perm (h.filterMap fun a => a.matchRuleId.filter (· != ""))
  have hlen := hr.length_eq
  unfold commonRule
  rw [commonSource_perm h]
  revert hr hlen
  generalize (l.filterMap fun a => a.matchRuleId.filter (· != "")).eraseDups = r
  generalize (l'.filterMap fun a => a.matchRuleId.filter (· != "")).eraseDups = r'
  intro hr hlen
  match r, r' with
  | [], [] => rfl
  | [x], r' => rw [singleton_perm.mp hr]
  | x :: y :: r, x' :: y' :: r' => cases commonSource l' <;> rfl
  | x :: y :: r, [x'] => simp at hlen

theorem commonAttribution_perm (h : l.Perm l') : commonAttribution p l = commonAttribution p l' := by
  unfold commonAttribution
  rw [commonSource_perm h, commonRule_perm h]

theorem any_not_truthy_eq_false (h : NamesAll p l) : l.any (fun a => !isTruthy a.productId) = false :=
  any_eq_false.mpr fun a ha => by simp [h.truthy a ha]

theorem aggregateSourceProductMatch_of_namesAll (h : NamesAll p l) :
    aggregateSourceProductMatch l = some (commonAttribution p l) := by
  have hlen : ¬ (l.length = 0 ∨ l.any (fun a => !isTruthy a.productId) = true) := by
    rw [any_not_truthy_eq_false h]
    simp [h.nonempty]
  have hids : (l.map (·.productId)).eraseDups = [some p] := by
    obtain ⟨a, ha⟩ := exists_mem_of_ne_nil l h.nonempty
    refine eraseDups_eq_singleton_iff.mpr ⟨mem_map.mpr ⟨a, ha, h.all a ha⟩, fun y hy => ?_⟩
    obtain ⟨b, hb, rfl⟩ := mem_map.mp hy
    exact h.all b hb
  have htruthy : ¬ (!isTruthy (some p)) = true := by simpa [isTruthy] using h.named
  unfold aggregateSourceProductMatch
  rw [if_neg hlen, hids]
  dsimp only
  rw [if_neg htruthy]
  rfl

/-- An aggregation that finds a product has found it in every row. -/
theorem namesAll_of_aggregateSourceProductMatch {a : ProductMatch}
    (h : aggregateSourceProductMatch l = some a) : ∃ p, NamesAll p l := by
  unfold aggregateSourceProductMatch at h
  split at h
  · cases h
  · rename_i hl
    split at h
    · rename_i productId e
      split at h
      · cases h
      · rename_i ht
        obtain ⟨-, hall⟩ := eraseDups_eq_singleton_iff.mp e
        cases productId with
        | none => simp [isTruthy] at ht
        | some p =>
          refine ⟨p, fun e => hl (.inl (by rw [e]; rfl)), by simpa [isTruthy] using ht,
            fun b hb => ?_⟩
          exact hall b.productId (mem_map_of_mem hb)
    · cases h

/-- The attributions of some ad metrics. -/
def attributionsOf (rows : List MetaAdDailyMetric) : List ProductMatch :=
  rows.map fun row => adAttribution row.data

variable {rows : List MetaAdDailyMetric}

theorem aggregateProductAttribution_of_namesAll (h : NamesAll p (attributionsOf rows)) :
    aggregateProductAttribution rows = commonAttribution p (attributionsOf rows) := by
  have hall : ∀ row ∈ rows, row.data.productId = some p := fun row hr =>
    h.all (adAttribution row.data) (mem_map_of_mem hr)
  have hne : rows ≠ [] := fun e => h.nonempty (by rw [e]; rfl)
  have hlen : ¬ (rows.length = 0 ∨ rows.any (fun row => !isTruthy row.data.productId) = true) := by
    have hany : rows.any (fun row => !isTruthy row.data.productId) = false :=
      any_eq_false.mpr fun row hr => by
        rw [hall row hr]
        simpa [isTruthy] using h.named
    rw [hany]
    simp [hne]
  have hids : (rows.filterMap fun row => row.data.productId.filter (· != "")).eraseDups = [p] := by
    obtain ⟨row, hr⟩ := exists_mem_of_ne_nil rows hne
    refine eraseDups_eq_singleton_iff.mpr ⟨mem_filterMap.mpr ⟨row, hr, ?_⟩, fun y hy => ?_⟩
    · rw [hall row hr]
      simp [h.named]
    · obtain ⟨row', hr', e⟩ := mem_filterMap.mp hy
      rw [hall row' hr'] at e
      exact (Option.some.inj (Option.filter_eq_some_iff.mp e).1).symm
  unfold aggregateProductAttribution
  rw [if_neg hlen, hids]
  unfold commonAttribution commonRule commonSource attributionsOf
  simp only [map_map, filterMap_map]
  rfl

theorem aggregateProductAttribution_cases (rows : List MetaAdDailyMetric) :
    (∃ p, NamesAll p (attributionsOf rows)) ∨
      aggregateProductAttribution rows = unmatchedProductAttribution := by
  unfold aggregateProductAttribution
  split
  · exact .inr rfl
  · rename_i hl
    split
    · rename_i productId e
      refine .inl ⟨productId, ?_⟩
      obtain ⟨hmem, hall⟩ := eraseDups_eq_singleton_iff.mp e
      have hnamed : productId ≠ "" := by
        obtain ⟨row, -, e⟩ := mem_filterMap.mp hmem
        simpa using (Option.filter_eq_some_iff.mp e).2
      refine ⟨fun e => hl (.inl ?_), hnamed, fun a ha => ?_⟩
      · exact length_eq_zero_iff.mpr (map_eq_nil_iff.mp e)
      · obtain ⟨row, hr, rfl⟩ := mem_map.mp ha
        have ht : isTruthy row.data.productId = true := by
          by_contra hf
          exact hl (.inr (any_eq_true.mpr ⟨row, hr, by simpa using hf⟩))
        show row.data.productId = some productId
        cases hq : row.data.productId with
        | none => rw [hq] at ht; cases ht
        | some q =>
          rw [hq] at ht
          have hq' : q ≠ "" := by simpa [isTruthy] using ht
          rw [hall q (mem_filterMap.mpr ⟨row, hr, by rw [hq]; simp [hq']⟩)]
    · exact .inr rfl

/-- **The aggregation of an import and the aggregation of a rematch agree.** -/
theorem aggregateProductAttribution_eq (rows : List MetaAdDailyMetric) :
    aggregateProductAttribution rows =
      (aggregateSourceProductMatch (attributionsOf rows)).getD unmatchedProductAttribution := by
  cases e : aggregateSourceProductMatch (attributionsOf rows) with
  | some a =>
    obtain ⟨p, hp⟩ := namesAll_of_aggregateSourceProductMatch e
    rw [aggregateSourceProductMatch_of_namesAll hp] at e
    cases e
    exact aggregateProductAttribution_of_namesAll hp
  | none =>
    rcases aggregateProductAttribution_cases rows with ⟨p, hp⟩ | hun
    · rw [aggregateSourceProductMatch_of_namesAll hp] at e
      cases e
    · exact hun

theorem aggregateSourceProductMatch_perm (h : l.Perm l') :
    aggregateSourceProductMatch l = aggregateSourceProductMatch l' := by
  have hsome : ∀ {l l' : List ProductMatch} {a : ProductMatch}, l.Perm l' →
      aggregateSourceProductMatch l = some a → aggregateSourceProductMatch l' = some a := by
    intro l l' a h e
    obtain ⟨p, hp⟩ := namesAll_of_aggregateSourceProductMatch e
    rw [aggregateSourceProductMatch_of_namesAll (hp.perm h), ← commonAttribution_perm h,
      ← aggregateSourceProductMatch_of_namesAll hp, e]
  cases e : aggregateSourceProductMatch l with
  | some a => exact (hsome h e).symm
  | none =>
    cases e' : aggregateSourceProductMatch l' with
    | none => rfl
    | some a => rw [hsome h.symm e'] at e; cases e

theorem aggregateProductAttribution_perm {rows' : List MetaAdDailyMetric} (h : rows.Perm rows') :
    aggregateProductAttribution rows = aggregateProductAttribution rows' := by
  have hp : (attributionsOf rows).Perm (attributionsOf rows') := h.map _
  rw [aggregateProductAttribution_eq, aggregateProductAttribution_eq,
    aggregateSourceProductMatch_perm hp]

/-! ## 6. A transaction in closed form -/

theorem updateMetrics_eq {κ δ : Type} (sel : Versioned κ δ → Bool) (change : δ → δ)
    (table : VersionTable κ δ) : updateMetrics sel change table =
      recolumn (fun row => if sel row then change row.data else row.data) table := by
  refine congrArg (fun rows => { table with rows }) (map_congr_left fun row _ => ?_)
  dsimp only
  by_cases h : sel row = true
  · rw [if_pos h, if_pos h]
  · rw [if_neg h, if_neg h]

section Transaction

variable (env : RematchEnv) (db : MappingStore)

/-- What the matcher says to the names of an ad metric. -/
def nameMatch (m : MetaAdDailyMetric) : ProductMatch :=
  matchProduct env.toMappingEnv db m.data.metaAdsetRefId (sourceRowMatchText m.data) m.key.metricDate

/-- The attribution with which an ad metric enters the aggregation. -/
def sourceResult (m : MetaAdDailyMetric) : ProductMatch :=
  if isTruthy m.data.productId then adAttribution m.data else nameMatch env db m

/-- The columns of an ad metric after its transaction. -/
def rematchedAd (m : MetaAdDailyMetric) : AdMetricData :=
  if isTruthy m.data.productId then m.data
  else if isTruthy (nameMatch env db m).productId then setAdAttribution (nameMatch env db m) m.data
  else m.data

/-- The attribution that a transaction finds for an adset metric. -/
def foundAttribution (w : MetaAdsetDailyMetric) : Option ProductMatch :=
  if sourceRowsOf w.key db.store.adMetrics.rows = [] then
    let result := matchProduct env.toMappingEnv db w.key.metaAdsetId w.data.adsetName w.key.metricDate
    if isTruthy result.productId then some result else none
  else
    aggregateSourceProductMatch ((sourceRowsOf w.key db.store.adMetrics.rows).map (sourceResult env db))

def rematchedAdset (w : MetaAdsetDailyMetric) : AdsetMetricData :=
  match foundAttribution env db w with
  | some result => setAdsetAttribution result w.data
  | none => w.data

/-- What the transaction of the adset metric `w` does. -/
structure Transacted (w : MetaAdsetDailyMetric) (db' : MappingStore) : Prop where
  adMetrics : db'.store.adMetrics =
    recolumn (fun m => if isSourceOf w.key m then rematchedAd env db m else m.data) db.store.adMetrics
  adsetMetrics : db'.store.adsetMetrics =
    recolumn (fun v => if v.id = w.id then rematchedAdset env db w else v.data) db.store.adsetMetrics
  adsets : AdsetsInv db.store.adsets → AdsetsInv db'.store.adsets ∧ Keeps db.store.adsets db'.store.adsets
  batches : db'.store.batches = db.store.batches
  nextBatchId : db'.store.nextBatchId = db.store.nextBatchId
  productHistories : db'.productHistories = db.productHistories
  rules : db'.rules = db.rules
  products : db'.products = db.products

end Transaction

theorem refreshCurrentAdsetProduct_spec (metaAdsetId : Nat) (db : MappingStore) :
    ∃ adsets, refreshCurrentAdsetProduct metaAdsetId db =
        { db with store := { db.store with adsets } } ∧
      (AdsetsInv db.store.adsets → AdsetsInv adsets ∧ Keeps db.store.adsets adsets) := by
  unfold refreshCurrentAdsetProduct
  dsimp only
  split
  · exact ⟨_, rfl, fun h => ⟨h, Keeps.refl _⟩⟩
  · split
    · exact ⟨_, rfl, fun h => ⟨h, Keeps.refl _⟩⟩
    · exact ⟨_, rfl, fun h => h.update _ _ (fun _ => rfl) fun _ _ _ => .inl rfl⟩

theorem foldl_updateAdMetric (us : List SourceMatch) (db : MappingStore) :
    us.foldl (fun db row => updateAdMetric row.id row.result db) db =
      { db with
        store := { db.store with
          adMetrics := us.foldl (fun t u => recolumn (fun r =>
            if r.id = u.id then setAdAttribution u.result r.data else r.data) t) db.store.adMetrics } } := by
  induction us generalizing db with
  | nil => rfl
  | cons u us ih =>
    rw [foldl_cons, ih, foldl_cons]
    unfold updateAdMetric
    rw [updateMetrics_eq]
    simp only [decide_eq_true_iff]

variable {env : RematchEnv} {db : MappingStore} {w : MetaAdsetDailyMetric}
variable {m : MetaAdDailyMetric}

theorem mem_sourceRowsOf {key : AdsetMetricKey} :
    m ∈ sourceRowsOf key rows ↔ m ∈ rows ∧ isSourceOf key m = true := mem_filter

theorem isSourceOf_iff {key : AdsetMetricKey} : isSourceOf key m = true ↔
    m.current = true ∧ m.data.metaAdsetRefId = key.metaAdsetId ∧ m.key.metricDate = key.metricDate := by
  unfold isSourceOf
  rw [Bool.and_eq_true, Bool.and_eq_true, decide_eq_true_iff, decide_eq_true_iff, and_assoc]

/-- A row of the group is matched as its own date and adset say. -/
theorem sourceMatch_eq (h : isSourceOf w.key m = true) :
    sourceMatch (fun text => matchProduct env.toMappingEnv db w.key.metaAdsetId text w.key.metricDate) m =
      ⟨m.id, sourceResult env db m, !isTruthy m.data.productId && isTruthy (nameMatch env db m).productId⟩ := by
  obtain ⟨-, hid, hdate⟩ := isSourceOf_iff.mp h
  unfold sourceMatch sourceResult nameMatch
  rw [← hid, ← hdate]
  split
  · next ht => simp [ht]
  · next ht => simp [ht]

theorem map_sourceMatch_result (h : ∀ m ∈ rows, isSourceOf w.key m = true) :
    (rows.map (sourceMatch fun text => matchProduct env.toMappingEnv db w.key.metaAdsetId text
      w.key.metricDate)).map (·.result) = rows.map (sourceResult env db) := by
  rw [map_map]
  refine map_congr_left fun m hm => ?_
  show (sourceMatch _ m).result = _
  rw [sourceMatch_eq (h m hm)]

/-- The updates of the ad metrics, as one change of the table. -/
theorem updated_adMetrics (hc : Coherent db.store.adMetrics) {us : List SourceMatch}
    (hrows : rows.Perm (sourceRowsOf w.key db.store.adMetrics.rows))
    (hus : us = (rows.map (sourceMatch fun text => matchProduct env.toMappingEnv db w.key.metaAdsetId text
      w.key.metricDate)).filter fun row => row.shouldUpdate && isTruthy row.result.productId) :
    us.foldl (fun t u => recolumn (fun r =>
        if r.id = u.id then setAdAttribution u.result r.data else r.data) t) db.store.adMetrics =
      recolumn (fun m => if isSourceOf w.key m then rematchedAd env db m else m.data) db.store.adMetrics := by
  have hmem : ∀ m, m ∈ rows ↔ m ∈ db.store.adMetrics.rows ∧ isSourceOf w.key m = true := fun m => by
    rw [hrows.mem_iff, mem_sourceRowsOf]
  -- an update belongs to a row of the group that had no product and found one
  have hupdate : ∀ u, u ∈ us ↔ ∃ m ∈ rows, isTruthy m.data.productId = false ∧
      isTruthy (nameMatch env db m).productId = true ∧ u = ⟨m.id, nameMatch env db m, true⟩ := by
    intro u
    rw [hus, mem_filter, mem_map]
    constructor
    · rintro ⟨⟨m, hm, rfl⟩, hu⟩
      rw [sourceMatch_eq ((hmem m).mp hm).2] at hu ⊢
      rw [Bool.and_eq_true, Bool.and_eq_true, Bool.not_eq_true'] at hu
      refine ⟨m, hm, hu.1.1, hu.1.2, ?_⟩
      unfold sourceResult
      simp [hu.1.1, hu.1.2]
    · rintro ⟨m, hm, hp, hn, rfl⟩
      refine ⟨⟨m, hm, ?_⟩, by simp [hn]⟩
      rw [sourceMatch_eq ((hmem m).mp hm).2]
      unfold sourceResult
      simp [hp, hn]
  have hn : (us.map (·.id)).Nodup := by
    have hids : (rows.map (·.id)).Nodup :=
      (hrows.map _).nodup_iff.mpr (hc.nodup.sublist (filter_sublist.map _))
    have hmap : (rows.map (sourceMatch fun text => matchProduct env.toMappingEnv db w.key.metaAdsetId text
        w.key.metricDate)).map (·.id) = rows.map (·.id) := by
      rw [map_map]
      refine map_congr_left fun m hm => ?_
      show (sourceMatch _ m).id = m.id
      rw [sourceMatch_eq ((hmem m).mp hm).2]
    rw [hus]
    rw [← hmap] at hids
    exact hids.sublist (filter_sublist.map _)
  rw [foldl_recolumn_id SourceMatch.id (fun u => setAdAttribution u.result) hn]
  refine recolumn_congr fun r hr => ?_
  cases hf : us.find? fun u => u.id = r.id with
  | some u =>
    obtain ⟨m, hm, hp, hnm, rfl⟩ := (hupdate u).mp (mem_of_find?_eq_some hf)
    have hid : m.id = r.id := by simpa using find?_some hf
    obtain ⟨hmr, hsrc⟩ := (hmem m).mp hm
    have e := hc.eq_of_id hmr hr hid
    subst e
    unfold rematchedAd
    rw [if_pos hsrc, if_neg (by simp [hp]), if_pos hnm]
  | none =>
    dsimp only
    split
    · rename_i hsrc
      unfold rematchedAd
      split
      · rfl
      · rename_i hp
        split
        · rename_i hnm
          have hu := (hupdate ⟨r.id, nameMatch env db r, true⟩).mpr
            ⟨r, (hmem r).mpr ⟨hr, hsrc⟩, by simpa using hp, hnm, rfl⟩
          exact absurd (decide_eq_true rfl) (find?_eq_none.mp hf _ hu)
        · rfl
    · rfl

theorem find?_metric_id {κ δ : Type} {t : VersionTable κ δ} (hc : Coherent t) {r : Versioned κ δ}
    (hr : r ∈ t.rows) : t.rows.find? (fun s => s.id = r.id) = some r := by
  cases hf : t.rows.find? fun s => s.id = r.id with
  | none => exact absurd (decide_eq_true rfl) (find?_eq_none.mp hf r hr)
  | some s =>
    have hid : s.id = r.id := by simpa using find?_some hf
    rw [hc.eq_of_id (mem_of_find?_eq_some hf) hr hid]

/-- The adset metric with its new attribution. -/
theorem updated_adsetMetrics (hc : Coherent db.store.adsetMetrics) (hw : w ∈ db.store.adsetMetrics.rows)
    {result : ProductMatch} (hf : foundAttribution env db w = some result) :
    updateMetrics (fun row => row.id = w.id) (setAdsetAttribution result) db.store.adsetMetrics =
      recolumn (fun v => if v.id = w.id then rematchedAdset env db w else v.data)
        db.store.adsetMetrics := by
  rw [updateMetrics_eq]
  refine recolumn_congr fun v hv => ?_
  simp only [decide_eq_true_iff]
  by_cases hid : v.id = w.id
  · rw [if_pos hid, if_pos hid, hc.eq_of_id hv hw hid]
    unfold rematchedAdset
    rw [hf]
  · rw [if_neg hid, if_neg hid]

/-- Nothing is found and nothing changes. -/
theorem kept_adsetMetrics (hc : Coherent db.store.adsetMetrics) (hw : w ∈ db.store.adsetMetrics.rows)
    (hf : foundAttribution env db w = none) :
    recolumn (fun v => if v.id = w.id then rematchedAdset env db w else v.data) db.store.adsetMetrics =
      db.store.adsetMetrics := by
  refine recolumn_self fun v hv => ?_
  split
  · rename_i hid
    rw [hc.eq_of_id hv hw hid]
    unfold rematchedAdset
    rw [hf]
  · rfl

theorem kept_adMetrics (h : ∀ m ∈ sourceRowsOf w.key db.store.adMetrics.rows, rematchedAd env db m = m.data) :
    recolumn (fun m => if isSourceOf w.key m then rematchedAd env db m else m.data) db.store.adMetrics =
      db.store.adMetrics := by
  refine recolumn_self fun m hm => ?_
  split
  · next hsrc => exact h m (mem_sourceRowsOf.mpr ⟨hm, hsrc⟩)
  · rfl

theorem transacted_byName (hw : Coherent db.store.adsetMetrics) (hm : w ∈ db.store.adsetMetrics.rows)
    (hnil : sourceRowsOf w.key db.store.adMetrics.rows = []) :
    Transacted env db w (rematchByName env db w).1 := by
  have hads : recolumn (fun m => if isSourceOf w.key m then rematchedAd env db m else m.data)
      db.store.adMetrics = db.store.adMetrics :=
    kept_adMetrics fun m hm => by rw [hnil] at hm; cases hm
  unfold rematchByName
  dsimp only
  split
  · rename_i ht
    have hf : foundAttribution env db w = none := by
      unfold foundAttribution
      rw [if_pos hnil]
      rw [if_neg (by simpa using ht)]
    exact ⟨hads.symm, (kept_adsetMetrics hw hm hf).symm, fun h => ⟨h, Keeps.refl _⟩, rfl, rfl, rfl, rfl, rfl⟩
  · rename_i ht
    have hf : foundAttribution env db w = some (matchProduct env.toMappingEnv db w.key.metaAdsetId
        w.data.adsetName w.key.metricDate) := by
      unfold foundAttribution
      rw [if_pos hnil]
      rw [if_pos (by simpa using ht)]
    obtain ⟨adsets, e, hadsets⟩ := refreshCurrentAdsetProduct_spec w.key.metaAdsetId
      (updateAdsetMetric w.id (matchProduct env.toMappingEnv db w.key.metaAdsetId w.data.adsetName
        w.key.metricDate) db)
    rw [e]
    exact ⟨hads.symm, updated_adsetMetrics hw hm hf, hadsets, rfl, rfl, rfl, rfl, rfl⟩

section

variable (hads : Coherent db.store.adMetrics) (hc : Coherent db.store.adsetMetrics)
  (hw : w ∈ db.store.adsetMetrics.rows)
include hads hc hw

theorem transacted_bySource (hrows : rows.Perm (sourceRowsOf w.key db.store.adMetrics.rows))
    (hne : rows ≠ []) :
    Transacted env db w (rematchBySource env db w rows).1 := by
  have hsources : ∀ m ∈ rows, isSourceOf w.key m = true := fun m hm =>
    (mem_sourceRowsOf.mp (hrows.mem_iff.mp hm)).2
  have hsome : sourceRowsOf w.key db.store.adMetrics.rows ≠ [] := by
    intro e
    rw [e] at hrows
    exact hne (perm_nil.mp hrows)
  have hfound : foundAttribution env db w = aggregateSourceProductMatch (rows.map (sourceResult env db)) := by
    unfold foundAttribution
    rw [if_neg hsome]
    exact (aggregateSourceProductMatch_perm (hrows.map _)).symm
  unfold rematchBySource
  dsimp only
  rw [map_sourceMatch_result hsources, ← hfound]
  have hads' := updated_adMetrics hads hrows (rfl : _ = (rows.map (sourceMatch fun text =>
    matchProduct env.toMappingEnv db w.key.metaAdsetId text w.key.metricDate)).filter fun row =>
      row.shouldUpdate && isTruthy row.result.productId)
  split
  · rename_i h
    rw [Bool.and_eq_true, decide_eq_true_iff, Option.isNone_iff_eq_none] at h
    rw [length_eq_zero_iff.mp h.1] at hads'
    exact ⟨hads', (kept_adsetMetrics hc hw h.2).symm, fun h => ⟨h, Keeps.refl _⟩, rfl, rfl, rfl, rfl, rfl⟩
  · rw [foldl_updateAdMetric]
    cases hf : foundAttribution env db w with
    | none =>
      exact ⟨hads', (kept_adsetMetrics hc hw hf).symm, fun h => ⟨h, Keeps.refl _⟩, rfl, rfl, rfl, rfl, rfl⟩
    | some result =>
      dsimp only
      obtain ⟨adsets, e, hadsets⟩ := refreshCurrentAdsetProduct_spec w.key.metaAdsetId
        (updateAdsetMetric w.id result { db with
          store := { db.store with
            adMetrics := ((rows.map (sourceMatch fun text => matchProduct env.toMappingEnv db
              w.key.metaAdsetId text w.key.metricDate)).filter fun row =>
                row.shouldUpdate && isTruthy row.result.productId).foldl (fun t u => recolumn (fun r =>
                  if r.id = u.id then setAdAttribution u.result r.data else r.data) t)
                    db.store.adMetrics } })
      rw [e]
      exact ⟨hads', updated_adsetMetrics hc hw hf, hadsets, rfl, rfl, rfl, rfl, rfl⟩

/-- **The transaction of an adset metric without a product.** -/
theorem rematchAdsetMetric_transacted (hcur : w.current = true)
    (hp : isTruthy w.data.productId = false) : Transacted env db w (rematchAdsetMetric env db w.id).1 := by
  have hperm := env.adMetrics.perm (sourceRowsOf w.key db.store.adMetrics.rows)
  unfold rematchAdsetMetric
  rw [find?_metric_id hc hw]
  dsimp only
  rw [if_neg (by simp [hcur, hp])]
  split
  · rename_i hnil
    rw [length_eq_zero_iff.mp hnil] at hperm
    exact transacted_byName hc hw (nil_perm.mp hperm)
  · next hne => exact transacted_bySource hads hc hw hperm fun e => hne (by rw [e]; rfl)

end

/-- Any other transaction of the list changes nothing. -/
theorem rematchAdsetMetric_resolved {id : Nat}
    (h : ∀ w ∈ db.store.adsetMetrics.rows, w.id = id → w.current = false ∨ isTruthy w.data.productId = true) :
    (rematchAdsetMetric env db id).1 = db := by
  unfold rematchAdsetMetric
  split
  · rfl
  · rename_i w hf
    have hid : w.id = id := by simpa using find?_some hf
    rcases h w (mem_of_find?_eq_some hf) hid with hcur | hp
    · simp [hcur]
    · simp [hp]

end AdsManagement.Meta
