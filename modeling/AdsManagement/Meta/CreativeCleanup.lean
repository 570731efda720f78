/-
  File:      Meta/CreativeCleanup.lean
  Subject:   DELETING A BATCH WITH ITS CREATIVES: what the deletion of an upload removes of
             creatives, aliases and placements (uploads/upload-lifecycle.service.ts,
             uploads/upload-keys.ts).

  The cleanup knows the metrics of the deleted batch and the metrics that remain. A creative of a
  deleted metric that no remaining metric has goes with all its aliases and placements; of the
  others the aliases and placements that only deleted metrics name. Placements are compared through
  a text, so that two of them may be taken for one (`placementKeyToString_inj` says when not). The
  counts the cleanup reports are left out.

  * `cleanupCreativeDataAfterMetricDelete`, `World.deleteUpload` -- the deletion;
  * `Supported` -- every record is backed by a metric with its creative;
  * `Supported.cleanup` -- the cleanup leaves supported records behind;
  * `cleanup_keeps_creative`, `cleanup_keeps_alias`, `cleanup_keeps_placement` -- and removes
    nothing that a remaining metric supports.
-/
import AdsManagement.Lib.Separated
import AdsManagement.Meta.AdsetRefresh
import AdsManagement.Meta.Entities

namespace AdsManagement.Meta

open Common Lib Coupang List

/-! ## 1. The cleanup -/

/-- What the cleanup reads of an ad metric. -/
structure CreativeMetric where
  creativeId : Option Nat
  metaCampaignId : String
  metaAdsetId : String
  adNameSnapshot : String

structure CreativePlacementCleanupKey where
  creativeId : Option Nat
  metaCampaignId : String
  metaAdsetId : String
  originalAdName : String

def creativePlacementCleanupKey (metric : CreativeMetric) : CreativePlacementCleanupKey where
  creativeId := metric.creativeId
  metaCampaignId := metric.metaCampaignId
  metaAdsetId := metric.metaAdsetId
  originalAdName := metric.adNameSnapshot

def placementKeyToString (key : CreativePlacementCleanupKey) : String :=
  key.creativeId.elim "" idText ++ ":" ++ key.metaCampaignId ++ ":" ++ key.metaAdsetId ++ ":" ++
    key.originalAdName

def creativePlacementWhere (key : CreativePlacementCleanupKey) (placement : CreativePlacement) : Bool :=
  key.creativeId = some placement.creativeId && placement.metaCampaignId = key.metaCampaignId &&
    placement.metaAdsetId = key.metaAdsetId && placement.originalAdName = key.originalAdName

section Cleanup

variable (toUpperCase : String → String)

/-- The alias key of a metric, from its name parsed anew. -/
def aliasKeyOf (metric : CreativeMetric) : String :=
  creativeOriginalKey (CreativeNameParser.parse toUpperCase metric.adNameSnapshot).originalName

/-! `metrics` are those of the deleted batch, `stored` all that remain, with `isCurrent`. -/

variable (metrics : List CreativeMetric) (stored : List (CreativeMetric × Bool))

def deletedCreativeIds : List Nat := (metrics.filterMap (·.creativeId)).eraseDups

def remainingMetrics : List (CreativeMetric × Bool) :=
  stored.filter fun m => m.1.creativeId.any (deletedCreativeIds metrics).contains

def remainingCreativeIds : List Nat := (remainingMetrics metrics stored).filterMap (·.1.creativeId)

def currentCreativeIds : List Nat :=
  ((remainingMetrics metrics stored).filter (·.2)).filterMap (·.1.creativeId)

def orphanCreativeIds : List Nat :=
  (deletedCreativeIds metrics).filter fun id => !(remainingCreativeIds metrics stored).contains id

/-- The deleted metrics whose creative stays. -/
def survivingMetrics : List CreativeMetric :=
  metrics.filter fun m => m.creativeId.any fun id => !(orphanCreativeIds metrics stored).contains id

def obsoletePlacementKeys : List CreativePlacementCleanupKey :=
  let deletedPlacementKeys := OrderedMap.ofList
    (((survivingMetrics metrics stored).map creativePlacementCleanupKey).map fun key =>
      (placementKeyToString key, key))
  let remainingPlacementKeys := (remainingMetrics metrics stored).map fun m =>
    placementKeyToString (creativePlacementCleanupKey m.1)
  deletedPlacementKeys.values.filter fun key => !remainingPlacementKeys.contains (placementKeyToString key)

/-- The obsolete alias keys of each creative. -/
def obsoleteAliasKeys : List (Option Nat × List String) :=
  let deletedAliasKeysByCreative := groupBy CreativeMetric.creativeId (survivingMetrics metrics stored)
  let remainingAliasKeysByCreative :=
    groupBy CreativeMetric.creativeId ((remainingMetrics metrics stored).map (·.1))
  deletedAliasKeysByCreative.entries.map fun entry =>
    (entry.1, (entry.2.map (aliasKeyOf toUpperCase)).filter fun aliasKey =>
      !(((remainingAliasKeysByCreative.get entry.1).getD []).map (aliasKeyOf toUpperCase)).contains aliasKey)

def deactivatedCreativeIds : List Nat :=
  (deletedCreativeIds metrics).filter fun id => (remainingCreativeIds metrics stored).contains id &&
    !(currentCreativeIds metrics stored).contains id

/-- The ads of a creative that is removed lose their reference to it. -/
def cleanupCreativeDataAfterMetricDelete (entities : EntityTables) : EntityTables :=
  if (deletedCreativeIds metrics).length = 0 then entities
  else
    let orphan (id : Nat) : Bool := (orphanCreativeIds metrics stored).contains id
    { entities with
      creatives :=
        { entities.creatives with
          rows := (entities.creatives.rows.filter fun creative => !orphan creative.id).map fun creative =>
            { creative with
              isActive := creative.isActive && !(deactivatedCreativeIds metrics stored).contains creative.id } }
      ads :=
        { entities.ads with
          rows := entities.ads.rows.map fun ad => { ad with creativeId := ad.creativeId.filter (!orphan ·) } }
      aliases := entities.aliases.filter fun a => !orphan a.creativeId &&
        !(obsoleteAliasKeys toUpperCase metrics stored).any fun obsolete =>
          obsolete.1 = some a.creativeId && obsolete.2.contains a.originalKey
      placements := entities.placements.filter fun placement => !orphan placement.creativeId &&
        !(obsoletePlacementKeys metrics stored).any fun key => creativePlacementWhere key placement }

end Cleanup

/-! ## 2. Deletions -/

def creativeMetric (metricCreative : Nat → Option Nat) (m : MetaAdDailyMetric) : CreativeMetric where
  creativeId := metricCreative m.id
  metaCampaignId := m.key.metaCampaignId
  metaAdsetId := m.key.metaAdsetId
  adNameSnapshot := m.data.adNameSnapshot

/-- The ad metrics of a world as the cleanup sees them. -/
def World.metrics (world : World) : List CreativeMetric :=
  world.store.adMetrics.rows.map (creativeMetric world.entities.metricCreative)

def World.deleteUpload (toUpperCase : String → String) (retains : Bool) (id : Nat) (world : World) : World :=
  if world.store.batches.any (·.id = id) && retains then
    let store := Meta.deleteUpload retains id world.store
    { store
      entities := cleanupCreativeDataAfterMetricDelete toUpperCase
        ((world.store.adMetrics.rows.filter (·.batch = id)).map
          (creativeMetric world.entities.metricCreative))
        (store.adMetrics.rows.map fun m => (creativeMetric world.entities.metricCreative m, m.current))
        world.entities }
  else world

/-! ## 3. Keys as texts -/

variable {key : CreativePlacementCleanupKey}

theorem toList_placementKeyToString {creativeId : Nat} (h : key.creativeId = some creativeId) :
    (placementKeyToString key).toList = natText creativeId ++ ':' ::
      (key.metaCampaignId ++ ":" ++ key.metaAdsetId ++ ":" ++ key.originalAdName).toList := by
  unfold placementKeyToString
  rw [h]
  simp [idText]

/-- The text of a placement without its creative. -/
def placementText (key : CreativePlacementCleanupKey) : String :=
  key.metaCampaignId ++ ":" ++ key.metaAdsetId ++ ":" ++ key.originalAdName

/-- **A key is read back from its text up to the ids and the name behind the creative.** -/
theorem placementKeyToString_inj {a b : CreativePlacementCleanupKey} (ha : a.creativeId.isSome = true)
    (hb : b.creativeId.isSome = true) (h : placementKeyToString a = placementKeyToString b) :
    a.creativeId = b.creativeId ∧ placementText a = placementText b := by
  obtain ⟨i, hi⟩ := Option.isSome_iff_exists.mp ha
  obtain ⟨j, hj⟩ := Option.isSome_iff_exists.mp hb
  have hl := congrArg String.toList h
  rw [toList_placementKeyToString hi, toList_placementKeyToString hj] at hl
  obtain ⟨hid, htext⟩ := append_sep_inj (not_mem_natText rfl i) (not_mem_natText rfl j) hl
  refine ⟨?_, String.toList_inj.mp htext⟩
  rw [hi, hj, idText_inj (congrArg String.ofList hid)]

/-! ## 4. Support -/

/-- The creative of a metric. -/
def CreativeMetric.Has (m : CreativeMetric) (creativeId : Nat) : Prop := m.creativeId = some creativeId

/-- A metric backs an alias. -/
def CreativeMetric.Names (toUpperCase : String → String) (m : CreativeMetric) (a : CreativeAlias) : Prop :=
  m.creativeId = some a.creativeId ∧ aliasKeyOf toUpperCase m = a.originalKey

/-- A metric backs a placement. -/
def CreativeMetric.Places (m : CreativeMetric) (p : CreativePlacement) : Prop :=
  m.creativeId = some p.creativeId ∧ m.metaCampaignId = p.metaCampaignId ∧
    m.metaAdsetId = p.metaAdsetId ∧ m.adNameSnapshot = p.originalAdName

/-- Every creative, alias and placement is backed by one of the metrics. -/
structure Supported (toUpperCase : String → String) (metrics : Set CreativeMetric) (e : EntityTables) :
    Prop where
  creatives : ∀ c ∈ e.creatives.rows, ∃ m ∈ metrics, m.Has c.id
  aliases : ∀ a ∈ e.aliases, ∃ m ∈ metrics, m.Names toUpperCase a
  placements : ∀ p ∈ e.placements, ∃ m ∈ metrics, m.Places p

variable {p : CreativePlacement}

theorem creativePlacementWhere_iff :
    creativePlacementWhere key p = true ↔ key =
      ⟨some p.creativeId, p.metaCampaignId, p.metaAdsetId, p.originalAdName⟩ := by
  obtain ⟨i, c, s, n⟩ := key
  simp only [creativePlacementWhere, Bool.and_eq_true, decide_eq_true_eq,
    CreativePlacementCleanupKey.mk.injEq, and_assoc]
  exact and_congr_right fun _ => and_congr eq_comm (and_congr eq_comm eq_comm)

variable {m : CreativeMetric}

theorem places_iff :
    m.Places p ↔ creativePlacementCleanupKey m =
      ⟨some p.creativeId, p.metaCampaignId, p.metaAdsetId, p.originalAdName⟩ := by
  unfold CreativeMetric.Places creativePlacementCleanupKey
  rw [CreativePlacementCleanupKey.mk.injEq]

section Cleanup

variable {toUpperCase : String → String} {metrics : List CreativeMetric}
  {stored : List (CreativeMetric × Bool)} {e : EntityTables}

variable {id : Nat}

theorem mem_deletedCreativeIds : id ∈ deletedCreativeIds metrics ↔ ∃ m ∈ metrics, m.Has id := by
  unfold deletedCreativeIds CreativeMetric.Has
  rw [mem_eraseDups, mem_filterMap]

theorem mem_remainingMetrics {m : CreativeMetric × Bool} :
    m ∈ remainingMetrics metrics stored ↔ m ∈ stored ∧ ∃ id ∈ deletedCreativeIds metrics, m.1.Has id := by
  unfold remainingMetrics
  rw [mem_filter, Option.any_eq_true]
  simp only [contains_iff_mem]
  exact and_congr_right fun _ => exists_congr fun id => and_comm

theorem mem_remainingCreativeIds (hd : id ∈ deletedCreativeIds metrics) :
    id ∈ remainingCreativeIds metrics stored ↔ ∃ m ∈ stored, m.1.Has id := by
  unfold remainingCreativeIds
  rw [mem_filterMap]
  constructor
  · rintro ⟨m, hm, h⟩
    exact ⟨m, (mem_remainingMetrics.mp hm).1, h⟩
  · rintro ⟨m, hm, h⟩
    exact ⟨m, mem_remainingMetrics.mpr ⟨hm, id, hd, h⟩, h⟩

/-- **The orphans are the creatives of deleted metrics that no metric is left of.** -/
theorem mem_orphanCreativeIds :
    id ∈ orphanCreativeIds metrics stored ↔
      (∃ m ∈ metrics, m.Has id) ∧ ¬ ∃ m ∈ stored, m.1.Has id := by
  unfold orphanCreativeIds
  rw [mem_filter, Bool.not_eq_true', ← Bool.not_eq_true, contains_iff_mem]
  constructor
  · rintro ⟨hd, hr⟩
    exact ⟨mem_deletedCreativeIds.mp hd, fun h => hr ((mem_remainingCreativeIds hd).mpr h)⟩
  · rintro ⟨hd, hr⟩
    have hd' := mem_deletedCreativeIds.mpr hd
    exact ⟨hd', fun h => hr ((mem_remainingCreativeIds hd').mp h)⟩

theorem mem_survivingMetrics :
    m ∈ survivingMetrics metrics stored ↔
      m ∈ metrics ∧ ∃ id, m.Has id ∧ id ∉ orphanCreativeIds metrics stored := by
  unfold survivingMetrics CreativeMetric.Has
  rw [mem_filter, Option.any_eq_true]
  simp only [Bool.not_eq_true', contains_eq_mem, decide_eq_false_iff_not]

variable {a : CreativeAlias}

/-- The aliases that the cleanup names as obsolete. -/
theorem obsoleteAlias_iff :
    ((obsoleteAliasKeys toUpperCase metrics stored).any fun obsolete =>
      obsolete.1 = some a.creativeId && obsolete.2.contains a.originalKey) = true ↔
    (∃ m ∈ survivingMetrics metrics stored, m.Names toUpperCase a) ∧
      ¬ ∃ m ∈ remainingMetrics metrics stored, m.1.Names toUpperCase a := by
  unfold obsoleteAliasKeys
  simp only [any_map, any_eq_true, Function.comp_apply, Bool.and_eq_true, decide_eq_true_eq,
    mem_filter, Bool.not_eq_true', contains_eq_mem, decide_eq_false_iff_not, getD_get_groupBy,
    mem_map]
  constructor
  · rintro ⟨entry, hentry, hid, ⟨m, hm, hkey⟩, hno⟩
    have hgroup := (get_groupBy_eq_some (OrderedMap.get_eq_some_iff.mpr hentry)).1
    rw [hgroup, mem_filter, decide_eq_true_eq] at hm
    refine ⟨⟨m, hm.1, hm.2.trans hid, hkey⟩, ?_⟩
    rintro ⟨m', hm', hc, hkey'⟩
    exact hno ⟨m'.1, ⟨⟨m', hm', rfl⟩, hc.trans hid.symm⟩, hkey'⟩
  · rintro ⟨⟨m, hm, hc, hkey⟩, hno⟩
    have hmem : m ∈ (survivingMetrics metrics stored).filter fun m => decide (m.creativeId = some a.creativeId) :=
      mem_filter.mpr ⟨hm, decide_eq_true hc⟩
    have hget : (groupBy CreativeMetric.creativeId (survivingMetrics metrics stored)).get
        (some a.creativeId) = some ((survivingMetrics metrics stored).filter fun m =>
          decide (m.creativeId = some a.creativeId)) := by
      rw [get_groupBy, if_neg (ne_nil_of_mem hmem)]
    refine ⟨_, OrderedMap.get_eq_some_iff.mp hget, rfl, ⟨m, hmem, hkey⟩, ?_⟩
    rintro ⟨m', ⟨⟨x, hx, rfl⟩, hc'⟩, hkey'⟩
    exact hno ⟨x, hx, hc', hkey'⟩

/-- The text of a key tells the placements of these metrics apart. -/
def TextsApart (metrics : Set CreativeMetric) : Prop :=
  ∀ m ∈ metrics, ∀ m' ∈ metrics, placementKeyToString (creativePlacementCleanupKey m) =
    placementKeyToString (creativePlacementCleanupKey m') →
      creativePlacementCleanupKey m = creativePlacementCleanupKey m'

/-- An obsolete key belongs to no remaining metric. -/
theorem not_places_of_obsolete {m : CreativeMetric × Bool}
    (hkey : key ∈ obsoletePlacementKeys metrics stored) (hm : m ∈ remainingMetrics metrics stored) :
    creativePlacementCleanupKey m.1 ≠ key := by
  rintro rfl
  have hno := (mem_filter.mp hkey).2
  rw [Bool.not_eq_true', contains_eq_mem, decide_eq_false_iff_not] at hno
  exact hno (mem_map.mpr ⟨m, hm, rfl⟩)

theorem mem_of_mem_obsoletePlacementKeys (h : key ∈ obsoletePlacementKeys metrics stored) :
    ∃ m ∈ survivingMetrics metrics stored, creativePlacementCleanupKey m = key := by
  obtain ⟨text, hget⟩ := OrderedMap.mem_values_iff.mp (mem_filter.mp h).1
  rw [OrderedMap.get_ofList, Option.map_eq_some_iff] at hget
  obtain ⟨entry, hlast, rfl⟩ := hget
  obtain ⟨k, hk, rfl⟩ := mem_map.mp (mem_filter.mp (mem_of_getLast? hlast)).1
  exact mem_map.mp hk

/-- Where texts tell placements apart, the key of a deleted metric is obsolete or remains. -/
theorem obsolete_or_remains (htexts : TextsApart {m | m ∈ metrics ∨ ∃ x ∈ stored, x.1 = m})
    (hm : m ∈ survivingMetrics metrics stored) :
    creativePlacementCleanupKey m ∈ obsoletePlacementKeys metrics stored ∨
      ∃ x ∈ stored, creativePlacementCleanupKey x.1 = creativePlacementCleanupKey m := by
  have hm' : m ∈ metrics := (mem_survivingMetrics.mp hm).1
  by_cases hr : ∃ x ∈ remainingMetrics metrics stored,
      placementKeyToString (creativePlacementCleanupKey x.1) =
        placementKeyToString (creativePlacementCleanupKey m)
  · obtain ⟨x, hx, e⟩ := hr
    have hx' := (mem_remainingMetrics.mp hx).1
    exact .inr ⟨x, hx', htexts x.1 (.inr ⟨x, hx', rfl⟩) m (.inl hm') e⟩
  · left
    refine mem_filter.mpr ⟨?_, ?_⟩
    · refine (OrderedMap.mem_values_ofList ?_).mpr (mem_map_of_mem hm)
      intro a ha b hb e
      obtain ⟨x, hx, rfl⟩ := mem_map.mp ha
      obtain ⟨y, hy, rfl⟩ := mem_map.mp hb
      exact htexts x (.inl (mem_survivingMetrics.mp hx).1) y (.inl (mem_survivingMetrics.mp hy).1) e
    · rw [Bool.not_eq_true', contains_eq_mem, decide_eq_false_iff_not]
      intro hmem
      obtain ⟨x, hx, e⟩ := mem_map.mp hmem
      exact hr ⟨x, hx, e⟩

/-! ## 5. What the cleanup keeps -/

variable {x : CreativeMetric × Bool}

theorem not_orphan_of_has (hx : x ∈ stored) (h : x.1.Has id) :
    id ∉ orphanCreativeIds metrics stored :=
  fun ho => (mem_orphanCreativeIds.mp ho).2 ⟨x, hx, h⟩

/-- A metric that remains and has the creative of a deleted one is among those compared. -/
theorem mem_remaining_of_surviving (hm : m ∈ survivingMetrics metrics stored) (hid : m.Has id)
    (hx : x ∈ stored) (h : x.1.Has id) :
    x ∈ remainingMetrics metrics stored :=
  mem_remainingMetrics.mpr ⟨hx, id, mem_deletedCreativeIds.mpr ⟨m, (mem_survivingMetrics.mp hm).1, hid⟩, h⟩

theorem cleanup_of_nil (h : deletedCreativeIds metrics = []) :
    cleanupCreativeDataAfterMetricDelete toUpperCase metrics stored e = e := by
  unfold cleanupCreativeDataAfterMetricDelete
  rw [h]
  rfl

theorem mem_cleanup_creatives {c : Creative} (hne : deletedCreativeIds metrics ≠ []) :
    c ∈ (cleanupCreativeDataAfterMetricDelete toUpperCase metrics stored e).creatives.rows ↔
      ∃ b ∈ e.creatives.rows, b.id ∉ orphanCreativeIds metrics stored ∧
        c = { b with isActive := b.isActive &&
          !(deactivatedCreativeIds metrics stored).contains b.id } := by
  unfold cleanupCreativeDataAfterMetricDelete
  rw [if_neg (mt length_eq_zero_iff.mp hne)]
  simp only [mem_map, mem_filter, Bool.not_eq_true', contains_eq_mem, decide_eq_false_iff_not,
    and_assoc]
  exact exists_congr fun b => and_congr_right fun _ => and_congr_right fun _ => eq_comm

theorem mem_cleanup_aliases (hne : deletedCreativeIds metrics ≠ []) :
    a ∈ (cleanupCreativeDataAfterMetricDelete toUpperCase metrics stored e).aliases ↔
      a ∈ e.aliases ∧ a.creativeId ∉ orphanCreativeIds metrics stored ∧
        ¬ ((∃ m ∈ survivingMetrics metrics stored, m.Names toUpperCase a) ∧
          ¬ ∃ m ∈ remainingMetrics metrics stored, m.1.Names toUpperCase a) := by
  unfold cleanupCreativeDataAfterMetricDelete
  rw [if_neg (mt length_eq_zero_iff.mp hne), mem_filter, Bool.and_eq_true, Bool.not_eq_true',
    ← Bool.not_eq_true, contains_iff_mem, Bool.not_eq_true', ← Bool.not_eq_true, obsoleteAlias_iff]

theorem mem_cleanup_placements (hne : deletedCreativeIds metrics ≠ []) :
    p ∈ (cleanupCreativeDataAfterMetricDelete toUpperCase metrics stored e).placements ↔
      p ∈ e.placements ∧ p.creativeId ∉ orphanCreativeIds metrics stored ∧
        ¬ (⟨some p.creativeId, p.metaCampaignId, p.metaAdsetId, p.originalAdName⟩ :
          CreativePlacementCleanupKey) ∈ obsoletePlacementKeys metrics stored := by
  have hany : ((obsoletePlacementKeys metrics stored).any fun key => creativePlacementWhere key p) = true ↔
      (⟨some p.creativeId, p.metaCampaignId, p.metaAdsetId, p.originalAdName⟩ :
        CreativePlacementCleanupKey) ∈ obsoletePlacementKeys metrics stored := by
    rw [any_eq_true]
    constructor
    · rintro ⟨key, hkey, hw⟩
      rw [← creativePlacementWhere_iff.mp hw]
      exact hkey
    · exact fun hkey => ⟨_, hkey, creativePlacementWhere_iff.mpr rfl⟩
  unfold cleanupCreativeDataAfterMetricDelete
  rw [if_neg (mt length_eq_zero_iff.mp hne), mem_filter, Bool.and_eq_true, Bool.not_eq_true',
    ← Bool.not_eq_true, contains_iff_mem, Bool.not_eq_true', ← Bool.not_eq_true, hany]

/-- **A creative with a remaining metric stays.** -/
theorem cleanup_keeps_creative {c : Creative} (hc : c ∈ e.creatives.rows) (hx : x ∈ stored)
    (h : x.1.Has c.id) :
    ∃ c' ∈ (cleanupCreativeDataAfterMetricDelete toUpperCase metrics stored e).creatives.rows,
      c'.id = c.id ∧ c'.creativeKey = c.creativeKey := by
  by_cases hne : deletedCreativeIds metrics = []
  · rw [cleanup_of_nil hne]
    exact ⟨c, hc, rfl, rfl⟩
  · exact ⟨_, (mem_cleanup_creatives hne).mpr ⟨c, hc, not_orphan_of_has hx h, rfl⟩, rfl, rfl⟩

/-- **An alias with a remaining metric stays.** -/
theorem cleanup_keeps_alias (ha : a ∈ e.aliases) (hx : x ∈ stored) (h : x.1.Names toUpperCase a) :
    a ∈ (cleanupCreativeDataAfterMetricDelete toUpperCase metrics stored e).aliases := by
  by_cases hne : deletedCreativeIds metrics = []
  · rw [cleanup_of_nil hne]
    exact ha
  · refine (mem_cleanup_aliases hne).mpr ⟨ha, not_orphan_of_has hx h.1, ?_⟩
    rintro ⟨⟨m, hm, hname⟩, hno⟩
    exact hno ⟨x, mem_remaining_of_surviving hm hname.1 hx h.1, h⟩

/-- **A placement with a remaining metric stays.** -/
theorem cleanup_keeps_placement (hp : p ∈ e.placements) (hx : x ∈ stored) (h : x.1.Places p) :
    p ∈ (cleanupCreativeDataAfterMetricDelete toUpperCase metrics stored e).placements := by
  by_cases hne : deletedCreativeIds metrics = []
  · rw [cleanup_of_nil hne]
    exact hp
  · refine (mem_cleanup_placements hne).mpr ⟨hp, not_orphan_of_has hx h.1, fun hobs => ?_⟩
    -- an obsolete key comes from a deleted metric of this creative
    obtain ⟨m, hm, e⟩ : ∃ m ∈ survivingMetrics metrics stored, creativePlacementCleanupKey m =
        ⟨some p.creativeId, p.metaCampaignId, p.metaAdsetId, p.originalAdName⟩ :=
      mem_of_mem_obsoletePlacementKeys hobs
    have hx' := mem_remaining_of_surviving hm (places_iff.mpr e).1 hx h.1
    exact not_places_of_obsolete hobs hx' (places_iff.mp h)

/-- **What the cleanup leaves is supported by the remaining metrics**, if all records were supported
    and the texts of the placement keys told the metrics apart. -/
theorem Supported.cleanup (h : Supported toUpperCase {m | m ∈ metrics ∨ ∃ x ∈ stored, x.1 = m} e)
    (htexts : TextsApart {m | m ∈ metrics ∨ ∃ x ∈ stored, x.1 = m}) :
    Supported toUpperCase {m | ∃ x ∈ stored, x.1 = m}
      (cleanupCreativeDataAfterMetricDelete toUpperCase metrics stored e) := by
  by_cases hne : deletedCreativeIds metrics = []
  · -- no deleted metric has a creative, so none of them backs a record
    rw [cleanup_of_nil hne]
    have hno : ∀ m ∈ metrics, ∀ id, ¬ m.Has id := by
      intro m hm id hid
      have hmem := mem_deletedCreativeIds.mpr ⟨m, hm, hid⟩
      rw [hne] at hmem
      cases hmem
    refine ⟨fun c hc => ?_, fun a ha => ?_, fun p hp => ?_⟩
    · obtain ⟨m, hm | hm, hid⟩ := h.creatives c hc
      · exact absurd hid (hno m hm _)
      · exact ⟨m, hm, hid⟩
    · obtain ⟨m, hm | hm, hid⟩ := h.aliases a ha
      · exact absurd hid.1 (hno m hm _)
      · exact ⟨m, hm, hid⟩
    · obtain ⟨m, hm | hm, hid⟩ := h.placements p hp
      · exact absurd hid.1 (hno m hm _)
      · exact ⟨m, hm, hid⟩
  · refine ⟨fun c hc => ?_, fun a ha => ?_, fun p hp => ?_⟩
    · obtain ⟨b, hb, horphan, rfl⟩ := (mem_cleanup_creatives hne).mp hc
      obtain ⟨m, hm | hm, hid⟩ := h.creatives b hb
      · by_contra hno
        refine horphan (mem_orphanCreativeIds.mpr ⟨⟨m, hm, hid⟩, ?_⟩)
        rintro ⟨x, hx, hxid⟩
        exact hno ⟨x.1, ⟨x, hx, rfl⟩, hxid⟩
      · exact ⟨m, hm, hid⟩
    · obtain ⟨ha, horphan, hkept⟩ := (mem_cleanup_aliases hne).mp ha
      obtain ⟨m, hm | hm, hname⟩ := h.aliases a ha
      · have hm' := mem_survivingMetrics.mpr ⟨hm, a.creativeId, hname.1, horphan⟩
        by_contra hno
        refine hkept ⟨⟨m, hm', hname⟩, ?_⟩
        rintro ⟨x, hx, hxname⟩
        exact hno ⟨x.1, ⟨x, (mem_remainingMetrics.mp hx).1, rfl⟩, hxname⟩
      · exact ⟨m, hm, hname⟩
    · obtain ⟨hp, horphan, hkept⟩ := (mem_cleanup_placements hne).mp hp
      obtain ⟨m, hm | hm, hplace⟩ := h.placements p hp
      · have hm' := mem_survivingMetrics.mpr ⟨hm, p.creativeId, hplace.1, horphan⟩
        have hkey := places_iff.mp hplace
        rcases obsolete_or_remains htexts hm' with hobs | ⟨x, hx, e⟩
        · exact absurd (hkey ▸ hobs) hkept
        · exact ⟨x.1, ⟨x, hx, rfl⟩, places_iff.mpr (e.trans hkey)⟩
      · exact ⟨m, hm, hplace⟩

end Cleanup

end AdsManagement.Meta
