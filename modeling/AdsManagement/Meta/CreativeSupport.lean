/-
  File:      Meta/CreativeSupport.lean
  Subject:   CREATIVES STAND ON METRICS: creatives, aliases and placements over every run of imports
             and deletions.

  A row writes its records before the version of its metric is decided. A row that is then skipped
  leaves records that no metric of its batch will ever remove; they are supported only when another
  metric has the same campaign, adset and ad name. Records are compared for removal through a text
  that joins these three, so that the texts have to tell them apart. `ImportBacked` says both, of a
  file and the store it meets.

  * `RowsWritten`, `RowsWritten.turn` -- what the loop over the rows keeps;
  * `SupportInv` -- the invariant of worlds, `SupportInv.import`, `SupportInv.delete`;
  * `creative_records_supported` -- after every deletion of a run of backed imports all records are
    supported, nothing supported is gone, and without batches nothing is left;
  * `skipped_row_left_behind` -- a skipped row under another name leaves its creative for good.
-/
import AdsManagement.Meta.CreativeCleanup
import AdsManagement.Meta.ObservationWindows
import AdsManagement.Meta.UploadDeletion

namespace AdsManagement.Meta

open Common Lib Coupang List

/-! ## 1. Imports whose records are backed -/

/-- Where an ad stands: what a placement is about besides its creative. -/
structure Place where
  metaCampaignId : String
  metaAdsetId : String
  adName : String
deriving DecidableEq

def Place.text (p : Place) : String := p.metaCampaignId ++ ":" ++ p.metaAdsetId ++ ":" ++ p.adName

def placeOf (row : ParsedMetaAdDailyRow) : Place := ⟨row.metaCampaignId, row.metaAdsetExternalId, row.adName⟩

def metricPlace (m : MetaAdDailyMetric) : Place :=
  ⟨m.key.metaCampaignId, m.key.metaAdsetId, m.data.adNameSnapshot⟩

def CreativeMetric.place (m : CreativeMetric) : Place := ⟨m.metaCampaignId, m.metaAdsetId, m.adNameSnapshot⟩

/-- The metric of the row is not stored. -/
def IsSkipped (policy : ConflictPolicy) (store : MetaStore) (row : ParsedMetaAdDailyRow) : Prop :=
  policy = .SKIP ∧ HasCurrent (adMetricKey row) store.adMetrics.rows

instance (policy : ConflictPolicy) (store : MetaStore) (row : ParsedMetaAdDailyRow) :
    Decidable (IsSkipped policy store row) := inferInstanceAs (Decidable (_ ∧ _))

section Backed

variable (sha1 : Sha1) (toUpperCase : String → String)

/-- A stored metric or a row of the file stands there. -/
def IsPlace (file : MetaCsvFile) (store : MetaStore) (p : Place) : Prop :=
  (∃ m ∈ store.adMetrics.rows, metricPlace m = p) ∨ ∃ row ∈ fileRows sha1 file, placeOf row = p

/-- Every skipped row stands where a metric stands, stored before or by another row of the file, and
    no two places of one creative have one text. -/
structure ImportBacked (policy : ConflictPolicy) (file : MetaCsvFile) (store : MetaStore) : Prop where
  skipped : ∀ row ∈ fileRows sha1 file, IsSkipped policy store row →
    (∃ m ∈ store.adMetrics.rows, metricPlace m = placeOf row) ∨
      ∃ row' ∈ fileRows sha1 file, ¬ IsSkipped policy store row' ∧ placeOf row' = placeOf row
  texts : ∀ p q, IsPlace sha1 file store p → IsPlace sha1 file store q →
    (CreativeNameParser.parse toUpperCase p.adName).creativeKey =
      (CreativeNameParser.parse toUpperCase q.adName).creativeKey → p.text = q.text → p = q

end Backed

/-! ## 2. The records of a row -/

section Row

variable {toUpperCase : String → String} {ghost : Set CreativeMetric} {e : EntityTables}

/-- The metric of a row, stored or not. -/
def rowMetric (creativeId : Nat) (row : ParsedMetaAdDailyRow) : CreativeMetric where
  creativeId := some creativeId
  metaCampaignId := row.metaCampaignId
  metaAdsetId := row.metaAdsetExternalId
  adNameSnapshot := row.adName

variable (toUpperCase) in
/-- The creative of a metric is in the table, under the key of its name. -/
def Known (metrics : Set CreativeMetric) (t : Table Creative) : Prop :=
  ∀ m ∈ metrics, ∃ id, m.Has id ∧
    IsCreative t id (CreativeNameParser.parse toUpperCase m.adNameSnapshot).creativeKey

variable {parsedName : CreativeNameParts} {creativeId : Nat}

theorem mem_upsertCreativeAlias {seenOn : Int} {aliases : List CreativeAlias} {a : CreativeAlias}
    (ha : a ∈ upsertCreativeAlias creativeId parsedName seenOn aliases) :
    (∃ b ∈ aliases, a.creativeId = b.creativeId ∧ a.originalKey = b.originalKey) ∨
      a.creativeId = creativeId ∧ a.originalKey = creativeOriginalKey parsedName.originalName := by
  have hidentity : (∃ b ∈ aliases, a.identity = b.identity) ∨
      a.identity = (creativeId, creativeOriginalKey parsedName.originalName) := by
    refine key_of_mem_upsertBy CreativeAlias.identity (fun r => ?_) ha
    rfl
  rcases hidentity with ⟨b, hb, hid⟩ | hid
  · exact .inl ⟨b, hb, Prod.mk.inj hid⟩
  · exact .inr (Prod.mk.inj hid)

theorem mem_upsertCreativePlacement {row : ParsedMetaAdDailyRow}
    {campaignRefId metaAdsetRefId metaAdRefId : Nat} {placements : List CreativePlacement}
    {p : CreativePlacement}
    (hp : p ∈ upsertCreativePlacement creativeId row parsedName campaignRefId metaAdsetRefId metaAdRefId
      placements) :
    (∃ b ∈ placements, p.identity = b.identity) ∨
      p.identity = (creativeId, row.metaCampaignId, row.metaAdsetExternalId, row.adName) := by
  refine key_of_mem_upsertBy CreativePlacement.identity (fun r => ?_) hp
  unfold seenPlacement
  split
  · rfl
  · rfl

/-- **The records of a row are supported by its metric.** -/
theorem Supported.writeEntities (h : Supported toUpperCase ghost e) (hc : CreativesInv e.creatives)
    (row : ParsedMetaAdDailyRow) (metaAdsetId : Nat) :
    Supported toUpperCase (insert (rowMetric (writeEntities toUpperCase row metaAdsetId e).2 row) ghost)
      (writeEntities toUpperCase row metaAdsetId e).1 := by
  obtain ⟨hinv, -, hnew, hold⟩ := hc.upsert toUpperCase row
  refine ⟨fun c hcm => ?_, fun a ha => ?_, fun p hp => ?_⟩
  · rcases hold c.id c.creativeKey ⟨c, hcm, rfl, rfl⟩ with ⟨b, hb, hid, -⟩ | hkey
    · obtain ⟨m, hm, hhas⟩ := h.creatives b hb
      exact ⟨m, .inr hm, hid ▸ hhas⟩
    · refine ⟨_, .inl rfl, ?_⟩
      have hid : (Meta.writeEntities toUpperCase row metaAdsetId e).2 = c.id :=
        hinv.eq_id (hkey ▸ hnew) ⟨c, hcm, rfl, rfl⟩
      exact congrArg some hid
  · rcases mem_upsertCreativeAlias ha with ⟨b, hb, hid, hkey⟩ | ⟨hid, hkey⟩
    · obtain ⟨m, hm, hname⟩ := h.aliases b hb
      exact ⟨m, .inr hm, hid ▸ hname.1, hkey ▸ hname.2⟩
    · exact ⟨_, .inl rfl, congrArg some hid.symm, hkey.symm⟩
  · have hidentity := mem_upsertCreativePlacement hp
    unfold CreativePlacement.identity at hidentity
    simp only [Prod.mk.injEq] at hidentity
    rcases hidentity with ⟨b, hb, h1, h2, h3, h4⟩ | ⟨h1, h2, h3, h4⟩
    · obtain ⟨m, hm, hplace⟩ := h.placements b hb
      exact ⟨m, .inr hm, h1 ▸ hplace.1, h2 ▸ hplace.2.1, h3 ▸ hplace.2.2.1, h4 ▸ hplace.2.2.2⟩
    · exact ⟨_, .inl rfl, congrArg some h1.symm, h2.symm, h3.symm, h4.symm⟩

/-- The creative of a row is known afterwards, and those of before still are. -/
theorem Known.writeEntities (h : Known toUpperCase ghost e.creatives) (hc : CreativesInv e.creatives)
    (row : ParsedMetaAdDailyRow) (metaAdsetId : Nat) :
    Known toUpperCase (insert (rowMetric (writeEntities toUpperCase row metaAdsetId e).2 row) ghost)
      (writeEntities toUpperCase row metaAdsetId e).1.creatives := by
  obtain ⟨-, hkeep, hnew, -⟩ := hc.upsert toUpperCase row
  rintro m (rfl | hm)
  · exact ⟨_, rfl, hnew⟩
  · obtain ⟨id, hhas, hid⟩ := h m hm
    exact ⟨id, hhas, hkeep _ _ hid⟩

/-- Known metrics at one place have one creative. -/
theorem Known.eq_of_place (h : Known toUpperCase ghost e.creatives) (hc : CreativesInv e.creatives)
    {m m' : CreativeMetric} (hm : m ∈ ghost) (hm' : m' ∈ ghost) (hp : m.place = m'.place) : m = m' := by
  obtain ⟨id, hid, hk⟩ := h m hm
  obtain ⟨id', hid', hk'⟩ := h m' hm'
  obtain ⟨c', a', s', n'⟩ := m'
  obtain ⟨rfl, rfl, rfl⟩ := hp
  have he : id = id' := hc.eq_id hk hk'
  rw [CreativeMetric.mk.injEq]
  exact ⟨hid.trans (he ▸ hid'.symm), rfl, rfl, rfl⟩

end Row

/-! ## 3. The loop over the rows -/

section Loop

variable {toLowerCase toUpperCase : String → String} {env : ImportEnv} {policy : ConflictPolicy}
  {batchId : Nat}

/-- The ad metrics of a state of the loop as the cleanup sees them. -/
def loopMetrics (state : AdLoop × EntityTables) : List CreativeMetric :=
  state.1.adMetrics.rows.map (creativeMetric state.2.metricCreative)

theorem flagFree_creativeMetric (metricCreative : Nat → Option Nat) :
    FlagFree (creativeMetric metricCreative) := fun _ _ => rfl

theorem importMetric_iff {policy : ConflictPolicy} {hasCurrentMetric : Bool} :
    (resolve policy hasCurrentMetric).importMetric = false ↔ policy = .SKIP ∧ hasCurrentMetric = true := by
  cases hasCurrentMetric with
  | false => simp [resolve]
  | true => cases policy <;> simp [resolve]

variable {state : AdLoop × EntityTables}

/-- A row that is skipped leaves the metrics alone; any other adds its own. -/
theorem loopMetrics_turn (hads : Coherent state.1.adMetrics) {n : Nat} {row : ParsedMetaAdDailyRow} :
    loopMetrics (entityTurn toLowerCase toUpperCase env policy batchId state (n, ⟨some row, []⟩)) =
      if policy = .SKIP ∧ HasCurrent (adMetricKey row) state.1.adMetrics.rows then loopMetrics state
      else loopMetrics state ++ [rowMetric (writeEntities toUpperCase row
        (matchAdRow toLowerCase env row state.1.adsets).metaAdsetId state.2).2 row] := by
  have hturn : (adTurn toLowerCase env policy batchId state.1 (n, ⟨some row, []⟩)).adMetrics =
      (importVersion policy batchId env.now (adMetricKey row)
        (adDailyMetricCreateData row (matchAdRow toLowerCase env row state.1.adsets).metaAdsetId
          (matchAdRow toLowerCase env row state.1.adsets).productMatch
          (matchAdRow toLowerCase env row state.1.adsets).stageMatch) state.1.adMetrics).table := rfl
  unfold loopMetrics entityTurn entityRow
  rw [hturn]
  unfold importVersion
  dsimp only
  by_cases hskip : policy = .SKIP ∧ HasCurrent (adMetricKey row) state.1.adMetrics.rows
  · have hno : (resolve policy (currentRow (adMetricKey row) state.1.adMetrics.rows).isSome).importMetric =
        false := importMetric_iff.mpr ⟨hskip.1, currentRow_isSome.mpr hskip.2⟩
    rw [if_pos hskip, hno]
    rfl
  · have hyes : (resolve policy
        (currentRow (adMetricKey row) state.1.adMetrics.rows).isSome).importMetric = true := by
      cases hr : (resolve policy (currentRow (adMetricKey row) state.1.adMetrics.rows).isSome).importMetric with
      | true => rfl
      | false =>
        obtain ⟨hp, hcur⟩ := importMetric_iff.mp hr
        exact absurd ⟨hp, currentRow_isSome.mp hcur⟩ hskip
    rw [if_neg hskip, hyes, if_pos rfl, if_neg (by simp),
      (flagFree_creativeMetric _).map_addVersion]
    congr 1
    · -- the ids of stored metrics are used up
      refine map_congr_left fun m hm => ?_
      have hlt := hads.fresh m hm
      unfold creativeMetric
      dsimp only
      rw [if_neg (Nat.ne_of_lt hlt)]
    · unfold creativeMetric newVersion rowMetric
      simp [adMetricKey, adDailyMetricCreateData]

variable (toUpperCase policy) in
/-- What the loop has made of the rows `seen`. `ghost` are the metrics the records stand on: those
    that are stored, and those of the skipped rows. -/
structure RowsWritten (store : MetaStore) (metrics : List CreativeMetric)
    (seen : List ParsedMetaAdDailyRow) (ghost : Set CreativeMetric) (state : AdLoop × EntityTables) :
    Prop where
  ads : Coherent state.1.adMetrics
  current : ∀ key, key ∉ seen.map adMetricKey →
    (HasCurrent key state.1.adMetrics.rows ↔ HasCurrent key store.adMetrics.rows)
  creatives : CreativesInv state.2.creatives
  supported : Supported toUpperCase ghost state.2
  known : Known toUpperCase ghost state.2.creatives
  stored : ∀ m ∈ loopMetrics state, m ∈ ghost
  old : ∀ m ∈ metrics, m ∈ loopMetrics state
  taken : ∀ row ∈ seen, ¬ IsSkipped policy store row → ∃ m ∈ loopMetrics state, m.place = placeOf row
  origin : ∀ m ∈ ghost, m ∈ loopMetrics state ∨
    ∃ row ∈ seen, IsSkipped policy store row ∧ m.place = placeOf row
  places : ∀ m ∈ ghost, m ∈ metrics ∨ ∃ row ∈ seen, m.place = placeOf row

theorem adTurn_adMetrics (state : AdLoop) (n : Nat) (row : ParsedMetaAdDailyRow) :
    (adTurn toLowerCase env policy batchId state (n, ⟨some row, []⟩)).adMetrics =
      offer (policy = .SKIP) batchId env.now (adMetricKey row)
        (adDailyMetricCreateData row (matchAdRow toLowerCase env row state.adsets).metaAdsetId
          (matchAdRow toLowerCase env row state.adsets).productMatch
          (matchAdRow toLowerCase env row state.adsets).stageMatch) state.adMetrics :=
  importVersion_table ..

theorem entityRow_eq (state : AdLoop) (row : ParsedMetaAdDailyRow) (e : EntityTables) :
    ∃ metricCreative, entityRow toLowerCase toUpperCase env policy state ⟨some row, []⟩ e =
      { (writeEntities toUpperCase row (matchAdRow toLowerCase env row state.adsets).metaAdsetId e).1 with
        metricCreative } := by
  unfold entityRow
  dsimp only
  split
  · exact ⟨_, rfl⟩
  · exact ⟨_, rfl⟩

variable {seen : List ParsedMetaAdDailyRow} {metrics : List CreativeMetric} {ghost : Set CreativeMetric}
  {store : MetaStore}

/-- **One row.** -/
theorem RowsWritten.turn (h : RowsWritten toUpperCase policy store metrics seen ghost state) (n : Nat)
    (row : ParsedMetaAdDailyRow) (hnew : adMetricKey row ∉ seen.map adMetricKey) :
    ∃ ghost', RowsWritten toUpperCase policy store metrics (seen ++ [row]) ghost'
      (entityTurn toLowerCase toUpperCase env policy batchId state (n, ⟨some row, []⟩)) := by
  let metaAdsetId := (matchAdRow toLowerCase env row state.1.adsets).metaAdsetId
  let written := writeEntities toUpperCase row metaAdsetId state.2
  have hskip : (policy = .SKIP ∧ HasCurrent (adMetricKey row) state.1.adMetrics.rows) ↔
      IsSkipped policy store row := and_congr_right fun _ => h.current _ hnew
  have hmetrics : loopMetrics (entityTurn toLowerCase toUpperCase env policy batchId state (n, ⟨some row, []⟩)) =
      if IsSkipped policy store row then loopMetrics state
      else loopMetrics state ++ [rowMetric written.2 row] := by
    rw [loopMetrics_turn h.ads]
    simp only [hskip]
    rfl
  -- the metrics of the state before are still there
  have hkeep : ∀ m ∈ loopMetrics state, m ∈ loopMetrics
      (entityTurn toLowerCase toUpperCase env policy batchId state (n, ⟨some row, []⟩)) := by
    intro m hm
    rw [hmetrics]
    split
    · exact hm
    · exact mem_append_left _ hm
  have hlast : ∀ x, x ∈ seen ++ [row] ↔ x ∈ seen ∨ x = row := by
    intro x
    rw [mem_append, mem_singleton]
  obtain ⟨metricCreative, he⟩ : ∃ metricCreative,
      (entityTurn toLowerCase toUpperCase env policy batchId state (n, ⟨some row, []⟩)).2 =
        { written.1 with metricCreative } := entityRow_eq state.1 row state.2
  have hsupported := h.supported.writeEntities h.creatives row metaAdsetId
  refine ⟨insert (rowMetric written.2 row) ghost, ?_, ?_, ?_, ?_, ?_, ?_, ?_, ?_, ?_, ?_⟩
  · show Coherent (adTurn toLowerCase env policy batchId state.1 (n, ⟨some row, []⟩)).adMetrics
    rw [adTurn_adMetrics]
    exact h.ads.offer _ _ _ _ _
  · intro key hkey
    rw [map_append, mem_append, not_or] at hkey
    have hne : key ≠ adMetricKey row := fun e => hkey.2 (mem_singleton.mpr e)
    show HasCurrent key (adTurn toLowerCase env policy batchId state.1 (n, ⟨some row, []⟩)).adMetrics.rows ↔ _
    rw [adTurn_adMetrics, hasCurrent_offer h.ads hne]
    exact h.current key hkey.1
  · rw [he]
    exact (h.creatives.upsert toUpperCase row).1
  · rw [he]
    exact ⟨hsupported.creatives, hsupported.aliases, hsupported.placements⟩
  · rw [he]
    exact h.known.writeEntities h.creatives row metaAdsetId
  · intro m hm
    rw [hmetrics] at hm
    split at hm
    · exact .inr (h.stored m hm)
    · rcases mem_append.mp hm with hm | hm
      · exact .inr (h.stored m hm)
      · exact .inl (mem_singleton.mp hm)
  · intro m hm
    exact hkeep m (h.old m hm)
  · intro x hx hns
    rcases (hlast x).mp hx with hx | rfl
    · obtain ⟨m, hm, hp⟩ := h.taken x hx hns
      exact ⟨m, hkeep m hm, hp⟩
    · refine ⟨rowMetric written.2 x, ?_, rfl⟩
      rw [hmetrics, if_neg hns]
      exact mem_append_right _ (mem_singleton.mpr rfl)
  · rintro m (rfl | hm)
    · by_cases hs : IsSkipped policy store row
      · exact .inr ⟨row, (hlast row).mpr (.inr rfl), hs, rfl⟩
      · left
        rw [hmetrics, if_neg hs]
        exact mem_append_right _ (mem_singleton.mpr rfl)
    · rcases h.origin m hm with hm | ⟨x, hx, hrest⟩
      · exact .inl (hkeep m hm)
      · exact .inr ⟨x, (hlast x).mpr (.inl hx), hrest⟩
  · rintro m (rfl | hm)
    · exact .inr ⟨row, (hlast row).mpr (.inr rfl), rfl⟩
    · rcases h.places m hm with hm | ⟨x, hx, hrest⟩
      · exact .inl hm
      · exact .inr ⟨x, (hlast x).mpr (.inl hx), hrest⟩

variable (toLowerCase env batchId) in
/-- **All rows of a file without an invalid one.** -/
theorem RowsWritten.foldl (entries : List (Nat × ParsedAdDaily))
    (hvalid : ∀ entry ∈ entries, entry.2.issues = [])
    (hnodup : ((seen ++ validRows (entries.map (·.2))).map adMetricKey).Nodup)
    (h : RowsWritten toUpperCase policy store metrics seen ghost state) :
    ∃ ghost', RowsWritten toUpperCase policy store metrics (seen ++ validRows (entries.map (·.2))) ghost'
      (entries.foldl (entityTurn toLowerCase toUpperCase env policy batchId) state) := by
  induction entries generalizing seen ghost state with
  | nil =>
    refine ⟨ghost, ?_⟩
    show RowsWritten toUpperCase policy store metrics (seen ++ []) ghost state
    rw [append_nil]
    exact h
  | cons entry rest ih =>
    obtain ⟨n, ⟨parsedRow, issues⟩⟩ := entry
    obtain rfl : issues = [] := hvalid _ mem_cons_self
    have hrest : ∀ entry ∈ rest, entry.2.issues = [] :=
      fun entry he => hvalid entry (mem_cons_of_mem _ he)
    cases parsedRow with
    | none =>
      exact ih hrest hnodup ⟨h.ads, h.current, h.creatives, h.supported, h.known, h.stored, h.old,
        h.taken, h.origin, h.places⟩
    | some row =>
      have hrows : validRows (((n, (⟨some row, []⟩ : ParsedAdDaily)) :: rest).map (·.2)) =
          row :: validRows (rest.map (·.2)) := rfl
      rw [hrows, append_cons] at hnodup ⊢
      have hnew : adMetricKey row ∉ seen.map adMetricKey := by
        rw [map_append, map_append, append_assoc, nodup_append] at hnodup
        intro hm
        exact hnodup.2.2 _ hm _ (mem_append_left _ (mem_singleton.mpr rfl)) rfl
      obtain ⟨ghost', h'⟩ := h.turn n row hnew
      exact ih hrest hnodup h'

/-- **At the end of a backed import the records stand on stored metrics alone.** -/
theorem RowsWritten.ghost_stored (h : RowsWritten toUpperCase policy store metrics seen ghost state)
    (hbacked : ∀ row ∈ seen, IsSkipped policy store row →
      (∃ m ∈ metrics, m.place = placeOf row) ∨
        ∃ row' ∈ seen, ¬ IsSkipped policy store row' ∧ placeOf row' = placeOf row) :
    ghost = {m | m ∈ loopMetrics state} := by
  refine Set.Subset.antisymm (fun m hm => ?_) h.stored
  rcases h.origin m hm with hm' | ⟨row, hrow, hs, hp⟩
  · exact hm'
  · obtain ⟨m', hm', hp'⟩ : ∃ m' ∈ loopMetrics state, m'.place = placeOf row := by
      rcases hbacked row hrow hs with ⟨m', hm', hp'⟩ | ⟨row', hrow', hns, e⟩
      · exact ⟨m', h.old m' hm', hp'⟩
      · obtain ⟨m', hm', hp'⟩ := h.taken row' hrow' hns
        exact ⟨m', hm', hp'.trans e⟩
    have he : m = m' := h.known.eq_of_place h.creatives hm (h.stored m' hm') (hp.trans hp'.symm)
    rw [he]
    exact hm'

end Loop

/-! ## 4. Batches stay -/

section Batches

variable {sha1 : Sha1} {toLowerCase : String → String} {env : ImportEnv} {policy : ConflictPolicy}
  {file : MetaCsvFile} {store : MetaStore}

def batchIds (store : MetaStore) : List Nat := store.batches.map (·.id)

theorem map_id_updateBatch {id : Nat} {change : UploadBatch → UploadBatch} (hc : ∀ b, (change b).id = b.id)
    (batches : List UploadBatch) : (updateBatch id change batches).map (·.id) = batches.map (·.id) := by
  unfold updateBatch
  rw [map_map]
  refine map_congr_left fun b _ => ?_
  show (if b.id = id then change b else b).id = b.id
  split
  · exact hc b
  · rfl

theorem batchIds_failBatch (store : MetaStore) (batchId errorCount : Nat) (errors : List UploadRowError) :
    batchIds (failBatch store batchId errorCount errors) = batchIds store :=
  map_id_updateBatch (fun b => by rfl) _

theorem batchIds_storedBatch (store : MetaStore) (batchId : Nat) :
    batchIds (storedBatch store batchId) = batchIds store := map_id_updateBatch (fun b => by rfl) _

theorem batchIds_reserveBatch (env : ImportEnv) (level : UploadLevel) (policy : ConflictPolicy)
    (file : MetaCsvFile) (store : MetaStore) :
    batchIds store <+: batchIds (reserveBatch env level policy file store).1 := by
  have hcreate : ∀ b : UploadBatch, ∀ n, batchIds store <+:
      batchIds { store with batches := store.batches ++ [b], nextBatchId := n } := by
    intro b n
    unfold batchIds
    rw [map_append]
    exact prefix_append _ _
  unfold reserveBatch
  split
  · exact hcreate _ _
  · split
    · split
      · exact ⟨[], (append_nil _).trans (map_id_updateBatch (fun b => by rfl) store.batches).symm⟩
      · exact prefix_refl _
    · exact hcreate _ _

theorem batchIds_importAdRows (batchId : Nat) (stored : MetaStore) :
    batchIds (importAdRows sha1 toLowerCase env policy batchId file stored).1 = batchIds stored :=
  map_id_updateBatch (fun b => by rfl) _

theorem batchIds_importAdsetRows (batchId : Nat) (stored : MetaStore) :
    batchIds (importAdsetRows toLowerCase env policy batchId file stored).1 = batchIds stored :=
  map_id_updateBatch (fun b => by rfl) _

/-- **No import removes a batch.** -/
theorem batchIds_importCsv {level : UploadLevel} {required duplicateKeys : List String} {hasValidRow : Bool}
    {importRows : Nat → MetaStore → MetaStore × ImportOutcome}
    (hrows : ∀ batchId stored, batchIds (importRows batchId stored).1 = batchIds stored) :
    batchIds store <+:
      batchIds (importCsv env level policy file required duplicateKeys hasValidRow importRows store).1 := by
  have hreserve := batchIds_reserveBatch env level policy file store
  unfold importCsv
  dsimp only
  repeat' split
  · exact prefix_refl _
  all_goals
    simp only [hrows, batchIds_failBatch, batchIds_storedBatch]
    exact hreserve

end Batches

/-! ## 5. Worlds -/

section Worlds

variable {sha1 : Sha1} {toLowerCase toUpperCase : String → String} {world : World}

variable (toUpperCase) in
structure SupportInv (world : World) : Prop where
  store : StoreInv world.store
  creatives : CreativesInv world.entities.creatives
  supported : Supported toUpperCase {m | m ∈ world.metrics} world.entities
  known : Known toUpperCase {m | m ∈ world.metrics} world.entities.creatives
  texts : TextsApart {m | m ∈ world.metrics}
  batches : ∀ m ∈ world.store.adMetrics.rows, m.batch ∈ batchIds world.store

theorem SupportInv.empty : SupportInv toUpperCase emptyWorld where
  store := StoreInv.empty
  creatives := KeyedIds.nil
  supported := ⟨fun _ h => absurd h not_mem_nil, fun _ h => absurd h not_mem_nil,
    fun _ h => absurd h not_mem_nil⟩
  known := fun _ h => absurd h not_mem_nil
  texts := fun _ h => absurd h not_mem_nil
  batches := fun _ h => absurd h not_mem_nil

/-- An import that changes neither ad metrics nor records. -/
theorem SupportInv.same (h : SupportInv toUpperCase world) {store : MetaStore} (hstore : StoreInv store)
    (hsame : store.adMetrics = world.store.adMetrics) (hids : batchIds world.store <+: batchIds store) :
    SupportInv toUpperCase ⟨store, world.entities⟩ := by
  have hmetrics : World.metrics ⟨store, world.entities⟩ = world.metrics := by
    unfold World.metrics
    rw [hsame]
  refine ⟨hstore, h.creatives, ?_, ?_, ?_, ?_⟩
  · rw [hmetrics]
    exact h.supported
  · rw [hmetrics]
    exact h.known
  · rw [hmetrics]
    exact h.texts
  · intro m hm
    rw [hsame] at hm
    exact hids.subset (h.batches m hm)

section Import

variable {env : ImportEnv} {policy : ConflictPolicy} {batchId : Nat} {file : MetaCsvFile}

variable (sha1 toLowerCase toUpperCase env policy batchId file) in
/-- The loop over the rows of a file, with the records. -/
def entityLoop (stored : MetaStore) (entities : EntityTables) : AdLoop × EntityTables :=
  (numberedRows (parsedAdRows sha1 file)).foldl (entityTurn toLowerCase toUpperCase env policy batchId)
    (adLoopStart batchId file stored, entities)

/-- Hiding metrics does not change what the cleanup sees of them. -/
theorem metrics_importAdRows (stored : MetaStore) (entities : EntityTables) :
    World.metrics ⟨(importAdRows sha1 toLowerCase env policy batchId file stored).1,
        (entityLoop sha1 toLowerCase toUpperCase env policy batchId file stored entities).2⟩ =
      loopMetrics (entityLoop sha1 toLowerCase toUpperCase env policy batchId file stored entities) := by
  have hloop : (entityLoop sha1 toLowerCase toUpperCase env policy batchId file stored entities).1 =
      adLoop sha1 toLowerCase env policy batchId file stored := fst_foldl_entityTurn ..
  unfold World.metrics loopMetrics
  rw [hloop]
  unfold importAdRows
  dsimp only
  split
  · unfold deactivateMissingAdSnapshotMetrics
    split
    · rfl
    · exact (flagFree_creativeMetric _).map_hide _ _
  · rfl

theorem mem_metrics_place {p : Place} :
    (∃ m ∈ world.store.adMetrics.rows, metricPlace m = p) ↔ ∃ m ∈ world.metrics, m.place = p := by
  constructor
  · rintro ⟨m, hm, rfl⟩
    exact ⟨_, mem_map_of_mem hm, rfl⟩
  · rintro ⟨_, hx, rfl⟩
    obtain ⟨m, hm, rfl⟩ := mem_map.mp hx
    exact ⟨m, hm, rfl⟩

variable {stored : MetaStore}

/-- Before the first row the records stand on the metrics of the world. -/
theorem SupportInv.rowsWritten (h : SupportInv toUpperCase world) (policy : ConflictPolicy)
    (hres : Reserved world.store stored batchId) :
    RowsWritten toUpperCase policy world.store world.metrics [] {m | m ∈ world.metrics}
      (adLoopStart batchId file stored, world.entities) := by
  have hstart : loopMetrics (adLoopStart batchId file stored, world.entities) = world.metrics := by
    show stored.adMetrics.rows.map _ = world.store.adMetrics.rows.map _
    rw [hres.adMetrics]
  have hads : (adLoopStart batchId file stored).adMetrics = world.store.adMetrics := hres.adMetrics
  refine ⟨hads ▸ h.store.ads, fun key _ => by rw [hads], h.creatives, h.supported, h.known, ?_, ?_, ?_, ?_,
    ?_⟩
  · intro m hm
    rw [hstart] at hm
    exact hm
  · intro m hm
    rw [hstart]
    exact hm
  · exact fun row hrow => absurd hrow not_mem_nil
  · intro m hm
    rw [hstart]
    exact .inl hm
  · exact fun m hm => .inl hm

/-- After the last row they stand on those and on the metrics of the rows. -/
theorem SupportInv.entityLoop (h : SupportInv toUpperCase world) (toLowerCase : String → String)
    (env : ImportEnv) (policy : ConflictPolicy) (hres : Reserved world.store stored batchId)
    (hvalid : FileValid sha1 file) (hn : (dailyKeys (parsedAdRows sha1 file)).Nodup) :
    ∃ ghost, RowsWritten toUpperCase policy world.store world.metrics (fileRows sha1 file) ghost
      (entityLoop sha1 toLowerCase toUpperCase env policy batchId file stored world.entities) := by
  have hentries : ∀ entry ∈ numberedRows (parsedAdRows sha1 file), entry.2.issues = [] := by
    intro entry he
    have hm : entry.2 ∈ parsedAdRows sha1 file := by
      rw [← map_snd_numberedRows (parsedAdRows sha1 file)]
      exact mem_map_of_mem he
    obtain ⟨rawRow, hr, hp⟩ := mem_map.mp hm
    rw [← hp]
    exact hvalid rawRow hr
  have hnodup : ((([] : List ParsedMetaAdDailyRow) ++
      validRows ((numberedRows (parsedAdRows sha1 file)).map fun entry => entry.2)).map adMetricKey).Nodup := by
    rw [map_snd_numberedRows]
    exact nodup_fileKeys hn
  obtain ⟨ghost, hend⟩ := RowsWritten.foldl toLowerCase env batchId _ hentries hnodup
    (h.rowsWritten policy hres)
  rw [map_snd_numberedRows] at hend
  exact ⟨ghost, hend⟩

/-- **The texts of a backed import tell its places apart.** -/
theorem RowsWritten.textsApart {state : AdLoop × EntityTables}
    (h : RowsWritten toUpperCase policy world.store world.metrics (fileRows sha1 file)
      {m | m ∈ loopMetrics state} state)
    (hback : ImportBacked sha1 toUpperCase policy file world.store) :
    TextsApart {m | m ∈ loopMetrics state} := by
  have hplace : ∀ m ∈ loopMetrics state, IsPlace sha1 file world.store m.place := by
    intro m hm
    rcases h.places m hm with hm | ⟨row, hrow, hp⟩
    · exact .inl (mem_metrics_place.mpr ⟨m, hm, rfl⟩)
    · exact .inr ⟨row, hrow, hp.symm⟩
  intro m hm m' hm' htext
  obtain ⟨id, hid, hk⟩ := h.known m hm
  obtain ⟨id', hid', hk'⟩ := h.known m' hm'
  have hsome : ∀ {x : CreativeMetric} {i : Nat}, x.Has i →
      (creativePlacementCleanupKey x).creativeId.isSome = true :=
    fun hi => Option.isSome_iff_exists.mpr ⟨_, hi⟩
  obtain ⟨hcreative, htexts⟩ := placementKeyToString_inj (hsome hid) (hsome hid') htext
  have hids : id = id' := Option.some.inj (hid.symm.trans (hcreative.trans hid'))
  have hkeys := h.creatives.eq_key hk (hids ▸ hk')
  have hp := hback.texts m.place m'.place (hplace m hm) (hplace m' hm') hkeys htexts
  rw [h.known.eq_of_place h.creatives hm hm' hp]

/-- **A backed import of a valid file.** -/
theorem SupportInv.importMetaAdDailyCsv (h : SupportInv toUpperCase world) (hvalid : FileValid sha1 file)
    (hbacked : (∃ batchId errorCount,
      (Meta.importMetaAdDailyCsv sha1 toLowerCase env policy file world.store).2 =
        .imported batchId errorCount) → ImportBacked sha1 toUpperCase policy file world.store) :
    SupportInv toUpperCase (world.importMetaAdDailyCsv sha1 toLowerCase toUpperCase env policy file) := by
  have hstore : StoreInv (Meta.importMetaAdDailyCsv sha1 toLowerCase env policy file world.store).1 :=
    h.store.importMetaAdDailyCsv
  have hids : batchIds world.store <+:
      batchIds (Meta.importMetaAdDailyCsv sha1 toLowerCase env policy file world.store).1 :=
    batchIds_importCsv batchIds_importAdRows
  unfold World.importMetaAdDailyCsv
  dsimp only
  rcases importMetaAdDailyCsv_stored h.store.toBatchInv sha1 toLowerCase env policy file with
    ⟨hsame, hnot⟩ | ⟨batchId, hres, hn, e⟩
  · cases hout : (Meta.importMetaAdDailyCsv sha1 toLowerCase env policy file world.store).2 with
    | imported batchId errorCount => exact absurd hout (hnot batchId errorCount)
    | duplicate batchId | rejected batchId code | aborted batchId =>
      exact h.same hstore hsame.adMetrics hids
  · rw [e] at hbacked hstore hids ⊢
    have hback := hbacked ⟨_, _, rfl⟩
    obtain ⟨ghost, hend⟩ := h.entityLoop toLowerCase env policy hres hvalid hn
    obtain rfl := hend.ghost_stored fun row hrow hs => by
      rw [← mem_metrics_place]
      exact hback.skipped row hrow hs
    have hbatches : ∀ m ∈ (importAdRows sha1 toLowerCase env policy batchId file
        (storedForRows env .AD policy file batchId world.store)).1.adMetrics.rows,
        m.batch ∈ batchIds (importAdRows sha1 toLowerCase env policy batchId file
          (storedForRows env .AD policy file batchId world.store)).1 := by
      intro m hm
      rcases (importAdRows_extends h.store hres).adRows m hm with ⟨s, hs, es⟩ | ⟨hb, -⟩
      · rw [es]
        exact hids.subset (h.batches s hs)
      · obtain ⟨b, hbm, hbid⟩ := hres.found
        rw [hb, batchIds_importAdRows]
        exact mem_map.mpr ⟨b, hbm, hbid⟩
    show SupportInv toUpperCase ⟨_, (Meta.entityLoop sha1 toLowerCase toUpperCase env policy batchId file
      (storedForRows env .AD policy file batchId world.store) world.entities).2⟩
    refine ⟨hstore, hend.creatives, ?_, ?_, ?_, hbatches⟩
    · rw [metrics_importAdRows]
      exact hend.supported
    · rw [metrics_importAdRows]
      exact hend.known
    · rw [metrics_importAdRows]
      exact hend.textsApart hback

end Import

theorem SupportInv.importMetaAdsetCsv (h : SupportInv toUpperCase world) (env : ImportEnv)
    (policy : ConflictPolicy) (file : MetaCsvFile) :
    SupportInv toUpperCase (world.importMetaAdsetCsv toLowerCase env policy file) := by
  have hstore : StoreInv (Meta.importMetaAdsetCsv toLowerCase env policy file world.store).1 :=
    h.store.importMetaAdsetCsv
  have hids : batchIds world.store <+:
      batchIds (Meta.importMetaAdsetCsv toLowerCase env policy file world.store).1 :=
    batchIds_importCsv batchIds_importAdsetRows
  refine h.same hstore ?_ hids
  rcases importMetaAdsetCsv_stored h.store.toBatchInv toLowerCase env policy file with
    ⟨hsame, -⟩ | ⟨batchId, hres, e⟩
  · exact hsame.adMetrics
  · rw [e]
    exact hres.adMetrics

section Delete

variable {id : Nat}

/-- The metrics of the batch `id`. -/
def World.metricsOf (world : World) (id : Nat) : List CreativeMetric :=
  (world.store.adMetrics.rows.filter (·.batch = id)).map (creativeMetric world.entities.metricCreative)

/-- The metrics that remain when the batch `id` is gone, with their flags. -/
def World.metricsWithout (world : World) (id : Nat) : List (CreativeMetric × Bool) :=
  (Meta.deleteUpload true id world.store).adMetrics.rows.map fun m =>
    (creativeMetric world.entities.metricCreative m, m.current)

theorem deleteUpload_world (hb : id ∈ batchIds world.store) :
    world.deleteUpload toUpperCase true id = ⟨Meta.deleteUpload true id world.store,
      cleanupCreativeDataAfterMetricDelete toUpperCase (world.metricsOf id) (world.metricsWithout id)
        world.entities⟩ := by
  have hany : (world.store.batches.any (·.id = id) && true) = true := by
    obtain ⟨b, hm, e⟩ := mem_map.mp hb
    rw [Bool.and_true, any_eq_true]
    exact ⟨b, hm, decide_eq_true e⟩
  unfold World.deleteUpload
  rw [if_pos hany]
  rfl

/-- A deletion that finds no batch or cannot retain its file changes nothing. -/
theorem deleteUpload_world_none {retains : Bool} (h : ¬ (id ∈ batchIds world.store ∧ retains = true)) :
    world.deleteUpload toUpperCase retains id = world := by
  unfold World.deleteUpload
  rw [if_neg]
  intro hc
  rw [Bool.and_eq_true, any_eq_true] at hc
  obtain ⟨⟨b, hm, e⟩, hr⟩ := hc
  exact h ⟨mem_map.mpr ⟨b, hm, of_decide_eq_true e⟩, hr⟩

/-- The rows that remain are those of the other batches, but for their flags. -/
theorem mem_metricsWithout (h : StoreInv world.store) (hb : id ∈ batchIds world.store) {m : CreativeMetric} :
    (∃ x ∈ world.metricsWithout id, x.1 = m) ↔ ∃ r ∈ world.store.adMetrics.rows, r.batch ≠ id ∧
      creativeMetric world.entities.metricCreative r = m := by
  unfold World.metricsWithout
  rw [deleteUpload_adRows h (mem_map.mp hb)]
  unfold electedWithout
  simp only [mem_map, mem_filter, decide_eq_true_eq]
  constructor
  · rintro ⟨_, ⟨_, ⟨r, ⟨hr, hne⟩, rfl⟩, rfl⟩, rfl⟩
    refine ⟨r, hr, hne, ?_⟩
    split
    · rfl
    · rfl
  · rintro ⟨r, hr, hne, rfl⟩
    refine ⟨_, ⟨_, ⟨r, ⟨hr, hne⟩, rfl⟩, rfl⟩, ?_⟩
    split
    · rfl
    · rfl

/-- Every metric is deleted or remains. -/
theorem metrics_split (h : StoreInv world.store) (hb : id ∈ batchIds world.store) :
    {m | m ∈ world.metrics} = {m | m ∈ world.metricsOf id ∨ ∃ x ∈ world.metricsWithout id, x.1 = m} := by
  ext m
  simp only [Set.mem_ofPred_eq]
  rw [mem_metricsWithout h hb]
  unfold World.metrics World.metricsOf
  simp only [mem_map, mem_filter, decide_eq_true_eq]
  constructor
  · rintro ⟨r, hr, rfl⟩
    by_cases hbatch : r.batch = id
    · exact .inl ⟨r, ⟨hr, hbatch⟩, rfl⟩
    · exact .inr ⟨r, hr, hbatch, rfl⟩
  · rintro (⟨r, ⟨hr, -⟩, rfl⟩ | ⟨r, hr, -, rfl⟩)
    · exact ⟨r, hr, rfl⟩
    · exact ⟨r, hr, rfl⟩

variable {stored : List (CreativeMetric × Bool)} {metrics : List CreativeMetric} {e : EntityTables}

theorem metricCreative_cleanup :
    (cleanupCreativeDataAfterMetricDelete toUpperCase metrics stored e).metricCreative =
      e.metricCreative := by
  unfold cleanupCreativeDataAfterMetricDelete
  split
  · rfl
  · rfl

variable (toUpperCase) in
/-- The metrics of the world after the deletion. -/
theorem metrics_deleteUpload (hb : id ∈ batchIds world.store) :
    {m | m ∈ (world.deleteUpload toUpperCase true id).metrics} =
      {m | ∃ x ∈ world.metricsWithout id, x.1 = m} := by
  rw [deleteUpload_world hb]
  ext m
  simp only [World.metrics, metricCreative_cleanup, World.metricsWithout, mem_map]
  constructor
  · rintro ⟨r, hr, rfl⟩
    exact ⟨_, ⟨r, hr, rfl⟩, rfl⟩
  · rintro ⟨_, ⟨r, hr, rfl⟩, rfl⟩
    exact ⟨r, hr, rfl⟩

theorem CreativesInv.cleanup (h : CreativesInv e.creatives) :
    CreativesInv (cleanupCreativeDataAfterMetricDelete toUpperCase metrics stored e).creatives := by
  unfold cleanupCreativeDataAfterMetricDelete
  split
  · exact h
  · exact (KeyedIds.filter h _).map fun r => ⟨rfl, rfl⟩

/-- **A deletion.** -/
theorem SupportInv.deleteUpload (h : SupportInv toUpperCase world) (retains : Bool) (id : Nat) :
    SupportInv toUpperCase (world.deleteUpload toUpperCase retains id) := by
  by_cases hb : id ∈ batchIds world.store ∧ retains = true
  · obtain ⟨hb, rfl⟩ := hb
    have hsplit := metrics_split h.store hb
    have hmetrics := metrics_deleteUpload toUpperCase hb
    have hsub : ∀ m ∈ {m | ∃ x ∈ world.metricsWithout id, x.1 = m}, m ∈ {m | m ∈ world.metrics} := by
      intro m hm
      rw [hsplit]
      exact .inr hm
    refine ⟨?_, ?_, ?_, ?_, ?_, ?_⟩
    · rw [deleteUpload_world hb]
      exact h.store.deleteUpload true id
    · rw [deleteUpload_world hb]
      exact h.creatives.cleanup
    · rw [hmetrics, deleteUpload_world hb]
      exact Supported.cleanup (hsplit ▸ h.supported) (hsplit ▸ h.texts)
    · rw [hmetrics, deleteUpload_world hb]
      rintro m ⟨x, hx, rfl⟩
      obtain ⟨i, hi, c, hc, hid, hkey⟩ := h.known x.1 (hsub x.1 ⟨x, hx, rfl⟩)
      obtain ⟨c', hc', hid', hkey'⟩ := cleanup_keeps_creative hc hx (hid ▸ hi)
      exact ⟨i, hi, c', hc', hid'.trans hid, hkey'.trans hkey⟩
    · rw [hmetrics]
      exact fun m hm m' hm' => h.texts m (hsub m hm) m' (hsub m' hm')
    · rw [deleteUpload_world hb]
      intro m hm
      rw [deleteUpload_adRows h.store (mem_map.mp hb)] at hm
      obtain ⟨r, hr, rfl⟩ := mem_map.mp hm
      obtain ⟨hr, hne⟩ := mem_filter.mp hr
      have hbatch : r.batch ∈ batchIds (Meta.deleteUpload true id world.store) := by
        obtain ⟨b, hbm, hbid⟩ := mem_map.mp (h.batches r hr)
        unfold Meta.deleteUpload
        rw [if_pos (by simpa using mem_map.mp hb)]
        refine mem_map.mpr ⟨b, mem_filter.mpr ⟨hbm, ?_⟩, hbid⟩
        rw [decide_eq_true_eq, hbid]
        exact of_decide_eq_true hne
      split
      · exact hbatch
      · exact hbatch
  · rw [deleteUpload_world_none hb]
    exact h

end Delete

/-! ## 6. Runs -/

variable (sha1 toLowerCase toUpperCase) in
def Operation.runWorld (world : World) : Operation → World
  | .importMetaAdDailyCsv env policy file =>
    world.importMetaAdDailyCsv sha1 toLowerCase toUpperCase env policy file
  | .importMetaAdsetCsv env policy file => world.importMetaAdsetCsv toLowerCase env policy file
  | .deleteUpload retains id => world.deleteUpload toUpperCase retains id

variable (sha1 toLowerCase toUpperCase) in
/-- A valid ad-level file that is backed if it is imported; every other operation. -/
def Operation.Backed (world : World) : Operation → Prop
  | .importMetaAdDailyCsv env policy file => FileValid sha1 file ∧
      ((∃ batchId errorCount, (Meta.importMetaAdDailyCsv sha1 toLowerCase env policy file world.store).2 =
        .imported batchId errorCount) → ImportBacked sha1 toUpperCase policy file world.store)
  | .importMetaAdsetCsv _ _ _ => True
  | .deleteUpload _ _ => True

variable (sha1 toLowerCase toUpperCase) in
/-- The worlds of all runs of backed operations. -/
inductive BackedRun : World → Prop where
  | start : BackedRun emptyWorld
  | step {world : World} (operation : Operation) (h : BackedRun world)
      (hbacked : operation.Backed sha1 toLowerCase toUpperCase world) :
      BackedRun (operation.runWorld sha1 toLowerCase toUpperCase world)

theorem SupportInv.runWorld (h : SupportInv toUpperCase world) (operation : Operation)
    (hbacked : operation.Backed sha1 toLowerCase toUpperCase world) :
    SupportInv toUpperCase (operation.runWorld sha1 toLowerCase toUpperCase world) := by
  cases operation with
  | importMetaAdDailyCsv env policy file => exact h.importMetaAdDailyCsv hbacked.1 hbacked.2
  | importMetaAdsetCsv env policy file => exact h.importMetaAdsetCsv env policy file
  | deleteUpload retains id => exact h.deleteUpload retains id

theorem BackedRun.inv (h : BackedRun sha1 toLowerCase toUpperCase world) : SupportInv toUpperCase world := by
  induction h with
  | start => exact SupportInv.empty
  | step operation _ hbacked ih => exact ih.runWorld operation hbacked

variable (toUpperCase) in
/-- What one of the metrics supports is still there; a creative may have been deactivated. -/
structure NothingLost (metrics : Set CreativeMetric) (e e' : EntityTables) : Prop where
  creatives : ∀ c ∈ e.creatives.rows, (∃ m ∈ metrics, m.Has c.id) →
    ∃ c' ∈ e'.creatives.rows, c'.id = c.id ∧ c'.creativeKey = c.creativeKey
  aliases : ∀ a ∈ e.aliases, (∃ m ∈ metrics, m.Names toUpperCase a) → a ∈ e'.aliases
  placements : ∀ p ∈ e.placements, (∃ m ∈ metrics, m.Places p) → p ∈ e'.placements

/-- A deletion removes nothing that a remaining metric supports, in whatever world. -/
theorem nothingLost_deleteUpload (retains : Bool) (id : Nat) :
    NothingLost toUpperCase {m | m ∈ (world.deleteUpload toUpperCase retains id).metrics} world.entities
      (world.deleteUpload toUpperCase retains id).entities := by
  by_cases hb : id ∈ batchIds world.store ∧ retains = true
  · obtain ⟨hb, rfl⟩ := hb
    rw [metrics_deleteUpload toUpperCase hb, deleteUpload_world hb]
    refine ⟨?_, ?_, ?_⟩
    · rintro c hc ⟨_, ⟨x, hx, rfl⟩, hid⟩
      exact cleanup_keeps_creative hc hx hid
    · rintro a ha ⟨_, ⟨x, hx, rfl⟩, hname⟩
      exact cleanup_keeps_alias ha hx hname
    · rintro p hp ⟨_, ⟨x, hx, rfl⟩, hplace⟩
      exact cleanup_keeps_placement hp hx hplace
  · rw [deleteUpload_world_none hb]
    exact ⟨fun c hc _ => ⟨c, hc, rfl, rfl⟩, fun a ha _ => ha, fun p hp _ => hp⟩

/-- Without batches there is no metric, and so no record. -/
theorem SupportInv.no_records (h : SupportInv toUpperCase world) (hb : world.store.batches = []) :
    world.entities.creatives.rows = [] ∧ world.entities.aliases = [] ∧ world.entities.placements = [] := by
  have hno : ∀ m, m ∉ world.metrics := by
    intro m hm
    obtain ⟨r, hr, -⟩ := mem_map.mp hm
    have hbatch := h.batches r hr
    unfold batchIds at hbatch
    rw [hb] at hbatch
    cases hbatch
  refine ⟨eq_nil_iff_forall_not_mem.mpr fun c hc => ?_,
    eq_nil_iff_forall_not_mem.mpr fun a ha => ?_, eq_nil_iff_forall_not_mem.mpr fun p hp => ?_⟩
  · obtain ⟨m, hm, -⟩ := h.supported.creatives c hc
    exact hno m hm
  · obtain ⟨m, hm, -⟩ := h.supported.aliases a ha
    exact hno m hm
  · obtain ⟨m, hm, -⟩ := h.supported.placements p hp
    exact hno m hm

/-- **After every deletion of a run of backed operations the creatives, aliases and placements are
    supported by the metrics that remain, nothing supported was removed, and once all batches are
    gone so are all records.** -/
theorem creative_records_supported (sha1 : Sha1) (toLowerCase toUpperCase : String → String)
    (world : World) (h : BackedRun sha1 toLowerCase toUpperCase world) (retains : Bool) (id : Nat) :
    Supported toUpperCase {m | m ∈ (world.deleteUpload toUpperCase retains id).metrics}
        (world.deleteUpload toUpperCase retains id).entities ∧
      NothingLost toUpperCase {m | m ∈ (world.deleteUpload toUpperCase retains id).metrics} world.entities
        (world.deleteUpload toUpperCase retains id).entities ∧
      ((world.deleteUpload toUpperCase retains id).store.batches = [] →
        (world.deleteUpload toUpperCase retains id).entities.creatives.rows = [] ∧
          (world.deleteUpload toUpperCase retains id).entities.aliases = [] ∧
          (world.deleteUpload toUpperCase retains id).entities.placements = []) := by
  have hinv := h.inv.deleteUpload retains id
  exact ⟨hinv.supported, nothingLost_deleteUpload retains id, hinv.no_records⟩

end Worlds

/-! ## 7. Two names of one ad -/

/-- The digests of `1|2|a` and `1|2|b`, the ids and names of the rows below. -/
def twoNamesSha1 : Sha1 where
  digest := fun text => if text = "1|2|b" then "b91a58e0ac9d9a47c6e163b21dbd9150ddbafb26"
    else "e4cae96eebf80108ebf9d34cfa0e435618c37da8"
  hex := by
    intro text
    split
    · exact isHexDigest (by decide)
    · exact isHexDigest (by decide)

/-- An ad of a day under a name. -/
def namedRow (date metaAdId adName : String) : RawRow :=
  (sampleRow date metaAdId "1").map fun entry => if entry.1 = "광고 이름" then (entry.1, adName) else entry

/-- The ad `7` of a day under a name. -/
def namedFile (fileHashSha256 adName : String) : MetaCsvFile :=
  sampleFile fileHashSha256 [namedRow "2026-01-05" "7" adName]

/-- The world after operations on the empty one. -/
def worldOf (operations : List Operation) : World :=
  operations.foldl (fun world operation =>
    operation.runWorld twoNamesSha1 asciiLowerCase asciiUpperCase world) emptyWorld

/-- Where all places are known, the import is backed if every row stands where a metric stands. -/
theorem importBacked_of_places {sha1 : Sha1} {toUpperCase : String → String} {policy : ConflictPolicy}
    {file : MetaCsvFile} {store : MetaStore} (places : List Place)
    (hfile : ∀ row ∈ fileRows sha1 file, placeOf row ∈ places)
    (hstore : ∀ m ∈ store.adMetrics.rows, metricPlace m ∈ places)
    (hskipped : policy = .SKIP → ∀ row ∈ fileRows sha1 file, ∃ m ∈ store.adMetrics.rows,
      metricPlace m = placeOf row)
    (htexts : ∀ p ∈ places, ∀ q ∈ places, (CreativeNameParser.parse toUpperCase p.adName).creativeKey =
      (CreativeNameParser.parse toUpperCase q.adName).creativeKey → p.text = q.text → p = q) :
    ImportBacked sha1 toUpperCase policy file store where
  skipped row hrow h := .inl (hskipped h.1 row hrow)
  texts p q hp hq := by
    have hmem : ∀ p, IsPlace sha1 file store p → p ∈ places := by
      rintro p (⟨m, hm, rfl⟩ | ⟨row, hrow, rfl⟩)
      · exact hstore m hm
      · exact hfile row hrow
    exact htexts p (hmem p hp) q (hmem q hq)

def importTwoAds : Operation :=
  .importMetaAdDailyCsv sampleEnv .OVERWRITE
    (sampleFile "h" [namedRow "2026-01-05" "7" "a", namedRow "2026-01-05" "8" "b"])

/-- Skips the first of the ads and has a new day of the other. -/
def importNextDay : Operation :=
  .importMetaAdDailyCsv sampleEnv .SKIP
    (sampleFile "g" [namedRow "2026-01-05" "7" "a", namedRow "2026-01-06" "8" "b"])

/-- The second batch supports the creative of one ad, and the other goes with the first batch. -/
theorem creative_records_supported_two_files :
    (worldOf [importTwoAds, importNextDay]).entities.creatives.rows.map (·.creativeKey) = ["a", "b"] ∧
      (worldOf [importTwoAds, importNextDay, .deleteUpload true 0]).entities.creatives.rows.map
        (·.creativeKey) = ["b"] ∧
      ((worldOf [importTwoAds, importNextDay, .deleteUpload true 0]).deleteUpload asciiUpperCase true
        1).entities.creatives.rows = [] := by
  have hfirst : BackedRun twoNamesSha1 asciiLowerCase asciiUpperCase (worldOf [importTwoAds]) :=
    .step importTwoAds .start ⟨by decide +kernel, fun _ => importBacked_of_places
      [⟨"1", "2", "a"⟩, ⟨"1", "2", "b"⟩] (by decide +kernel) (by decide +kernel) nofun (by decide +kernel)⟩
  have hsecond := hfirst.step importNextDay ⟨by decide +kernel, fun _ => importBacked_of_places
    [⟨"1", "2", "a"⟩, ⟨"1", "2", "b"⟩] (by decide +kernel) (by decide +kernel) (fun _ => by decide +kernel)
    (by decide +kernel)⟩
  have hdeleted := hsecond.step (.deleteUpload true 0) trivial
  exact ⟨by decide +kernel, by decide +kernel, ((creative_records_supported twoNamesSha1 asciiLowerCase
    asciiUpperCase _ hdeleted true 1).2.2 (by decide +kernel)).1⟩

/-- The second file names the ad anew and is skipped; both files are deleted, and the creative, the
    alias and the placement of the new name stay. -/
theorem skipped_row_left_behind :
    FileValid twoNamesSha1 (namedFile "h" "a") ∧ FileValid twoNamesSha1 (namedFile "g" "b") ∧
      (worldOf [.importMetaAdDailyCsv sampleEnv .OVERWRITE (namedFile "h" "a"),
        .importMetaAdDailyCsv sampleEnv .SKIP (namedFile "g" "b"), .deleteUpload true 0,
        .deleteUpload true 1]).store.batches = [] ∧
      (worldOf [.importMetaAdDailyCsv sampleEnv .OVERWRITE (namedFile "h" "a"),
        .importMetaAdDailyCsv sampleEnv .SKIP (namedFile "g" "b"), .deleteUpload true 0,
        .deleteUpload true 1]).entities.creatives.rows.map (·.creativeKey) = ["b"] ∧
      (worldOf [.importMetaAdDailyCsv sampleEnv .OVERWRITE (namedFile "h" "a"),
        .importMetaAdDailyCsv sampleEnv .SKIP (namedFile "g" "b"), .deleteUpload true 0,
        .deleteUpload true 1]).entities.aliases.map (·.originalKey) = ["b"] ∧
      (worldOf [.importMetaAdDailyCsv sampleEnv .OVERWRITE (namedFile "h" "a"),
        .importMetaAdDailyCsv sampleEnv .SKIP (namedFile "g" "b"), .deleteUpload true 0,
        .deleteUpload true 1]).entities.placements.map (·.originalAdName) = ["b"] := by
  refine ⟨?_, ?_, ?_, ?_, ?_, ?_⟩
  · decide +kernel
  · decide +kernel
  · decide +kernel
  · decide +kernel
  · decide +kernel
  · decide +kernel

end AdsManagement.Meta
