/-
  File:      Meta/ObservationWindows.lean
  Subject:   WHEN AN ENTITY WAS SEEN: `firstSeenOn` and `lastSeenOn` of campaigns, adsets, ads,
             creatives, aliases and placements after any sequence of imports.

  A row that an import commits mentions the entities it writes (`Mention.keys`). Ads, creatives,
  aliases and placements widen their window by the date of the row. Campaigns and adsets keep the
  first date they were given and take every later one as the last, so that their window is the
  first and the last date in the order of the imports.

  * `Observed` -- the invariant: every table tracks the log of the mentions;
  * `Observed.writeEntities`, `tracks_matchAdRow`, `tracks_adsetRow` -- one row;
  * `hasWindow_iff` -- the windows of a run;
  * `observation_windows` -- they are the least and the greatest date of the mentions exactly when
    every campaign and every adset is mentioned with its least date first and its greatest last.
-/
import AdsManagement.Meta.Entities
import AdsManagement.Meta.SnapshotImport

namespace AdsManagement.Meta

open Common Lib Coupang List

/-! ## 1. Entities and mentions -/

/-- An entity by the columns that identify it; creatives by their key, as ids are drawn anew. -/
inductive EntityKey where
  | campaign (externalCampaignId : String)
  | adset (id : Nat)
  | ad (metaCampaignId metaAdsetId adIdentityKey : String)
  | creative (creativeKey : String)
  | creativeAlias (creativeKey originalKey : String)
  | creativePlacement (creativeKey metaCampaignId metaAdsetId originalAdName : String)
deriving DecidableEq

/-- A row that was imported, with the adset and the creative it was written to. -/
inductive Mention where
  | ad (row : ParsedMetaAdDailyRow) (metaAdsetId creativeId : Nat)
  | adset (metaAdsetId : Nat) (metricDate : Int)

namespace Mention

def date : Mention → Int
  | .ad row _ _ => row.metricDate
  | .adset _ metricDate => metricDate

variable (toUpperCase : String → String)

/-- The entities that a row mentions. -/
def keys : Mention → List EntityKey
  | .ad row metaAdsetId _ =>
    let parsedName := CreativeNameParser.parse toUpperCase row.adName
    [.campaign row.metaCampaignId, .adset metaAdsetId,
      .ad row.metaCampaignId row.metaAdsetExternalId row.adIdentityKey,
      .creative parsedName.creativeKey,
      .creativeAlias parsedName.creativeKey (creativeOriginalKey parsedName.originalName),
      .creativePlacement parsedName.creativeKey row.metaCampaignId row.metaAdsetExternalId row.adName]
  | .adset metaAdsetId _ => [.adset metaAdsetId]

/-! The columns by which the tables are searched. -/

def campaign? : Mention → Option String
  | .ad row _ _ => some row.metaCampaignId
  | .adset _ _ => none

def adset? : Mention → Option Nat
  | .ad _ metaAdsetId _ => some metaAdsetId
  | .adset metaAdsetId _ => some metaAdsetId

def ad? : Mention → Option (String × String × String)
  | .ad row _ _ => some (row.metaCampaignId, row.metaAdsetExternalId, row.adIdentityKey)
  | .adset _ _ => none

def creative? : Mention → Option String
  | .ad row _ _ => some (CreativeNameParser.parse toUpperCase row.adName).creativeKey
  | .adset _ _ => none

def alias? : Mention → Option (Nat × String)
  | .ad row _ creativeId => some (creativeId,
      creativeOriginalKey (CreativeNameParser.parse toUpperCase row.adName).originalName)
  | .adset _ _ => none

def placement? : Mention → Option (Nat × String × String × String)
  | .ad row _ creativeId => some (creativeId, row.metaCampaignId, row.metaAdsetExternalId, row.adName)
  | .adset _ _ => none

end Mention

/-- The dates of the rows that mentioned an entity, in the order of the imports. -/
def mentionDates (toUpperCase : String → String) (log : List Mention) (key : EntityKey) : List Int :=
  (log.filter fun m => key ∈ m.keys toUpperCase).map Mention.date

/-! ## 2. Imports and what they mention -/

inductive MetaImport where
  | adDaily (env : ImportEnv) (policy : ConflictPolicy) (file : MetaCsvFile)
  | adset (env : ImportEnv) (policy : ConflictPolicy) (file : MetaCsvFile)

section Runs

variable (sha1 : Sha1) (toLowerCase toUpperCase : String → String)

/-- What a row of an ad-level file mentions. -/
def adMention (env : ImportEnv) (state : AdLoop × EntityTables) (entry : Nat × ParsedAdDaily) :
    List Mention :=
  match entry.2.parsedRow with
  | none => []
  | some row =>
    let metaAdsetId := (matchAdRow toLowerCase env row state.1.adsets).metaAdsetId
    [.ad row metaAdsetId (writeEntities toUpperCase row metaAdsetId state.2).2]

/-- What a row of an adset-level file mentions. -/
def adsetMention (env : ImportEnv) (state : AdsetLoop) (entry : Nat × RawRow × ParsedAdset) :
    List Mention :=
  match entry.2.2.parsedRow with
  | none => []
  | some row => [.adset (upsertAdset env.order env.now row state.adsets).2.id row.metricDate]

namespace MetaImport

def run (world : World) : MetaImport → World
  | .adDaily env policy file => world.importMetaAdDailyCsv sha1 toLowerCase toUpperCase env policy file
  | .adset env policy file => world.importMetaAdsetCsv toLowerCase env policy file

/-- An import that is not committed mentions nothing. -/
def mentions (world : World) : MetaImport → List Mention
  | .adDaily env policy file =>
    match (Meta.importMetaAdDailyCsv sha1 toLowerCase env policy file world.store).2 with
    | .imported batchId _ =>
      logAlong (entityTurn toLowerCase toUpperCase env policy batchId) (adMention toLowerCase toUpperCase env)
        (adLoopStart batchId file (storedForRows env .AD policy file batchId world.store), world.entities)
        (numberedRows (parsedAdRows sha1 file))
    | _ => []
  | .adset env policy file =>
    match (Meta.importMetaAdsetCsv toLowerCase env policy file world.store).2 with
    | .imported batchId _ =>
      logAlong (adsetTurn env policy batchId) (adsetMention env)
        (adsetLoopStart (storedForRows env .ADSET policy file batchId world.store))
        (numberedRows (parsedAdsetRows toLowerCase file))
    | _ => []

end MetaImport

/-- The world after a sequence of imports. -/
def worldAfter (imports : List MetaImport) : World :=
  imports.foldl (fun world i => i.run sha1 toLowerCase toUpperCase world) emptyWorld

/-- All mentions of a sequence of imports. -/
def mentionsOf (imports : List MetaImport) : List Mention :=
  logAlong (fun world i => i.run sha1 toLowerCase toUpperCase world)
    (fun world i => i.mentions sha1 toLowerCase toUpperCase world) emptyWorld imports

end Runs

/-! ## 3. Windows of records -/

def MetaCampaign.window (c : MetaCampaign) : Window Int := ⟨c.firstSeenOn, c.lastSeenOn⟩

def MetaAdset.window (a : MetaAdset) : Window Int := ⟨a.firstSeenOn, a.lastSeenOn⟩

def MetaAd.window (a : MetaAd) : Window Int := ⟨a.firstSeenOn, a.lastSeenOn⟩

def Creative.window (c : Creative) : Window Int := ⟨c.firstSeenOn, c.lastSeenOn⟩

def CreativeAlias.window (a : CreativeAlias) : Window Int := ⟨a.firstSeenOn, a.lastSeenOn⟩

def CreativePlacement.window (p : CreativePlacement) : Window Int := ⟨p.firstSeenOn, p.lastSeenOn⟩

/-- A record of the entity `key` has the window `w`. -/
def World.HasWindow (world : World) : EntityKey → Window Int → Prop
  | .campaign externalCampaignId, w => ∃ c ∈ world.entities.campaigns.rows,
      c.externalCampaignId = externalCampaignId ∧ c.window = w
  | .adset id, w => ∃ a ∈ world.store.adsets.rows, a.id = id ∧ a.window = w
  | .ad metaCampaignId metaAdsetId adIdentityKey, w => ∃ a ∈ world.entities.ads.rows,
      (a.metaCampaignId = metaCampaignId ∧ a.metaAdsetId = metaAdsetId ∧ a.adIdentityKey = adIdentityKey) ∧
        a.window = w
  | .creative creativeKey, w => ∃ c ∈ world.entities.creatives.rows,
      c.creativeKey = creativeKey ∧ c.window = w
  | .creativeAlias creativeKey originalKey, w => ∃ c ∈ world.entities.creatives.rows, c.creativeKey = creativeKey ∧
      ∃ a ∈ world.entities.aliases, (a.creativeId = c.id ∧ a.originalKey = originalKey) ∧ a.window = w
  | .creativePlacement creativeKey metaCampaignId metaAdsetId originalAdName, w =>
    ∃ c ∈ world.entities.creatives.rows, c.creativeKey = creativeKey ∧
      ∃ p ∈ world.entities.placements, (p.creativeId = c.id ∧ p.metaCampaignId = metaCampaignId ∧
        p.metaAdsetId = metaAdsetId ∧ p.originalAdName = originalAdName) ∧ p.window = w

theorem widen_eq (w : Window Int) (d : Int) :
    w.widen d = ⟨Cafe24.minDate w.first d, Cafe24.maxDate w.last d⟩ := by
  unfold Window.widen
  rw [Window.mk.injEq]
  constructor
  · cases w.first with
    | none => rfl
    | some a =>
      show some (min a d) = some (if a < d then a else d)
      congr 1
      split <;> omega
  · cases w.last with
    | none => rfl
    | some b =>
      show some (max b d) = some (if b > d then b else d)
      congr 1
      split <;> omega

/-! ## 4. Adsets -/

section Adsets

variable {t : AdsetTable} {dates : Nat → List Int}

/-- The adset table tracks the dates. -/
def AdsetsTrack (dates : Nat → List Int) (t : AdsetTable) : Prop :=
  Tracks ends (fun a : MetaAdset => a.id) MetaAdset.window dates t.rows

theorem update_rows (id : Nat) (change : MetaAdset → MetaAdset) :
    (t.update id change).rows = t.rows.map fun a => if decide (a.id = id) then change a else a := by
  simp [AdsetTable.update]

/-- The row an upsert returns is in the table and was seen on the date. -/
structure SeenOn (d : Int) (t : AdsetTable) (a : MetaAdset) : Prop where
  mem : a ∈ t.rows
  first : a.firstSeenOn.isSome = true
  last : a.lastSeenOn = some d

variable {d : Int}

section

variable (h : AdsetsTrack dates t)
include h

theorem AdsetsTrack.seenAgain {existing : MetaAdset} (hm : existing ∈ t.rows)
    {change : MetaAdset → MetaAdset} (hid : ∀ a, (change a).id = a.id)
    (hwindow : ∀ a, (change a).window = a.window.push d) :
    AdsetsTrack (noted dates (change existing).id d) (t.update existing.id change) ∧
      SeenOn d (t.update existing.id change) (change existing) := by
  constructor
  · unfold AdsetsTrack
    rw [update_rows, hid]
    exact Tracks.change h ends_concat (h.window_eq hm).1 (fun a => decide_eq_true_iff)
      (fun a _ e => (hid a).trans e) (fun a _ _ => hwindow a)
  · have hw := hwindow existing
    refine ⟨mem_update.mpr ⟨existing, hm, (if_pos rfl).symm⟩, ?_, congrArg Window.last hw⟩
    rw [show (change existing).firstSeenOn = _ from congrArg Window.first hw]
    rfl

theorem AdsetsTrack.create (hinv : AdsetsInv t) {make : Nat → MetaAdset}
    (hid : ∀ n, (make n).id = n) (hwindow : ∀ n, (make n).window = ⟨some d, some d⟩) :
    AdsetsTrack (noted dates (make t.nextId).id d) (t.create make) ∧
      SeenOn d (t.create make) (make t.nextId) := by
  have hnone : dates (make t.nextId).id = [] := by
    by_contra hne
    obtain ⟨a, ha, e⟩ := h.exists_row hne
    have hlt := hinv.fresh a ha
    rw [hid] at e
    omega
  constructor
  · exact Tracks.append h hnone rfl (hwindow _)
  · refine ⟨mem_append_right _ (mem_singleton.mpr rfl), ?_, congrArg Window.last (hwindow _)⟩
    rw [show (make t.nextId).firstSeenOn = _ from congrArg Window.first (hwindow _)]
    rfl

/-- **An ad-level row notes its date at the adset it finds or creates.** -/
theorem AdsetsTrack.upsertAdsetFromAdDaily (hinv : AdsetsInv t)
    (toLowerCase : String → String) (order : QueryOrder) (now : Nat) (row : ParsedMetaAdDailyRow) :
    AdsetsTrack (noted dates (upsertAdsetFromAdDaily toLowerCase order now row t).2.id row.metricDate)
        (upsertAdsetFromAdDaily toLowerCase order now row t).1 ∧
      SeenOn row.metricDate (upsertAdsetFromAdDaily toLowerCase order now row t).1
        (upsertAdsetFromAdDaily toLowerCase order now row t).2 := by
  unfold Meta.upsertAdsetFromAdDaily
  dsimp only
  split
  · rename_i existing e
    exact AdsetsTrack.seenAgain h (mem_of_find?_eq_some e) (fun a => rfl) (fun a => rfl)
  · split
    · rename_i legacy e
      have hm := (order.adsets_perm _).subset (mem_of_mem_head? (Option.mem_def.mpr e))
      exact AdsetsTrack.seenAgain h (mem_filter.mp hm).1 (fun a => rfl) (fun a => rfl)
    · exact h.create hinv (fun n => rfl) (fun n => rfl)

/-- **So does an adset-level row.** -/
theorem AdsetsTrack.upsertAdset (hinv : AdsetsInv t) (order : QueryOrder)
    (now : Nat) (row : ParsedMetaAdsetRow) :
    AdsetsTrack (noted dates (upsertAdset order now row t).2.id row.metricDate)
        (upsertAdset order now row t).1 ∧
      SeenOn row.metricDate (upsertAdset order now row t).1 (upsertAdset order now row t).2 := by
  unfold Meta.upsertAdset
  dsimp only
  split
  · rename_i existing e
    have hm : existing ∈ order.adsets (t.rows.filter fun adset =>
        decide (adset.adsetNameKey = row.adsetNameKey)) := by
      rcases Option.or_eq_some_iff.mp e with e | ⟨-, e⟩
      · exact mem_of_find?_eq_some e
      · exact mem_of_mem_head? (Option.mem_def.mpr e)
    exact AdsetsTrack.seenAgain h (mem_filter.mp ((order.adsets_perm _).subset hm)).1
      (fun a => rfl) (fun a => rfl)
  · exact h.create hinv (fun n => rfl) (fun n => rfl)

/-- The update after the match writes the window the upsert left. -/
theorem AdsetsTrack.matched {a : MetaAdset} (ha : SeenOn d t a)
    (productId : Option String) (stage : AdStage) :
    AdsetsTrack dates (t.update a.id (matchedAdset productId stage a.firstSeenOn d)) := by
  refine Tracks.map h fun b hb => ?_
  split
  · rename_i e
    refine ⟨rfl, ?_⟩
    have hw : b.window = a.window := by
      rw [(h.window_eq hb).2, (h.window_eq ha.mem).2, e]
    rw [hw]
    obtain ⟨x, hx⟩ := Option.isSome_iff_exists.mp ha.first
    show (⟨some (a.firstSeenOn.getD d), some d⟩ : Window Int) = ⟨a.firstSeenOn, a.lastSeenOn⟩
    rw [hx, ha.last]
    rfl
  · exact ⟨rfl, rfl⟩

theorem tracks_matchAdRow (hinv : AdsetsInv t) (toLowerCase : String → String)
    (env : ImportEnv) (row : ParsedMetaAdDailyRow) :
    AdsetsTrack (noted dates (matchAdRow toLowerCase env row t).metaAdsetId row.metricDate)
      (matchAdRow toLowerCase env row t).adsets := by
  obtain ⟨h1, h2⟩ := h.upsertAdsetFromAdDaily hinv toLowerCase env.order env.now row
  exact h1.matched h2 _ _

end

end Adsets

/-! ## 5. The other records -/

section Entities

variable {toUpperCase : String → String} {log : List Mention} {e : EntityTables}

/-- Creatives are known by their id as well as by their key. -/
def CreativesInv (t : Table Creative) : Prop :=
  KeyedIds Creative.id Creative.creativeKey t.nextId t.rows

/-- The creative `id` has the key `creativeKey`. -/
def IsCreative (t : Table Creative) (id : Nat) (creativeKey : String) : Prop :=
  HasId Creative.id Creative.creativeKey t.rows id creativeKey

variable {t : Table Creative}

/-- **A row finds the creative of its name or creates it**; no creative is lost. -/
theorem CreativesInv.upsert (h : CreativesInv t) (toUpperCase : String → String)
    (row : ParsedMetaAdDailyRow) :
    CreativesInv (upsertCreativeFromAdDaily toUpperCase row t).1.1 ∧
      (∀ id key, IsCreative t id key → IsCreative (upsertCreativeFromAdDaily toUpperCase row t).1.1 id key) ∧
      IsCreative (upsertCreativeFromAdDaily toUpperCase row t).1.1
        (upsertCreativeFromAdDaily toUpperCase row t).1.2.id
        (CreativeNameParser.parse toUpperCase row.adName).creativeKey ∧
      ∀ id key, IsCreative (upsertCreativeFromAdDaily toUpperCase row t).1.1 id key →
        IsCreative t id key ∨ key = (CreativeNameParser.parse toUpperCase row.adName).creativeKey := by
  unfold upsertCreativeFromAdDaily
  generalize CreativeNameParser.parse toUpperCase row.adName = parsedName
  exact KeyedIds.upsertBy h (fun r => decide_eq_true_iff) (fun r => ⟨rfl, rfl⟩) rfl rfl

section Writers

variable {row : ParsedMetaAdDailyRow}
variable {dates : String → List Int}

theorem tracks_upsertCampaign {t : Table MetaCampaign}
    (h : Tracks ends MetaCampaign.externalCampaignId MetaCampaign.window dates t.rows) :
    Tracks ends MetaCampaign.externalCampaignId MetaCampaign.window
      (noted dates row.metaCampaignId row.metricDate) (upsertCampaign row t).1.rows :=
  h.upsertBy ends_concat (fun _ => decide_eq_true_iff) (fun _ hr => hr) (fun _ => rfl) rfl rfl

def MetaAd.identity (a : MetaAd) : String × String × String :=
  (a.metaCampaignId, a.metaAdsetId, a.adIdentityKey)

theorem tracks_upsertAd {dates : String × String × String → List Int} {t : Table MetaAd}
    (h : Tracks extremes MetaAd.identity MetaAd.window dates t.rows)
    (campaignRefId metaAdsetRefId creativeId : Nat) :
    Tracks extremes MetaAd.identity MetaAd.window
      (noted dates (row.metaCampaignId, row.metaAdsetExternalId, row.adIdentityKey) row.metricDate)
      (upsertAd row campaignRefId metaAdsetRefId creativeId t).1.rows := by
  refine h.upsertBy extremes_concat (fun a => ?_) (fun _ hr => hr) (fun a => ?_) rfl rfl
  · simp [MetaAd.identity, and_assoc]
  · exact (widen_eq a.window _).symm

theorem tracks_upsertCreative (h : Tracks extremes Creative.creativeKey Creative.window dates t.rows)
    (toUpperCase : String → String) :
    Tracks extremes Creative.creativeKey Creative.window
      (noted dates (CreativeNameParser.parse toUpperCase row.adName).creativeKey row.metricDate)
      (upsertCreativeFromAdDaily toUpperCase row t).1.1.rows := by
  unfold upsertCreativeFromAdDaily
  generalize CreativeNameParser.parse toUpperCase row.adName = parsedName
  refine h.upsertBy extremes_concat (fun _ => decide_eq_true_iff) (fun _ hr => hr) (fun a => ?_) rfl rfl
  exact (widen_eq a.window _).symm

def CreativeAlias.identity (a : CreativeAlias) : Nat × String := (a.creativeId, a.originalKey)

theorem tracks_upsertCreativeAlias {dates : Nat × String → List Int} {aliases : List CreativeAlias}
    (h : Tracks extremes CreativeAlias.identity CreativeAlias.window dates aliases) (creativeId : Nat)
    (parsedName : CreativeNameParts) (seenOn : Int) :
    Tracks extremes CreativeAlias.identity CreativeAlias.window
      (noted dates (creativeId, creativeOriginalKey parsedName.originalName) seenOn)
      (upsertCreativeAlias creativeId parsedName seenOn aliases) := by
  refine h.upsertBy extremes_concat (fun a => ?_) (fun _ hr => hr) (fun a => ?_) rfl rfl
  · simp [CreativeAlias.identity]
  · exact (widen_eq a.window _).symm

def CreativePlacement.identity (p : CreativePlacement) : Nat × String × String × String :=
  (p.creativeId, p.metaCampaignId, p.metaAdsetId, p.originalAdName)

theorem tracks_upsertCreativePlacement {dates : Nat × String × String × String → List Int}
    {placements : List CreativePlacement}
    (h : Tracks extremes CreativePlacement.identity CreativePlacement.window dates placements)
    (creativeId : Nat) (parsedName : CreativeNameParts) (campaignRefId metaAdsetRefId metaAdRefId : Nat) :
    Tracks extremes CreativePlacement.identity CreativePlacement.window
      (noted dates (creativeId, row.metaCampaignId, row.metaAdsetExternalId, row.adName) row.metricDate)
      (upsertCreativePlacement creativeId row parsedName campaignRefId metaAdsetRefId metaAdRefId
        placements) := by
  refine h.upsertBy extremes_concat (fun p => ?_) (fun p hp => ?_) (fun p => ?_) rfl rfl
  · simp [CreativePlacement.identity, and_assoc]
  · unfold seenPlacement
    split
    · exact hp
    · exact hp
  · exact (widen_eq p.window _).symm

end Writers

variable (toUpperCase log) in
/-- The tables track the log. -/
structure Observed (e : EntityTables) : Prop where
  campaigns : Tracks ends MetaCampaign.externalCampaignId MetaCampaign.window
    (datesOf Mention.campaign? Mention.date log) e.campaigns.rows
  ads : Tracks extremes MetaAd.identity MetaAd.window
    (datesOf Mention.ad? Mention.date log) e.ads.rows
  creatives : Tracks extremes Creative.creativeKey Creative.window
    (datesOf (Mention.creative? toUpperCase) Mention.date log) e.creatives.rows
  aliases : Tracks extremes CreativeAlias.identity CreativeAlias.window
    (datesOf (Mention.alias? toUpperCase) Mention.date log) e.aliases
  placements : Tracks extremes CreativePlacement.identity CreativePlacement.window
    (datesOf Mention.placement? Mention.date log) e.placements
  creativesInv : CreativesInv e.creatives
  known : ∀ row metaAdsetId creativeId, Mention.ad row metaAdsetId creativeId ∈ log →
    IsCreative e.creatives creativeId (CreativeNameParser.parse toUpperCase row.adName).creativeKey

theorem Observed.empty : Observed toUpperCase [] emptyEntities where
  campaigns := Tracks.nil
  ads := Tracks.nil
  creatives := Tracks.nil
  aliases := Tracks.nil
  placements := Tracks.nil
  creativesInv := KeyedIds.nil
  known := fun _ _ _ h => (nomatch h)

/-- An adset-level row does not touch these tables. -/
theorem Observed.adset (h : Observed toUpperCase log e) (metaAdsetId : Nat) (metricDate : Int) :
    Observed toUpperCase (log ++ [.adset metaAdsetId metricDate]) e where
  campaigns := by rw [datesOf_concat_none (by rfl)]; exact h.campaigns
  ads := by rw [datesOf_concat_none (by rfl)]; exact h.ads
  creatives := by rw [datesOf_concat_none (by rfl)]; exact h.creatives
  aliases := by rw [datesOf_concat_none (by rfl)]; exact h.aliases
  placements := by rw [datesOf_concat_none (by rfl)]; exact h.placements
  creativesInv := h.creativesInv
  known := by
    intro row i c hm
    rcases mem_append.mp hm with hm | hm
    · exact h.known row i c hm
    · exact nomatch mem_singleton.mp hm

/-- **The records of an ad-level row.** -/
theorem Observed.writeEntities (h : Observed toUpperCase log e) (row : ParsedMetaAdDailyRow)
    (metaAdsetId : Nat) :
    Observed toUpperCase (log ++ [.ad row metaAdsetId (writeEntities toUpperCase row metaAdsetId e).2])
      (writeEntities toUpperCase row metaAdsetId e).1 := by
  obtain ⟨hinv, hkeep, hnew, -⟩ := h.creativesInv.upsert toUpperCase row
  refine ⟨?_, ?_, ?_, ?_, ?_, hinv, ?_⟩
  · rw [datesOf_concat]
    · exact tracks_upsertCampaign h.campaigns
    · rfl
    · rfl
  · rw [datesOf_concat]
    · exact tracks_upsertAd h.ads _ _ _
    · rfl
    · rfl
  · rw [datesOf_concat]
    · exact tracks_upsertCreative h.creatives toUpperCase
    · rfl
    · rfl
  · rw [datesOf_concat]
    · exact tracks_upsertCreativeAlias h.aliases _ _ _
    · rfl
    · rfl
  · rw [datesOf_concat]
    · exact tracks_upsertCreativePlacement h.placements _ _ _ _ _
    · rfl
    · rfl
  · intro row' i c hm
    rcases mem_append.mp hm with hm | hm
    · exact hkeep _ _ (h.known row' i c hm)
    · cases mem_singleton.mp hm
      exact hnew

end Entities

/-! ## 6. Runs -/

section Runs

variable {sha1 : Sha1} {toLowerCase toUpperCase : String → String} {log : List Mention}

variable (toUpperCase log) in
/-- Adsets and records track the log. -/
structure WorldObserved (t : AdsetTable) (e : EntityTables) : Prop extends
    Observed toUpperCase log e where
  adsets : AdsetsTrack (datesOf Mention.adset? Mention.date log) t
  adsetsInv : AdsetsInv t

variable {e : EntityTables}

/-- The column of the metrics is not a record. -/
theorem Observed.metricCreative (h : Observed toUpperCase log e) (metricCreative : Nat → Option Nat) :
    Observed toUpperCase log { e with metricCreative } :=
  ⟨h.campaigns, h.ads, h.creatives, h.aliases, h.placements, h.creativesInv, h.known⟩

theorem adTurn_adsets (env : ImportEnv) (policy : ConflictPolicy) (batchId : Nat) (state : AdLoop)
    (entry : Nat × ParsedAdDaily) :
    (adTurn toLowerCase env policy batchId state entry).adsets =
      match entry.2.parsedRow with
      | none => state.adsets
      | some row => (matchAdRow toLowerCase env row state.adsets).adsets := by
  unfold adTurn
  cases entry.2.parsedRow with
  | none => rfl
  | some row =>
    dsimp only
    split
    · rfl
    · rfl

variable (toLowerCase) in
section

variable (env : ImportEnv) (policy : ConflictPolicy) (batchId : Nat)

/-- **One row of an ad-level file.** -/
theorem WorldObserved.entityTurn (state : AdLoop × EntityTables) (entry : Nat × ParsedAdDaily)
    (h : WorldObserved toUpperCase log state.1.adsets state.2) :
    WorldObserved toUpperCase (log ++ adMention toLowerCase toUpperCase env state entry)
      (entityTurn toLowerCase toUpperCase env policy batchId state entry).1.adsets
      (entityTurn toLowerCase toUpperCase env policy batchId state entry).2 := by
  unfold Meta.entityTurn adMention entityRow
  rw [adTurn_adsets]
  cases entry.2.parsedRow with
  | none =>
    rw [append_nil]
    exact h
  | some row =>
    dsimp only
    have hadsets : AdsetsTrack (datesOf Mention.adset? Mention.date (log ++
        [.ad row (matchAdRow toLowerCase env row state.1.adsets).metaAdsetId
          (writeEntities toUpperCase row
            (matchAdRow toLowerCase env row state.1.adsets).metaAdsetId state.2).2]))
        (matchAdRow toLowerCase env row state.1.adsets).adsets := by
      rw [datesOf_concat]
      · exact tracks_matchAdRow h.adsets h.adsetsInv toLowerCase env row
      · rfl
      · rfl
    have hwritten := h.toObserved.writeEntities row
      (matchAdRow toLowerCase env row state.1.adsets).metaAdsetId
    have hinv := (matchAdRow_spec h.adsetsInv toLowerCase env row).1
    split
    · exact ⟨hwritten, hadsets, hinv⟩
    · exact ⟨hwritten.metricCreative _, hadsets, hinv⟩

theorem adsetTurn_adsets (state : AdsetLoop) (entry : Nat × RawRow × ParsedAdset) :
    (adsetTurn env policy batchId state entry).adsets =
      match entry.2.2.parsedRow with
      | none => state.adsets
      | some row =>
        let upserted := upsertAdset env.order env.now row state.adsets
        upserted.1.update upserted.2.id
          (matchedAdset (env.matchProduct upserted.2.id row.adsetName row.metricDate).productId
            (env.matchStage upserted.2.id row.adsetName row.metricDate).stage upserted.2.firstSeenOn
            row.metricDate) := by
  unfold adsetTurn
  cases entry.2.2.parsedRow with
  | none => rfl
  | some row =>
    dsimp only
    split
    · rfl
    · rfl

/-- **One row of an adset-level file.** -/
theorem WorldObserved.adsetTurn (state : AdsetLoop) (entry : Nat × RawRow × ParsedAdset)
    (h : WorldObserved toUpperCase log state.adsets e) :
    WorldObserved toUpperCase (log ++ adsetMention env state entry)
      (adsetTurn env policy batchId state entry).adsets e := by
  unfold adsetMention
  rw [adsetTurn_adsets]
  cases entry.2.2.parsedRow with
  | none =>
    rw [append_nil]
    exact h
  | some row =>
    obtain ⟨h1, h2⟩ := h.adsets.upsertAdset h.adsetsInv env.order env.now row
    refine ⟨h.toObserved.adset _ _, ?_, ?_⟩
    · rw [datesOf_concat]
      · exact h1.matched h2 _ _
      · rfl
      · rfl
    · exact ((h.adsetsInv.upsertAdset env.order env.now row).1.matched _ _ _ _ _).1

end

theorem StoreInv.runImport {world : World} (h : StoreInv world.store) (i : MetaImport) :
    StoreInv (i.run sha1 toLowerCase toUpperCase world).store := by
  cases i with
  | adDaily env policy file => exact h.importMetaAdDailyCsv
  | adset env policy file => exact h.importMetaAdsetCsv

/-- **One import.** -/
theorem WorldObserved.run (world : World) (i : MetaImport) (hstore : StoreInv world.store)
    (h : WorldObserved toUpperCase log world.store.adsets world.entities) :
    WorldObserved toUpperCase (log ++ i.mentions sha1 toLowerCase toUpperCase world)
      (i.run sha1 toLowerCase toUpperCase world).store.adsets
      (i.run sha1 toLowerCase toUpperCase world).entities := by
  cases i with
  | adDaily env policy file =>
    unfold MetaImport.mentions MetaImport.run World.importMetaAdDailyCsv
    dsimp only
    rcases importMetaAdDailyCsv_stored hstore.toBatchInv sha1 toLowerCase env policy file with
      ⟨hsame, hnot⟩ | ⟨batchId, hres, -, e⟩
    · rw [hsame.adsets]
      cases hout : (Meta.importMetaAdDailyCsv sha1 toLowerCase env policy file world.store).2 with
      | imported batchId errorCount => exact absurd hout (hnot batchId errorCount)
      | duplicate batchId | rejected batchId code | aborted batchId =>
        exact (append_nil log).symm ▸ h
    · rw [e]
      have hstart : WorldObserved toUpperCase log
          (adLoopStart batchId file (storedForRows env .AD policy file batchId world.store)).adsets
          world.entities := by
        show WorldObserved toUpperCase log (storedForRows env .AD policy file batchId world.store).adsets _
        rw [hres.adsets]
        exact h
      have hrun := logAlong_inv (I := fun log state => WorldObserved toUpperCase log state.1.adsets state.2)
        (fun log state entry => WorldObserved.entityTurn toLowerCase env policy batchId state entry)
        (numberedRows (parsedAdRows sha1 file)) log
        (adLoopStart batchId file (storedForRows env .AD policy file batchId world.store),
          world.entities) hstart
      rw [fst_foldl_entityTurn] at hrun
      exact hrun
  | adset env policy file =>
    unfold MetaImport.mentions MetaImport.run World.importMetaAdsetCsv
    dsimp only
    rcases importMetaAdsetCsv_stored hstore.toBatchInv toLowerCase env policy file with
      ⟨hsame, hnot⟩ | ⟨batchId, hres, e⟩
    · rw [hsame.adsets]
      cases hout : (Meta.importMetaAdsetCsv toLowerCase env policy file world.store).2 with
      | imported batchId errorCount => exact absurd hout (hnot batchId errorCount)
      | duplicate batchId | rejected batchId code | aborted batchId =>
        exact (append_nil log).symm ▸ h
    · rw [e]
      have hstart : WorldObserved toUpperCase log
          (adsetLoopStart (storedForRows env .ADSET policy file batchId world.store)).adsets
          world.entities := by
        show WorldObserved toUpperCase log (storedForRows env .ADSET policy file batchId world.store).adsets _
        rw [hres.adsets]
        exact h
      exact logAlong_inv (I := fun log state => WorldObserved toUpperCase log state.adsets world.entities)
        (fun log state entry => WorldObserved.adsetTurn env policy batchId state entry)
        (numberedRows (parsedAdsetRows toLowerCase file)) log _ hstart

variable (sha1 toLowerCase toUpperCase) in
/-- **The tables after any sequence of imports track its mentions.** -/
theorem worldObserved (imports : List MetaImport) :
    WorldObserved toUpperCase (mentionsOf sha1 toLowerCase toUpperCase imports)
      (worldAfter sha1 toLowerCase toUpperCase imports).store.adsets
      (worldAfter sha1 toLowerCase toUpperCase imports).entities := by
  have hempty : WorldObserved toUpperCase [] emptyWorld.store.adsets emptyWorld.entities :=
    ⟨Observed.empty, Tracks.nil, ⟨nodup_nil, fun _ h => absurd h not_mem_nil,
      fun _ h => absurd h not_mem_nil⟩⟩
  exact (logAlong_inv
    (I := fun log world => StoreInv world.store ∧
      WorldObserved toUpperCase log world.store.adsets world.entities)
    (fun log world i h => ⟨StoreInv.runImport h.1 i, WorldObserved.run world i h.1 h.2⟩) imports []
    emptyWorld ⟨StoreInv.empty, hempty⟩).2

/-! ## 7. The windows of a run -/

/-- Campaigns and adsets keep the first date they were given. -/
def EntityKey.keepsFirst : EntityKey → Bool
  | .campaign _ => true
  | .adset _ => true
  | .ad _ _ _ => false
  | .creative _ => false
  | .creativeAlias _ _ => false
  | .creativePlacement _ _ _ _ => false

/-- How the records of an entity sum its dates up. -/
def EntityKey.summary (key : EntityKey) (dates : List Int) : Window Int :=
  if key.keepsFirst then ends dates else extremes dates

variable {key : EntityKey}

theorem mentionDates_eq {κ : Type} [DecidableEq κ] (keyOf : Mention → Option κ) (k : κ)
    (h : ∀ m ∈ log, key ∈ m.keys toUpperCase ↔ keyOf m = some k) :
    mentionDates toUpperCase log key = datesOf keyOf Mention.date log k := by
  unfold mentionDates datesOf
  rw [filter_congr fun m hm => decide_eq_decide.mpr (h m hm)]

theorem exists_of_mentionDates (h : mentionDates toUpperCase log key ≠ []) :
    ∃ m ∈ log, key ∈ m.keys toUpperCase := by
  by_contra hno
  refine h (map_eq_nil_iff.mpr (filter_eq_nil_iff.mpr fun m hm => ?_))
  exact fun hk => hno ⟨m, hm, of_decide_eq_true hk⟩

variable {c : Creative}

section

variable (h : Observed toUpperCase log e) (hc : c ∈ e.creatives.rows)
include h hc

/-- A mention names the creative by its key where the tables name it by its id. -/
theorem Observed.creative_iff {row : ParsedMetaAdDailyRow} {metaAdsetId creativeId : Nat}
    (hm : Mention.ad row metaAdsetId creativeId ∈ log) :
    (CreativeNameParser.parse toUpperCase row.adName).creativeKey = c.creativeKey ↔ creativeId = c.id := by
  have hk := h.known row metaAdsetId creativeId hm
  constructor
  · intro e
    exact h.creativesInv.eq_id (e ▸ hk) ⟨c, hc, rfl, rfl⟩
  · intro e
    exact h.creativesInv.eq_key (e ▸ hk) ⟨c, hc, rfl, rfl⟩

theorem Observed.dates_alias (originalKey : String) :
    mentionDates toUpperCase log (.creativeAlias c.creativeKey originalKey) =
      datesOf (Mention.alias? toUpperCase) Mention.date log (c.id, originalKey) := by
  refine mentionDates_eq _ _ fun m hm => ?_
  cases m with
  | ad row metaAdsetId creativeId =>
    have hiff := h.creative_iff hc hm
    simp only [Mention.keys, Mention.alias?, mem_cons, not_mem_nil, reduceCtorEq, or_false,
      false_or, EntityKey.creativeAlias.injEq, Option.some.injEq, Prod.mk.injEq, ← hiff]
    exact and_congr eq_comm eq_comm
  | adset metaAdsetId metricDate => simp [Mention.keys, Mention.alias?]

theorem Observed.dates_placement (metaCampaignId metaAdsetId originalAdName : String) :
    mentionDates toUpperCase log (.creativePlacement c.creativeKey metaCampaignId metaAdsetId originalAdName) =
      datesOf Mention.placement? Mention.date log (c.id, metaCampaignId, metaAdsetId, originalAdName) := by
  refine mentionDates_eq _ _ fun m hm => ?_
  cases m with
  | ad row metaAdsetId creativeId =>
    have hiff := h.creative_iff hc hm
    simp only [Mention.keys, Mention.placement?, mem_cons, not_mem_nil, reduceCtorEq, or_false,
      false_or, EntityKey.creativePlacement.injEq, Option.some.injEq, Prod.mk.injEq, ← hiff]
    exact and_congr eq_comm (and_congr eq_comm (and_congr eq_comm eq_comm))
  | adset metaAdsetId metricDate => simp [Mention.keys, Mention.placement?]

end

/-- The creative of an alias or a placement that was mentioned is in the table. -/
theorem Observed.exists_creative (h : Observed toUpperCase log e) (creativeKey : String)
    (hdates : mentionDates toUpperCase log key ≠ [])
    (hkey : ∀ row metaAdsetId creativeId, key ∈ (Mention.ad row metaAdsetId creativeId).keys toUpperCase →
      (CreativeNameParser.parse toUpperCase row.adName).creativeKey = creativeKey)
    (hnot : ∀ id, key ≠ .adset id) : ∃ c ∈ e.creatives.rows, c.creativeKey = creativeKey := by
  obtain ⟨m, hm, hk⟩ := exists_of_mentionDates hdates
  cases m with
  | ad row metaAdsetId creativeId =>
    obtain ⟨c, hc, -, e⟩ := h.known row metaAdsetId creativeId hm
    exact ⟨c, hc, e.trans (hkey row metaAdsetId creativeId hk)⟩
  | adset metaAdsetId metricDate => exact absurd (mem_singleton.mp hk) (hnot metaAdsetId)

variable (sha1 toLowerCase toUpperCase) in
/-- **The windows after any sequence of imports.** -/
theorem hasWindow_iff (imports : List MetaImport) (key : EntityKey) (w : Window Int) :
    (worldAfter sha1 toLowerCase toUpperCase imports).HasWindow key w ↔
      mentionDates toUpperCase (mentionsOf sha1 toLowerCase toUpperCase imports) key ≠ [] ∧
        w = key.summary
          (mentionDates toUpperCase (mentionsOf sha1 toLowerCase toUpperCase imports) key) := by
  have h := worldObserved sha1 toLowerCase toUpperCase imports
  generalize mentionsOf sha1 toLowerCase toUpperCase imports = log at h ⊢
  cases key with
  | campaign externalCampaignId =>
    rw [mentionDates_eq Mention.campaign? externalCampaignId]
    · exact h.campaigns externalCampaignId w
    · intro m _
      cases m with
      | ad row i c => simp [Mention.keys, Mention.campaign?, eq_comm]
      | adset i d => simp [Mention.keys, Mention.campaign?]
  | adset id =>
    rw [mentionDates_eq Mention.adset? id]
    · exact h.adsets id w
    · intro m _
      cases m with
      | ad row i c | adset i d => simp [Mention.keys, Mention.adset?, eq_comm]
  | ad metaCampaignId metaAdsetId adIdentityKey =>
    rw [mentionDates_eq Mention.ad? (metaCampaignId, metaAdsetId, adIdentityKey)]
    · refine Iff.trans ?_ (h.ads (metaCampaignId, metaAdsetId, adIdentityKey) w)
      simp [World.HasWindow, MetaAd.identity]
    · intro m _
      cases m with
      | ad row i c => simp [Mention.keys, Mention.ad?, eq_comm]
      | adset i d => simp [Mention.keys, Mention.ad?]
  | creative creativeKey =>
    rw [mentionDates_eq (Mention.creative? toUpperCase) creativeKey]
    · exact h.creatives creativeKey w
    · intro m _
      cases m with
      | ad row i c => simp [Mention.keys, Mention.creative?, eq_comm]
      | adset i d => simp [Mention.keys, Mention.creative?]
  | creativeAlias creativeKey originalKey =>
    constructor
    · rintro ⟨c, hc, rfl, a, ha, hid, hw⟩
      rw [h.dates_alias hc]
      exact (h.aliases (c.id, originalKey) w).mp ⟨a, ha, Prod.ext hid.1 hid.2, hw⟩
    · rintro ⟨hdates, rfl⟩
      obtain ⟨c, hc, rfl⟩ := h.exists_creative creativeKey hdates
        (by intro row i c hk; simp [Mention.keys] at hk; exact hk.1.symm) (nofun)
      rw [h.dates_alias hc] at hdates ⊢
      obtain ⟨a, ha, hid, hw⟩ := (h.aliases (c.id, originalKey) _).mpr ⟨hdates, rfl⟩
      exact ⟨c, hc, rfl, a, ha, ⟨congrArg Prod.fst hid, congrArg Prod.snd hid⟩, hw⟩
  | creativePlacement creativeKey metaCampaignId metaAdsetId originalAdName =>
    constructor
    · rintro ⟨c, hc, rfl, p, hp, ⟨h1, h2, h3, h4⟩, hw⟩
      rw [h.dates_placement hc]
      exact (h.placements (c.id, metaCampaignId, metaAdsetId, originalAdName) w).mp
        ⟨p, hp, by rw [← h1, ← h2, ← h3, ← h4]; rfl, hw⟩
    · rintro ⟨hdates, rfl⟩
      obtain ⟨c, hc, rfl⟩ := h.exists_creative creativeKey hdates
        (by intro row i c hk; simp [Mention.keys] at hk; exact hk.1.symm) (nofun)
      rw [h.dates_placement hc] at hdates ⊢
      obtain ⟨p, hp, hid, hw⟩ :=
        (h.placements (c.id, metaCampaignId, metaAdsetId, originalAdName) _).mpr ⟨hdates, rfl⟩
      simp only [CreativePlacement.identity, Prod.mk.injEq] at hid
      exact ⟨c, hc, rfl, p, hp, hid, hw⟩

variable (sha1 toLowerCase toUpperCase) in
/-- The entities with a record are those that were mentioned, and every window runs from the least
    to the greatest date of the mentions. -/
def WindowsExact (imports : List MetaImport) : Prop :=
  ∀ key w, (worldAfter sha1 toLowerCase toUpperCase imports).HasWindow key w ↔
    mentionDates toUpperCase (mentionsOf sha1 toLowerCase toUpperCase imports) key ≠ [] ∧
      w = extremes (mentionDates toUpperCase (mentionsOf sha1 toLowerCase toUpperCase imports) key)

variable (sha1 toLowerCase toUpperCase) in
/-- Every campaign and every adset is mentioned with its least date first and its greatest last. -/
def SeenInOrder (imports : List MetaImport) : Prop :=
  ∀ key : EntityKey, key.keepsFirst = true →
    InOrder (mentionDates toUpperCase (mentionsOf sha1 toLowerCase toUpperCase imports) key)

/-- Rows that come in the order of their dates are in order for every entity. -/
theorem SeenInOrder.of_sorted {imports : List MetaImport}
    (h : ((mentionsOf sha1 toLowerCase toUpperCase imports).map Mention.date).Pairwise (· ≤ ·)) :
    SeenInOrder sha1 toLowerCase toUpperCase imports := by
  intro key _
  have hsub : (mentionDates toUpperCase (mentionsOf sha1 toLowerCase toUpperCase imports) key).Pairwise
      (· ≤ ·) := h.sublist (filter_sublist.map Mention.date)
  exact InOrder.of_sorted hsub

/-- **The windows are exact for the sequences that mention every campaign and every adset in order,
    and for no others; entities mentioned on the same dates, in whatever order, then have the same
    window.** -/
theorem observation_windows (sha1 : Sha1) (toLowerCase toUpperCase : String → String)
    (imports imports' : List MetaImport) :
    (WindowsExact sha1 toLowerCase toUpperCase imports ↔ SeenInOrder sha1 toLowerCase toUpperCase imports) ∧
    (SeenInOrder sha1 toLowerCase toUpperCase imports → SeenInOrder sha1 toLowerCase toUpperCase imports' →
      ∀ key key' w w', (worldAfter sha1 toLowerCase toUpperCase imports).HasWindow key w →
        (worldAfter sha1 toLowerCase toUpperCase imports').HasWindow key' w' →
        (mentionDates toUpperCase (mentionsOf sha1 toLowerCase toUpperCase imports) key).Perm
          (mentionDates toUpperCase (mentionsOf sha1 toLowerCase toUpperCase imports') key') → w = w') := by
  -- in order, the summary of an entity is the extremes whatever its kind
  have hsummary : ∀ imports, SeenInOrder sha1 toLowerCase toUpperCase imports → ∀ key : EntityKey,
      key.summary (mentionDates toUpperCase (mentionsOf sha1 toLowerCase toUpperCase imports) key) =
        extremes (mentionDates toUpperCase (mentionsOf sha1 toLowerCase toUpperCase imports) key) := by
    intro imports h key
    unfold EntityKey.summary
    split
    · next hk => exact (ends_eq_extremes_iff _).mpr (h key hk)
    · rfl
  refine ⟨⟨fun h key hk => ?_, fun h key w => ?_⟩, fun h h' key key' w w' hw hw' hperm => ?_⟩
  · by_cases hd : mentionDates toUpperCase (mentionsOf sha1 toLowerCase toUpperCase imports) key = []
    · rw [hd]
      exact fun d hd => absurd hd not_mem_nil
    · have hw := ((hasWindow_iff sha1 toLowerCase toUpperCase imports key _).mpr ⟨hd, rfl⟩)
      have he := ((h key _).mp hw).2
      unfold EntityKey.summary at he
      rw [if_pos hk] at he
      exact (ends_eq_extremes_iff _).mp he
  · rw [hasWindow_iff, hsummary imports h key]
  · rw [hasWindow_iff] at hw hw'
    rw [hw.2, hw'.2, hsummary imports h key, hsummary imports' h' key']
    exact extremes_perm hperm

end Runs

/-! ## 8. Two files -/

/-- An import of one row of the ad `7`. -/
def importOfDay (fileHashSha256 date : String) : MetaImport :=
  .adDaily sampleEnv .SKIP (sampleFile fileHashSha256 [sampleRow date "7" "1"])

/-- The days in order. -/
theorem observation_windows_two_days :
    WindowsExact sampleSha1 asciiLowerCase asciiUpperCase
        [importOfDay "g" "2026-01-05", importOfDay "h" "2026-01-06"] ∧
      ∀ w w', (worldAfter sampleSha1 asciiLowerCase asciiUpperCase
          [importOfDay "g" "2026-01-05", importOfDay "h" "2026-01-06"]).HasWindow (.campaign "1") w →
        (worldAfter sampleSha1 asciiLowerCase asciiUpperCase
          [importOfDay "g" "2026-01-05", importOfDay "h" "2026-01-06"]).HasWindow (.adset 0) w' → w = w' := by
  have hsorted : SeenInOrder sampleSha1 asciiLowerCase asciiUpperCase
      [importOfDay "g" "2026-01-05", importOfDay "h" "2026-01-06"] :=
    SeenInOrder.of_sorted (by decide +kernel)
  have h := observation_windows sampleSha1 asciiLowerCase asciiUpperCase
    [importOfDay "g" "2026-01-05", importOfDay "h" "2026-01-06"]
    [importOfDay "g" "2026-01-05", importOfDay "h" "2026-01-06"]
  exact ⟨h.1.mpr hsorted, fun w w' hw hw' =>
    h.2 hsorted hsorted (.campaign "1") (.adset 0) w w' hw hw' (by decide +kernel)⟩

/-- The later day first: the campaign and the adset end before they begin. -/
theorem late_file_first :
    (worldAfter sampleSha1 asciiLowerCase asciiUpperCase
        [importOfDay "h" "2026-01-06", importOfDay "g" "2026-01-05"]).entities.campaigns.rows.map (·.window) =
        [⟨some 20459, some 20458⟩] ∧
      (worldAfter sampleSha1 asciiLowerCase asciiUpperCase
        [importOfDay "h" "2026-01-06", importOfDay "g" "2026-01-05"]).store.adsets.rows.map (·.window) =
        [⟨some 20459, some 20458⟩] ∧
      (worldAfter sampleSha1 asciiLowerCase asciiUpperCase
        [importOfDay "g" "2026-01-05", importOfDay "h" "2026-01-06"]).entities.campaigns.rows.map (·.window) =
        [⟨some 20458, some 20459⟩] ∧
      ¬ WindowsExact sampleSha1 asciiLowerCase asciiUpperCase
        [importOfDay "h" "2026-01-06", importOfDay "g" "2026-01-05"] := by
  have hrows : (worldAfter sampleSha1 asciiLowerCase asciiUpperCase
      [importOfDay "h" "2026-01-06", importOfDay "g" "2026-01-05"]).entities.campaigns.rows.map
        (fun c => (c.externalCampaignId, c.window)) = [("1", ⟨some 20459, some 20458⟩)] := by decide +kernel
  have hdates : extremes (mentionDates asciiUpperCase (mentionsOf sampleSha1 asciiLowerCase asciiUpperCase
      [importOfDay "h" "2026-01-06", importOfDay "g" "2026-01-05"]) (.campaign "1")) =
        ⟨some 20458, some 20459⟩ := by decide +kernel
  refine ⟨by decide +kernel, by decide +kernel, by decide +kernel, fun h => ?_⟩
  have hm : ("1", (⟨some 20459, some 20458⟩ : Window Int)) ∈
      (worldAfter sampleSha1 asciiLowerCase asciiUpperCase
        [importOfDay "h" "2026-01-06", importOfDay "g" "2026-01-05"]).entities.campaigns.rows.map
          (fun c => (c.externalCampaignId, c.window)) := by
    rw [hrows]
    exact mem_singleton.mpr rfl
  obtain ⟨c, hc, e⟩ := mem_map.mp hm
  have hexact := ((h (.campaign "1") ⟨some 20459, some 20458⟩).mp
    ⟨c, hc, congrArg Prod.fst e, congrArg Prod.snd e⟩).2
  exact absurd hexact (by decide)

end AdsManagement.Meta
