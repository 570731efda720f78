/-
  File:      Meta/Entities.lean
  Subject:   CAMPAIGNS, ADS AND CREATIVES: the records an ad-level import writes beside adsets and
             metrics (uploads/meta-entity-writer.service.ts, domain/creative-name-parser.ts,
             uploads/upload-keys.ts, uploads/meta-ad-daily-import.service.ts).

  Every row of a file that could be read writes its records, also a row with issues and a row whose
  metric is skipped; the version of the metric is decided afterwards. The records stand beside the
  metric store in a `World`: the loop over the rows runs both side by side, and its first component
  is the loop of MetricStore (`fst_foldl_entityTurn`). The column `creativeId` of the ad metrics
  is `metricCreative`, by the id of the metric.

  * `CreativeNameParser.parse` -- the creative an ad name belongs to;
  * `upsertCampaign`, `upsertCreativeFromAdDaily`, `upsertAd`, `upsertCreativeAlias`,
    `upsertCreativePlacement` -- the writers;
  * `entityTurn`, `World.importMetaAdDailyCsv`, `World.importMetaAdsetCsv` -- the imports.
-/
import AdsManagement.Lib.SeenWindows
import AdsManagement.Meta.AdImport

namespace AdsManagement.Meta

open Common Lib Coupang

/-! ## 1. Names of creatives -/

inductive CreativeParseStatus where
  | PARSED
  | FALLBACK
deriving DecidableEq

structure CreativeNameParts where
  originalName : String
  dateCode : Option String
  productName : Option String
  materialNo : Option String
  setting : Option String
  creativeKey : String
  displayName : String
  parseStatus : CreativeParseStatus

namespace CreativeNameParser

def SETTING_SUFFIXES : List String := ["IG", "FB", "IG+FB", "FB+IG"]

def METHOD_TOKENS : List String := ["인플연동"]

def isDigits (chars : List Char) : Bool := chars != [] && chars.all fun c => '0' ≤ c && c ≤ '9'

/-- Four, six or eight digits. -/
def isDatePrefix (value : String) : Bool :=
  isDigits value.toList && [4, 6, 8].contains value.toList.length

def isMethodToken (value : String) : Bool := METHOD_TOKENS.contains value

/-- `/^[A-Z]?\d+$/i` or `/^\d+번소재$/i`. -/
def isMaterialNo (value : String) : Bool :=
  let chars := value.toList
  let letter := chars.head?.any fun c => ('A' ≤ c && c ≤ 'Z') || ('a' ≤ c && c ≤ 'z')
  isDigits (if letter then chars.tail else chars) ||
    (chars.drop (chars.length - 3) == "번소재".toList && isDigits (chars.take (chars.length - 3)))

variable (toUpperCase : String → String)

def isSettingSuffix (value : String) : Bool := SETTING_SUFFIXES.contains (toUpperCase value)

def parse (adName : String) : CreativeNameParts :=
  let originalName := trim adName
  let parts := ((originalName.toList.splitOn '_').map fun part => trim (String.ofList part)).filter (· != "")
  let dateCode := parts.head?.filter isDatePrefix
  let parts := if dateCode.isSome then parts.tail else parts
  let suffix := parts.getLast?.filter (isSettingSuffix toUpperCase)
  let parts := if suffix.isSome then parts.dropLast else parts
  let method := parts.find? isMethodToken
  let parts := parts.filter fun part => !isMethodToken part
  -- a last part after the number of the material names the setting
  let trailing := suffix.isNone && dateCode.isSome && 3 ≤ parts.length &&
    parts.dropLast.getLast?.any isMaterialNo && !parts.getLast?.any isMaterialNo
  let setting := if trailing then parts.getLast? else suffix.map toUpperCase
  let parts := if trailing then parts.dropLast else parts
  if parts.length < 2 then
    { originalName
      dateCode
      productName := some (parts.head?.getD originalName)
      materialNo := none
      setting := setting.or method
      creativeKey := originalName
      displayName := originalName
      parseStatus := .FALLBACK }
  else
    let materialNo := parts.getLast?.getD ""
    let productName := String.intercalate "_" parts.dropLast
    let creativeKey := productName ++ "_" ++ materialNo
    { originalName
      dateCode
      productName := some productName
      materialNo := some materialNo
      setting := setting.or method
      creativeKey
      displayName := creativeKey
      parseStatus := .PARSED }

end CreativeNameParser

def creativeOriginalKey (originalName : String) : String := trim originalName

/-! ## 2. The tables -/

/-- Rows with ids; an id is drawn once. -/
structure Table (ρ : Type) where
  rows : List ρ
  nextId : Nat

def Table.upsert {ρ : Type} (hit : ρ → Bool) (change : ρ → ρ) (make : Nat → ρ) (table : Table ρ) :
    Table ρ × ρ :=
  let result := upsertBy hit change (make table.nextId) table.rows
  (⟨result.1, table.nextId + 1⟩, result.2)

structure MetaCampaign where
  id : Nat
  externalCampaignId : String
  campaignName : String
  firstSeenOn : Option Int
  lastSeenOn : Option Int

structure MetaAd where
  id : Nat
  campaignRefId : Nat
  metaAdsetRefId : Nat
  creativeId : Option Nat
  metaCampaignId : String
  metaAdsetId : String
  externalAdId : Option String
  syntheticAdKey : String
  adIdentityKey : String
  adName : String
  firstSeenOn : Option Int
  lastSeenOn : Option Int

structure Creative where
  id : Nat
  creativeKey : String
  displayName : String
  productName : Option String
  materialNo : Option String
  firstSeenOn : Option Int
  lastSeenOn : Option Int
  isActive : Bool

structure CreativeAlias where
  creativeId : Nat
  originalKey : String
  originalName : String
  dateCode : Option String
  setting : Option String
  parseStatus : CreativeParseStatus
  firstSeenOn : Option Int
  lastSeenOn : Option Int

structure CreativePlacement where
  creativeId : Nat
  metaCampaignId : String
  metaAdsetId : String
  originalAdName : String
  campaignRefId : Nat
  metaAdsetRefId : Nat
  metaAdRefId : Nat
  campaignName : String
  adsetName : String
  setting : Option String
  lastStatus : Option String
  firstSeenOn : Option Int
  lastSeenOn : Option Int

structure EntityTables where
  campaigns : Table MetaCampaign
  ads : Table MetaAd
  creatives : Table Creative
  aliases : List CreativeAlias
  placements : List CreativePlacement
  /-- `creativeId` of the ad metrics, by the id of the metric. -/
  metricCreative : Nat → Option Nat

def emptyEntities : EntityTables := ⟨⟨[], 0⟩, ⟨[], 0⟩, ⟨[], 0⟩, [], [], fun _ => none⟩

/-! ## 3. The writers -/

/-- The campaign keeps its first date and takes every date as its last. -/
def upsertCampaign (row : ParsedMetaAdDailyRow) (table : Table MetaCampaign) :
    Table MetaCampaign × MetaCampaign :=
  table.upsert (fun campaign => campaign.externalCampaignId = row.metaCampaignId)
    (fun existing =>
      { existing with
        campaignName := row.campaignName
        firstSeenOn := some (existing.firstSeenOn.getD row.metricDate)
        lastSeenOn := some row.metricDate })
    fun id =>
      { id
        externalCampaignId := row.metaCampaignId
        campaignName := row.campaignName
        firstSeenOn := some row.metricDate
        lastSeenOn := some row.metricDate }

def upsertCreativeFromAdDaily (toUpperCase : String → String) (row : ParsedMetaAdDailyRow)
    (table : Table Creative) : (Table Creative × Creative) × CreativeNameParts :=
  let parsedName := CreativeNameParser.parse toUpperCase row.adName
  (table.upsert (fun creative => creative.creativeKey = parsedName.creativeKey)
    (fun existing =>
      { existing with
        displayName := parsedName.displayName
        productName := parsedName.productName
        materialNo := parsedName.materialNo
        firstSeenOn := Cafe24.minDate existing.firstSeenOn row.metricDate
        lastSeenOn := Cafe24.maxDate existing.lastSeenOn row.metricDate
        isActive := true })
    (fun id =>
      { id
        creativeKey := parsedName.creativeKey
        displayName := parsedName.displayName
        productName := parsedName.productName
        materialNo := parsedName.materialNo
        firstSeenOn := some row.metricDate
        lastSeenOn := some row.metricDate
        isActive := true }), parsedName)

def upsertCreativeAlias (creativeId : Nat) (parsedName : CreativeNameParts) (seenOn : Int)
    (aliases : List CreativeAlias) : List CreativeAlias :=
  let originalKey := creativeOriginalKey parsedName.originalName
  (upsertBy (fun existing => existing.creativeId = creativeId && existing.originalKey = originalKey)
    (fun existing =>
      { existing with
        originalName := parsedName.originalName
        dateCode := parsedName.dateCode
        setting := parsedName.setting
        parseStatus := parsedName.parseStatus
        firstSeenOn := Cafe24.minDate existing.firstSeenOn seenOn
        lastSeenOn := Cafe24.maxDate existing.lastSeenOn seenOn })
    { creativeId
      originalKey
      originalName := parsedName.originalName
      dateCode := parsedName.dateCode
      setting := parsedName.setting
      parseStatus := parsedName.parseStatus
      firstSeenOn := some seenOn
      lastSeenOn := some seenOn } aliases).1

/-- The other columns of a placement follow the latest observation. -/
def seenPlacement (isLatestObservation : Bool) (data existing : CreativePlacement) : CreativePlacement :=
  if isLatestObservation then
    { data with
      creativeId := existing.creativeId
      metaCampaignId := existing.metaCampaignId
      metaAdsetId := existing.metaAdsetId
      originalAdName := existing.originalAdName
      firstSeenOn := existing.firstSeenOn }
  else existing

def upsertCreativePlacement (creativeId : Nat) (row : ParsedMetaAdDailyRow)
    (parsedName : CreativeNameParts) (campaignRefId metaAdsetRefId metaAdRefId : Nat)
    (placements : List CreativePlacement) : List CreativePlacement :=
  let data : CreativePlacement :=
    { creativeId
      metaCampaignId := row.metaCampaignId
      metaAdsetId := row.metaAdsetExternalId
      originalAdName := row.adName
      campaignRefId
      metaAdsetRefId
      metaAdRefId
      campaignName := row.campaignName
      adsetName := row.adsetName
      setting := parsedName.setting
      lastStatus := row.adDeliveryStatus
      firstSeenOn := some row.metricDate
      lastSeenOn := some row.metricDate }
  (upsertBy (fun existing => existing.creativeId = creativeId &&
      existing.metaCampaignId = row.metaCampaignId && existing.metaAdsetId = row.metaAdsetExternalId &&
      existing.originalAdName = row.adName)
    (fun existing =>
      { seenPlacement (existing.lastSeenOn.all fun date => date ≤ row.metricDate) data existing with
        firstSeenOn := Cafe24.minDate existing.firstSeenOn row.metricDate
        lastSeenOn := Cafe24.maxDate existing.lastSeenOn row.metricDate })
    data placements).1

def upsertAd (row : ParsedMetaAdDailyRow) (campaignRefId metaAdsetRefId creativeId : Nat)
    (table : Table MetaAd) : Table MetaAd × MetaAd :=
  table.upsert (fun existing => existing.metaCampaignId = row.metaCampaignId &&
      existing.metaAdsetId = row.metaAdsetExternalId && existing.adIdentityKey = row.adIdentityKey)
    (fun existing =>
      { existing with
        campaignRefId
        metaAdsetRefId
        creativeId := some creativeId
        externalAdId := row.metaAdId
        syntheticAdKey := row.syntheticAdKey
        adName := row.adName
        firstSeenOn := Cafe24.minDate existing.firstSeenOn row.metricDate
        lastSeenOn := Cafe24.maxDate existing.lastSeenOn row.metricDate })
    fun id =>
      { id
        campaignRefId
        metaAdsetRefId
        creativeId := some creativeId
        metaCampaignId := row.metaCampaignId
        metaAdsetId := row.metaAdsetExternalId
        externalAdId := row.metaAdId
        syntheticAdKey := row.syntheticAdKey
        adIdentityKey := row.adIdentityKey
        adName := row.adName
        firstSeenOn := some row.metricDate
        lastSeenOn := some row.metricDate }

/-- All records of a row; its creative comes with the tables. -/
def writeEntities (toUpperCase : String → String) (row : ParsedMetaAdDailyRow) (metaAdsetId : Nat)
    (entities : EntityTables) : EntityTables × Nat :=
  let campaign := upsertCampaign row entities.campaigns
  let creativeResult := upsertCreativeFromAdDaily toUpperCase row entities.creatives
  let creativeId := creativeResult.1.2.id
  let metaAd := upsertAd row campaign.2.id metaAdsetId creativeId entities.ads
  ({ entities with
      campaigns := campaign.1
      ads := metaAd.1
      creatives := creativeResult.1.1
      aliases := upsertCreativeAlias creativeId creativeResult.2 row.metricDate entities.aliases
      placements := upsertCreativePlacement creativeId row creativeResult.2 campaign.2.id metaAdsetId
        metaAd.2.id entities.placements }, creativeId)

/-! ## 4. Imports -/

structure World where
  store : MetaStore
  entities : EntityTables

def emptyWorld : World := ⟨emptyStore, emptyEntities⟩

section Imports

variable (sha1 : Sha1) (toLowerCase toUpperCase : String → String)

section

variable (env : ImportEnv) (policy : ConflictPolicy)

/-- What a row makes of the records; a metric that is stored takes the next id. -/
def entityRow (state : AdLoop) (parsed : ParsedAdDaily) (entities : EntityTables) : EntityTables :=
  match parsed.parsedRow with
  | none => entities
  | some row =>
    let written := writeEntities toUpperCase row (matchAdRow toLowerCase env row state.adsets).metaAdsetId
      entities
    let decision := resolve policy (currentRow (adMetricKey row) state.adMetrics.rows).isSome
    if parsed.issues.length > 0 ∨ decision.importMetric = false then written.1
    else
      { written.1 with
        metricCreative := fun id =>
          if id = state.adMetrics.nextId then some written.2 else entities.metricCreative id }

/-- One turn of the loop, with the records. -/
def entityTurn (batchId : Nat)
    (state : AdLoop × EntityTables) (entry : Nat × ParsedAdDaily) : AdLoop × EntityTables :=
  (adTurn toLowerCase env policy batchId state.1 entry,
    entityRow toLowerCase toUpperCase env policy state.1 entry.2 state.2)

/-- The records run beside the loop of the metrics. -/
theorem fst_foldl_entityTurn (batchId : Nat)
    (entries : List (Nat × ParsedAdDaily)) (state : AdLoop × EntityTables) :
    (entries.foldl (entityTurn toLowerCase toUpperCase env policy batchId) state).1 =
      entries.foldl (adTurn toLowerCase env policy batchId) state.1 := by
  induction entries generalizing state with
  | nil => rfl
  | cons entry rest ih => exact ih _

/-- The records are written in the transaction of the rows, and with it they stay or go. -/
def World.importMetaAdDailyCsv (file : MetaCsvFile) (world : World) : World :=
  let result := Meta.importMetaAdDailyCsv sha1 toLowerCase env policy file world.store
  { store := result.1
    entities :=
      match result.2 with
      | .imported batchId _ =>
        ((numberedRows (parsedAdRows sha1 file)).foldl
          (entityTurn toLowerCase toUpperCase env policy batchId)
          (adLoopStart batchId file (storedForRows env .AD policy file batchId world.store),
            world.entities)).2
      | _ => world.entities }

/-- An adset-level file writes adsets only. -/
def World.importMetaAdsetCsv (file : MetaCsvFile) (world : World) : World :=
  { world with store := (Meta.importMetaAdsetCsv toLowerCase env policy file world.store).1 }

end

end Imports

end AdsManagement.Meta
