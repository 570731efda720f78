/-
  File:      Meta/Csv.lean
  Subject:   THE META REPORTS: rows of the ad-level and the adset-level file and how they are
             read (domain/meta-ad-daily-csv.ts, domain/meta-csv.ts, domain/adset-name-normalizer.ts).

  A file is what the csv library makes of its text: headers and rows of named cells. A check
  returns its value with the issues it pushes; `parseRow` collects them in the order of the
  source. The digest of `createHash("sha1")` is handed in.

  * `MetaAdDailyCsvParser.parseRow`, `MetaCsvParser.parseRow` -- the two row parsers;
  * `dailyAdMetricKey`, `syntheticAdKey` -- the keys of an ad-level row.
-/
import AdsManagement.Coupang.SalesFacts
import AdsManagement.Cafe24.Csv

namespace AdsManagement.Meta

open Common Coupang

/-! ## 1. Cells and checks -/

structure MetaCsvFile where
  fileHashSha256 : String
  headers : List String
  rows : List RawRow

/-- `rawRow[columnName]`. -/
def cell (rawRow : RawRow) (columnName : String) : Option String := Cafe24.cell rawRow columnName

def hasOwnColumn (rawRow : RawRow) (columnName : String) : Bool := (cell rawRow columnName).isSome

def textValue (value : Option String) : Option String := (value.map trim).filter (· != "")

def columnIssue (rawRow : RawRow) (columnName errorCode message : String) : ParseIssue where
  columnName := columnName
  errorCode := errorCode
  message := message
  rawValue := cell rawRow columnName

section

variable (rawRow : RawRow) (columnName : String)

def invalidDate : ParseIssue :=
  columnIssue rawRow columnName "INVALID_DATE" (columnName ++ " 날짜 형식이 올바르지 않습니다.")

def invalidNumber : ParseIssue :=
  columnIssue rawRow columnName "INVALID_NUMBER" (columnName ++ " 숫자 형식이 올바르지 않습니다.")

def negativeNumber : ParseIssue :=
  columnIssue rawRow columnName "NEGATIVE_NUMBER" (columnName ++ "은 음수일 수 없습니다.")

def requiredDate : Option Int × List ParseIssue :=
  match toDateOnly (cell rawRow columnName) with
  | some date => (some date, [])
  | none => (none, [invalidDate rawRow columnName])

def requiredText : Option String × List ParseIssue :=
  match textValue (cell rawRow columnName) with
  | some value => (some value, [])
  | none => (none, [columnIssue rawRow columnName "REQUIRED" (columnName ++ "은 필수입니다.")])

end

/-- The missing columns of a file, its headers trimmed and without a byte order mark. -/
def missingColumns (required headers : List String) : List String :=
  let headerSet := headers.map fun header => trimChars (Cafe24.stripBom header.toList)
  required.filter fun column => !headerSet.contains column.toList

/-! ## 2. The columns of both levels -/

/-- The columns that go from a row into its metric as they are. -/
structure PlainColumns where
  dateStart : Int
  dateEnd : Int
  attributionSetting : Option String
  resultIndicator : Option String
  reach : Int
  adsetBudgetLabel : Option String
  adsetBudgetType : Option String
  endStatus : Option String
  impressions : Int
  linkClicks : Int
  shopClicks : Int
  clicksAll : Int
  landingPageViews : Int

/-- The columns that the rows of both levels have. -/
structure ReportColumns extends PlainColumns where
  metricDate : Int
  resultCount : Int
  frequency : Option ℚ
  costPerResultUsd : Option ℚ
  spendUsd : ℚ
  cpmUsd : Option ℚ
  cpcLinkUsd : Option ℚ
  ctrLinkPct : Option ℚ
  ctrAllPct : Option ℚ
  cpcAllUsd : Option ℚ
  costPerLandingPageViewUsd : Option ℚ

section Columns

-- A negative number is an issue of the ad-level file only.
variable (nonNegative : Bool) (rawRow : RawRow) (columnName : String)

/-- `count(rawRow, columnName, issues, true)`; a count is its `truncNumber`. -/
def readNumber : ℚ × List ParseIssue :=
  match parseNumberValue (cell rawRow columnName) (some 0) with
  | none => (0, [invalidNumber rawRow columnName])
  | some parsed =>
    if nonNegative && parsed < 0 then (0, [negativeNumber rawRow columnName]) else (parsed, [])

def readCount : Int × List ParseIssue :=
  (truncNumber (readNumber nonNegative rawRow columnName).1,
    (readNumber nonNegative rawRow columnName).2)

def readOptionalNumber : Option ℚ × List ParseIssue :=
  match parseNumberValue (cell rawRow columnName) none with
  | none =>
    (none, if (textValue (cell rawRow columnName)).isSome then [invalidNumber rawRow columnName] else [])
  | some parsed =>
    if nonNegative && parsed < 0 then (none, [negativeNumber rawRow columnName]) else (some parsed, [])

def readColumns (dateStart dateEnd : Int) : ReportColumns :=
  let count (columnName : String) := (readCount nonNegative rawRow columnName).1
  let optionalNumber (columnName : String) := (readOptionalNumber nonNegative rawRow columnName).1
  { dateStart
    dateEnd
    metricDate := dateStart
    attributionSetting := textValue (cell rawRow "기여 설정")
    resultCount := count "결과"
    resultIndicator := textValue (cell rawRow "결과 표시 도구")
    reach := count "도달"
    frequency := optionalNumber "빈도"
    costPerResultUsd := optionalNumber "결과당 비용"
    adsetBudgetLabel := textValue (cell rawRow "광고 세트 예산")
    adsetBudgetType := textValue (cell rawRow "광고 세트 예산 유형")
    spendUsd := (readNumber nonNegative rawRow "지출 금액 (USD)").1
    endStatus := textValue (cell rawRow "종료")
    impressions := count "노출"
    cpmUsd := optionalNumber "CPM(1,000회 노출당 비용) (USD)"
    linkClicks := count "링크 클릭"
    shopClicks := count "shop_clicks"
    cpcLinkUsd := optionalNumber "CPC(링크 클릭당 비용) (USD)"
    ctrLinkPct := optionalNumber "CTR(링크 클릭률)"
    clicksAll := count "클릭(전체)"
    ctrAllPct := optionalNumber "CTR(전체)"
    cpcAllUsd := optionalNumber "CPC(전체) (USD)"
    landingPageViews := count "랜딩 페이지 조회"
    costPerLandingPageViewUsd := optionalNumber "랜딩 페이지 조회당 비용 (USD)" }

/-- The issues of the numbers that are read before the row is built, but for the first two. -/
def numberIssues : List ParseIssue :=
  ["노출", "링크 클릭", "shop_clicks", "클릭(전체)", "랜딩 페이지 조회", "지출 금액 (USD)"].flatMap
    fun columnName => (readNumber nonNegative rawRow columnName).2

/-- The issues of the numbers that are read while the row is built. -/
def optionalIssues : List ParseIssue :=
  ["빈도", "결과당 비용", "CPM(1,000회 노출당 비용) (USD)", "CPC(링크 클릭당 비용) (USD)",
    "CTR(링크 클릭률)", "CTR(전체)", "CPC(전체) (USD)", "랜딩 페이지 조회당 비용 (USD)"].flatMap
    fun columnName => (readOptionalNumber nonNegative rawRow columnName).2

end Columns

/-! ## 3. The ad-level row -/

def META_VIDEO_PLAY_COLUMNS : List String :=
  ["동영상 3초 이상 재생", "동영상 25% 재생", "동영상 50% 재생", "동영상 75% 재생", "동영상 100% 재생"]

def META_AD_DAILY_REQUIRED_COLUMNS : List String :=
  ["보고 시작", "보고 종료", "캠페인 이름", "캠페인 ID", "광고 세트 이름", "광고 세트 ID", "광고 이름",
    "광고 게재", "지출 금액 (USD)", "노출"]

def META_AD_DAILY_RECOMMENDED_COLUMNS : List String :=
  ["결과", "결과 표시 도구", "링크 클릭", "랜딩 페이지 조회", "CPC(링크 클릭당 비용) (USD)",
    "CTR(링크 클릭률)", "도달", "장바구니에 담기"]

/-- `createHash("sha1").update(text).digest("hex")`: 40 hexadecimal digits. -/
structure Sha1 where
  digest : String → String
  hex : ∀ text, (digest text).length = 40 ∧
    ∀ c ∈ (digest text).toList, c ∈ "0123456789abcdef".toList

/-- The form of a digest, checked. -/
theorem isHexDigest {s : String}
    (h : (decide (s.length = 40) && s.toList.all fun c => decide (c ∈ "0123456789abcdef".toList)) = true) :
    s.length = 40 ∧ ∀ c ∈ s.toList, c ∈ "0123456789abcdef".toList := by
  simp only [Bool.and_eq_true, List.all_eq_true, decide_eq_true_eq] at h
  exact h

structure ParsedMetaAdDailyRow extends ReportColumns where
  campaignName : String
  metaCampaignId : String
  adsetName : String
  metaAdsetExternalId : String
  adName : String
  metaAdId : Option String
  syntheticAdKey : String
  adIdentityKey : String
  adDeliveryStatus : Option String
  purchaseCount : Int
  /-- One entry for each of `META_VIDEO_PLAY_COLUMNS`. -/
  videoPlayCounts : List (Option Int)
  addToCartCount : Option Int
  qualityRanking : Option String
  engagementRateRanking : Option String
  conversionRateRanking : Option String

structure ParsedAdDaily where
  parsedRow : Option ParsedMetaAdDailyRow
  issues : List ParseIssue

def syntheticAdKey (sha1 : Sha1) (metaCampaignId metaAdsetId adName : String) : String :=
  sha1.digest (metaCampaignId ++ "|" ++ metaAdsetId ++ "|" ++ adName)

def isPurchaseResult (resultIndicator : Option String) : Bool :=
  if isTruthy resultIndicator then
    let normalized := (resultIndicator.getD "").toList.map lowerChar
    includesText normalized "purchase" || includesText normalized "구매" ||
      includesText normalized "offsite_conversion.custom."
  else false

namespace MetaAdDailyCsvParser

def count (rawRow : RawRow) (columnName : String) : Int × List ParseIssue :=
  readCount true rawRow columnName

def videoPlayCounts (rawRow : RawRow) : List (Option Int × List ParseIssue) :=
  let rowHasAnyVideoValue := META_VIDEO_PLAY_COLUMNS.any fun csvColumn =>
    (textValue (cell rawRow csvColumn)).isSome
  META_VIDEO_PLAY_COLUMNS.map fun csvColumn =>
    if !hasOwnColumn rawRow csvColumn || !rowHasAnyVideoValue then (none, [])
    else if (textValue (cell rawRow csvColumn)).isNone then (some 0, [])
    else (some (count rawRow csvColumn).1, (count rawRow csvColumn).2)

def optionalCount (rawRow : RawRow) (columnName : String) : Option Int × List ParseIssue :=
  if !hasOwnColumn rawRow columnName then (none, [])
  else if (textValue (cell rawRow columnName)).isNone then (some 0, [])
  else (some (count rawRow columnName).1, (count rawRow columnName).2)

/-- The issues of the checks that every row goes through. -/
def firstIssues (rawRow : RawRow) : List ParseIssue :=
  (requiredDate rawRow "보고 시작").2 ++ (requiredDate rawRow "보고 종료").2 ++
    (requiredText rawRow "캠페인 이름").2 ++ (requiredText rawRow "캠페인 ID").2 ++
    (requiredText rawRow "광고 세트 이름").2 ++ (requiredText rawRow "광고 세트 ID").2 ++
    (requiredText rawRow "광고 이름").2 ++ (count rawRow "결과").2 ++ (count rawRow "도달").2 ++
    (videoPlayCounts rawRow).flatMap (·.2) ++ numberIssues true rawRow

/-- The issues of the checks made while the parsed row is built. -/
def lastIssues (rawRow : RawRow) : List ParseIssue :=
  (optionalCount rawRow "장바구니에 담기").2 ++ optionalIssues true rawRow

/-- The parsed row, once its dates and names are known. -/
def build (sha1 : Sha1) (rawRow : RawRow) (dateStart dateEnd : Int) (campaignName metaCampaignId
    adsetName metaAdsetExternalId adName : String) : ParsedMetaAdDailyRow :=
  let metaAdId := textValue (cell rawRow "광고 ID")
  let columns := readColumns true rawRow dateStart dateEnd
  { columns with
    campaignName
    metaCampaignId
    adsetName
    metaAdsetExternalId
    adName
    metaAdId
    syntheticAdKey := syntheticAdKey sha1 metaCampaignId metaAdsetExternalId adName
    adIdentityKey := metaAdId.getD (syntheticAdKey sha1 metaCampaignId metaAdsetExternalId adName)
    adDeliveryStatus := textValue (cell rawRow "광고 게재")
    purchaseCount := if isPurchaseResult columns.resultIndicator then columns.resultCount else 0
    videoPlayCounts := (videoPlayCounts rawRow).map (·.1)
    addToCartCount := (optionalCount rawRow "장바구니에 담기").1
    qualityRanking := textValue (cell rawRow "품질 순위")
    engagementRateRanking := textValue (cell rawRow "참여율 순위")
    conversionRateRanking := textValue (cell rawRow "전환율 순위") }

def parseRow (sha1 : Sha1) (rawRow : RawRow) : ParsedAdDaily :=
  match (requiredDate rawRow "보고 시작").1, (requiredDate rawRow "보고 종료").1,
      (requiredText rawRow "캠페인 이름").1, (requiredText rawRow "캠페인 ID").1,
      (requiredText rawRow "광고 세트 이름").1, (requiredText rawRow "광고 세트 ID").1,
      (requiredText rawRow "광고 이름").1 with
  | some dateStart, some dateEnd, some campaignName, some metaCampaignId, some adsetName,
      some metaAdsetExternalId, some adName =>
    ⟨some (build sha1 rawRow dateStart dateEnd campaignName metaCampaignId adsetName
      metaAdsetExternalId adName), firstIssues rawRow ++ lastIssues rawRow⟩
  | _, _, _, _, _, _, _ => ⟨none, firstIssues rawRow⟩

end MetaAdDailyCsvParser

/-- `formatAdDate` is the date part of the ISO text, as `formatDateOnly` is. -/
def dailyAdMetricKey (row : ParsedMetaAdDailyRow) : String :=
  formatDateOnly row.dateStart ++ ":" ++ row.metaCampaignId ++ ":" ++ row.metaAdsetExternalId ++
    ":" ++ row.adIdentityKey

/-! ## 4. The adset-level row -/

namespace AdsetNameNormalizer

/-- `value.replace(/\s+/g, " ")`: a run of white space becomes one blank. -/
def collapseSpaces : List Char → List Char
  | [] => []
  | [c] => [if isJsSpace c then ' ' else c]
  | c :: d :: rest =>
    if isJsSpace c then
      if isJsSpace d then collapseSpaces (d :: rest) else ' ' :: collapseSpaces (d :: rest)
    else c :: collapseSpaces (d :: rest)

def normalizeName (value : String) : String :=
  String.ofList (collapseSpaces (trimChars value.toList))

def toKey (toLowerCase : String → String) (value : String) : String :=
  toLowerCase (normalizeName value)

end AdsetNameNormalizer

def META_ADSET_REQUIRED_COLUMNS : List String :=
  ["보고 시작", "보고 종료", "광고 세트 이름", "광고 세트 게재", "기여 설정", "결과", "결과 표시 도구", "도달",
    "빈도", "결과당 비용", "광고 세트 예산", "광고 세트 예산 유형", "지출 금액 (USD)", "종료", "시작", "노출",
    "CPM(1,000회 노출당 비용) (USD)", "링크 클릭", "shop_clicks", "CPC(링크 클릭당 비용) (USD)",
    "CTR(링크 클릭률)", "클릭(전체)", "CTR(전체)", "CPC(전체) (USD)", "랜딩 페이지 조회",
    "랜딩 페이지 조회당 비용 (USD)"]

structure ParsedMetaAdsetRow extends ReportColumns where
  adsetName : String
  adsetNameKey : String
  deliveryStatus : Option String
  startDate : Option Int

structure ParsedAdset where
  parsedRow : Option ParsedMetaAdsetRow
  issues : List ParseIssue

namespace MetaCsvParser

def optionalDate (rawRow : RawRow) (columnName : String) : Option Int × List ParseIssue :=
  if (textValue (cell rawRow columnName)).isNone then (none, [])
  else
    match parseDateString (cell rawRow columnName) with
    | none => (none, [invalidDate rawRow columnName])
    | some parsed => (toDateOnly (some parsed), [])

def firstIssues (rawRow : RawRow) : List ParseIssue :=
  (requiredDate rawRow "보고 시작").2 ++ (requiredDate rawRow "보고 종료").2 ++
    (optionalDate rawRow "시작").2 ++ (requiredText rawRow "광고 세트 이름").2 ++
    (readCount false rawRow "결과").2 ++ (readCount false rawRow "도달").2 ++ numberIssues false rawRow

def build (toLowerCase : String → String) (rawRow : RawRow) (dateStart dateEnd : Int)
    (adsetName : String) : ParsedMetaAdsetRow :=
  { readColumns false rawRow dateStart dateEnd with
    adsetName := AdsetNameNormalizer.normalizeName adsetName
    adsetNameKey := AdsetNameNormalizer.toKey toLowerCase adsetName
    deliveryStatus := textValue (cell rawRow "광고 세트 게재")
    startDate := (optionalDate rawRow "시작").1 }

def parseRow (toLowerCase : String → String) (rawRow : RawRow) : ParsedAdset :=
  match (requiredDate rawRow "보고 시작").1, (requiredDate rawRow "보고 종료").1,
      (requiredText rawRow "광고 세트 이름").1 with
  | some dateStart, some dateEnd, some adsetName =>
    ⟨some (build toLowerCase rawRow dateStart dateEnd adsetName), firstIssues rawRow ++ optionalIssues false rawRow⟩
  | _, _, _ => ⟨none, firstIssues rawRow⟩

end MetaCsvParser

/-! ## 5. What a parsed row satisfies -/

variable {rawRow : RawRow} {columnName : String}

theorem requiredDate_eq_some {date : Int} (h : (requiredDate rawRow columnName).1 = some date) :
    toDateOnly (cell rawRow columnName) = some date := by
  unfold requiredDate at h
  split at h
  · next e => rw [e]; exact h
  · cases h

theorem requiredDate_isSome (h : (requiredDate rawRow columnName).2 = []) :
    ∃ date, (requiredDate rawRow columnName).1 = some date := by
  unfold requiredDate at h ⊢
  split at h
  · next date e => exact ⟨date, rfl⟩
  · cases h

theorem requiredText_isSome (h : (requiredText rawRow columnName).2 = []) :
    ∃ value, (requiredText rawRow columnName).1 = some value := by
  unfold requiredText at h ⊢
  split at h
  · next value e => exact ⟨value, rfl⟩
  · cases h

/-- The metric date of a parsed row is its first date, and was read from the file. -/
theorem MetaAdDailyCsvParser.parseRow_date {sha1 : Sha1} {row : ParsedMetaAdDailyRow}
    (h : (parseRow sha1 rawRow).parsedRow = some row) :
    row.dateStart = row.metricDate ∧ ReadsBack row.metricDate := by
  unfold parseRow at h
  split at h
  · rename_i dateStart _ _ _ _ _ _ e _ _ _ _ _ _
    cases h
    exact ⟨rfl, readsBack_of_toDateOnly (requiredDate_eq_some e)⟩
  · cases h

theorem MetaCsvParser.parseRow_date {toLowerCase : String → String} {row : ParsedMetaAdsetRow}
    (h : (parseRow toLowerCase rawRow).parsedRow = some row) :
    ReadsBack row.metricDate := by
  unfold parseRow at h
  split at h
  · rename_i dateStart _ _ e _ _
    cases h
    exact readsBack_of_toDateOnly (requiredDate_eq_some e)
  · cases h

end AdsManagement.Meta
