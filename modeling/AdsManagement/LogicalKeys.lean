/-
  File:      LogicalKeys.lean
  Subject:   ARE THE LOGICAL KEYS INJECTIVE? `cafe24OrderLineKey`, `coupangSaleLineKey`,
             `coupangAdMetricKey`, `dailyAdMetricKey` and `syntheticAdKey` of two accepted rows.

  Every key is a join of its parts with a separator that free text may contain. The parsers trim
  their texts, so that the trimming of the keys loses nothing but the white space that the
  normal form of a Cafe24 product number can leave at its end. What remains is the separator:
  two rows share a key without sharing its parts exactly when the pieces between the separators
  are the same and belong to different parts.

  * `logicalKeys_injective_iff` -- the five keys together.
-/
import AdsManagement.Coupang.Sheets
import AdsManagement.Meta.SnapshotImport

namespace AdsManagement

open Common Lib Coupang List

/-! ## 1. Joined texts -/

/-- The parts as the keys join them. -/
def trimmedParts (parts : List String) : List (List Char) := parts.map fun part => trimChars part.toList

theorem joinTrimmed_eq_join (parts : List String) : joinTrimmed parts = join ':' (trimmedParts parts) := by
  unfold trimmedParts join
  induction parts with
  | nil => rfl
  | cons s rest ih =>
    cases rest with
    | nil => simp [joinTrimmed]
    | cons t rest =>
      unfold joinTrimmed
      rw [ih]
      simp [intercalate_cons_cons]

variable {text : String}

theorem trimChars_of_trim (h : trim text = text) : trimChars text.toList = text.toList := by
  rw [← toList_trim, h]

/-- Keys made of trimmed parts: equal keys have equal parts if and only if these are not
    regrouped. -/
theorem joinTrimmed_injective_iff {parts parts' : List String} (hne : parts ≠ []) (hne' : parts' ≠ []) :
    (String.ofList (joinTrimmed parts) = String.ofList (joinTrimmed parts') →
        trimmedParts parts = trimmedParts parts') ↔
      ¬ Regrouped ':' (trimmedParts parts) (trimmedParts parts') := by
  rw [String.ofList_inj, joinTrimmed_eq_join, joinTrimmed_eq_join]
  exact join_injective_iff (by simpa [trimmedParts] using hne) (by simpa [trimmedParts] using hne')

theorem getD_inj {value value' : Option String} (h : ∀ text ∈ value, IsTrimmedText text)
    (h' : ∀ text ∈ value', IsTrimmedText text) :
    trimChars (value.getD "").toList = trimChars (value'.getD "").toList ↔ value = value' := by
  rw [trimChars_of_trim (CoupangAds.trim_getD h), trimChars_of_trim (CoupangAds.trim_getD h'),
    String.toList_inj]
  constructor
  · intro e
    cases value with
    | none =>
      cases value' with
      | none => rfl
      | some text => exact absurd e.symm (h' text rfl).2
    | some text =>
      cases value' with
      | none => exact absurd e (h text rfl).2
      | some text' => exact congrArg some e
  · intro e
    rw [e]

theorem trimChars_inj {text' : String} (h : trim text = text) (h' : trim text' = text') :
    trimChars text.toList = trimChars text'.toList ↔ text = text' := by
  rw [trimChars_of_trim h, trimChars_of_trim h', String.toList_inj]

theorem trimChars_formatDateOnly_inj {date date' : Int} (h : ReadsBack date) (h' : ReadsBack date') :
    trimChars (formatDateOnly date).toList = trimChars (formatDateOnly date').toList ↔ date = date' := by
  rw [trimChars_inj (trim_formatDateOnly h) (trim_formatDateOnly h')]
  exact ⟨formatDateOnly_inj h h', fun e => by rw [e]⟩

/-! ## 2. Coupang -/

section CoupangKeys

variable {toLowerCase : String → String} {headers headers' : List String} {rawRow rawRow' : RawRow}

def saleParts (row : ParsedCoupangSaleRow) : List String :=
  [formatDateOrEmpty row.saleDate, row.optionId.getD "", row.productName, row.optionName]

structure SameSaleParts (row row' : ParsedCoupangSaleRow) : Prop where
  saleDate : row.saleDate = row'.saleDate
  optionId : row.optionId = row'.optionId
  productName : row.productName = row'.productName
  optionName : row.optionName = row'.optionName

theorem formatDateOrEmpty_inj {date date' : Option Int} (h : ∀ d ∈ date, ReadsBack d)
    (h' : ∀ d ∈ date', ReadsBack d) :
    trimChars (formatDateOrEmpty date).toList = trimChars (formatDateOrEmpty date').toList ↔
      date = date' := by
  have hne : ∀ d, ReadsBack d → trimChars (formatDateOnly d).toList ≠ [] := by
    intro d hd e
    rw [trimChars_of_trim (trim_formatDateOnly hd)] at e
    have hlen := length_formatDateOnly hd
    rw [e] at hlen
    cases hlen
  have hnil : trimChars "".toList = [] := by decide
  cases date with
  | none =>
    cases date' with
    | none => exact ⟨fun _ => rfl, fun _ => rfl⟩
    | some d' => exact ⟨fun e => absurd (e.symm.trans hnil) (hne d' (h' d' rfl)), nofun⟩
  | some d =>
    cases date' with
    | none => exact ⟨fun e => absurd (e.trans hnil) (hne d (h d rfl)), nofun⟩
    | some d' =>
      rw [Option.some_inj]
      exact trimChars_formatDateOnly_inj (h d rfl) (h' d' rfl)

variable {mode' mode : CoupangSales.CoupangCancelAmountMode} {reportDate' reportDate : Option String}
  {row' : ParsedCoupangSaleRow}

section

variable {row : ParsedCoupangSaleRow}
  (h : (CoupangSales.parseRow toLowerCase headers rawRow reportDate mode).parsedRow = some row)
  (h' : (CoupangSales.parseRow toLowerCase headers' rawRow' reportDate' mode').parsedRow = some row')
include h h'

theorem sameSaleParts_iff :
    SameSaleParts row row' ↔ trimmedParts (saleParts row) = trimmedParts (saleParts row') := by
  obtain ⟨h1, h2, h3, h4⟩ := CoupangSales.parseRow_texts h
  obtain ⟨h1', h2', h3', h4'⟩ := CoupangSales.parseRow_texts h'
  unfold trimmedParts saleParts
  simp only [map_cons, cons.injEq, and_true, formatDateOrEmpty_inj h1 h1',
    getD_inj h2 h2', trimChars_inj h3.1 h3'.1, trimChars_inj h4.1 h4'.1]
  exact ⟨fun ⟨e1, e2, e3, e4⟩ => ⟨e1, e2, e3, e4⟩, fun ⟨e1, e2, e3, e4⟩ => ⟨e1, e2, e3, e4⟩⟩

/-- **Sale lines.** -/
theorem coupangSaleLineKey_iff :
    (coupangSaleLineKey row = coupangSaleLineKey row' → SameSaleParts row row') ↔
      ¬ Regrouped ':' (trimmedParts (saleParts row)) (trimmedParts (saleParts row')) := by
  rw [sameSaleParts_iff h h']
  exact joinTrimmed_injective_iff (cons_ne_nil _ _) (cons_ne_nil _ _)

end

/-- The product name, or the ad name in the place of a placeholder. -/
def adLabel (row : ParsedCoupangAdRow) : String :=
  if isPlaceholderCoupangAdsText (some row.adExecutionProductName) then row.adName.getD ""
  else row.adExecutionProductName

def adParts (row : ParsedCoupangAdRow) : List String :=
  [formatDateOnly row.metricDate, row.campaignName.getD "", row.adGroupName.getD "",
    row.adExecutionOptionId.getD "", adLabel row, row.conversionOptionId.getD "",
    row.conversionProductName]

structure SameAdParts (row row' : ParsedCoupangAdRow) : Prop where
  metricDate : row.metricDate = row'.metricDate
  campaignName : row.campaignName = row'.campaignName
  adGroupName : row.adGroupName = row'.adGroupName
  adExecutionOptionId : row.adExecutionOptionId = row'.adExecutionOptionId
  label : adLabel row = adLabel row'
  conversionOptionId : row.conversionOptionId = row'.conversionOptionId
  conversionProductName : row.conversionProductName = row'.conversionProductName

variable {row : ParsedCoupangAdRow}

theorem trim_adLabel (h : ∀ text ∈ row.adName, IsTrimmedText text)
    (h' : trim row.adExecutionProductName = row.adExecutionProductName) :
    trim (adLabel row) = adLabel row := by
  unfold adLabel
  split
  · exact CoupangAds.trim_getD h
  · exact h'

section

variable {row' : ParsedCoupangAdRow}
  (h : (CoupangAds.parseRow toLowerCase headers rawRow).parsedRow = some row)
  (h' : (CoupangAds.parseRow toLowerCase headers' rawRow').parsedRow = some row')
include h h'

theorem sameAdParts_iff :
    SameAdParts row row' ↔ trimmedParts (adParts row) = trimmedParts (adParts row') := by
  obtain ⟨h1, h2, h3, h4, h5, h6, h7, h8⟩ := CoupangAds.parseRow_texts h
  obtain ⟨h1', h2', h3', h4', h5', h6', h7', h8'⟩ := CoupangAds.parseRow_texts h'
  unfold trimmedParts adParts
  simp only [map_cons, cons.injEq, and_true, trimChars_formatDateOnly_inj h1 h1',
    getD_inj h2 h2', getD_inj h3 h3', getD_inj h5 h5',
    trimChars_inj (trim_adLabel h4 h6) (trim_adLabel h4' h6'), getD_inj h7 h7', trimChars_inj h8 h8']
  exact ⟨fun ⟨e1, e2, e3, e4, e5, e6, e7⟩ => ⟨e1, e2, e3, e4, e5, e6, e7⟩,
    fun ⟨e1, e2, e3, e4, e5, e6, e7⟩ => ⟨e1, e2, e3, e4, e5, e6, e7⟩⟩

/-- **Ad metrics.** -/
theorem coupangAdMetricKey_iff : (coupangAdMetricKey row = coupangAdMetricKey row' → SameAdParts row row') ↔
      ¬ Regrouped ':' (trimmedParts (adParts row)) (trimmedParts (adParts row')) := by
  rw [sameAdParts_iff h h']
  exact joinTrimmed_injective_iff (cons_ne_nil _ _) (cons_ne_nil _ _)

end

end CoupangKeys

/-! ## 3. Cafe24 -/

section Cafe24Keys

open Cafe24

variable {rawRow rawRow' : RawRow} {row row' : ParsedCafe24OrderRow}

def orderLineParts (row : ParsedCafe24OrderRow) : List String :=
  [row.orderNo, row.lineOrderNo, row.productNo, row.optionName]

structure SameOrderLineParts (row row' : ParsedCafe24OrderRow) : Prop where
  orderNo : row.orderNo = row'.orderNo
  lineOrderNo : row.lineOrderNo = row'.lineOrderNo
  productNo : row.productNo = row'.productNo
  optionName : row.optionName = row'.optionName

/-- The rows differ only in the white space that `12 .0` leaves at the end of a product number. -/
def DifferInSpace (row row' : ParsedCafe24OrderRow) : Prop :=
  trimmedParts (orderLineParts row) = trimmedParts (orderLineParts row') ∧
    row.productNo ≠ row'.productNo

instance (row row' : ParsedCafe24OrderRow) : Decidable (DifferInSpace row row') :=
  inferInstanceAs (Decidable (trimmedParts (orderLineParts row) = trimmedParts (orderLineParts row') ∧
    row.productNo ≠ row'.productNo))

theorem isTrimmedText_orderText {key : Cafe24OrderColumnKey}
    (h : (Cafe24.requiredText rawRow key).2 = []) :
    IsTrimmedText (Cafe24.requiredText rawRow key).1 := by
  unfold Cafe24.requiredText at h ⊢
  cases e : textValue (readColumn rawRow key) with
  | some text => exact isTrimmedText_of_trim e
  | none =>
    rw [e] at h
    cases h

section

variable (h : (Cafe24.parseRow rawRow).parsedRow = some row)
include h

theorem parseRow_orderTexts :
    IsTrimmedText row.orderNo ∧ IsTrimmedText row.lineOrderNo ∧ IsTrimmedText row.optionName := by
  unfold Cafe24.parseRow at h
  split at h
  · rename_i hi
    cases h
    unfold parseIssues at hi
    simp only [append_eq_nil_iff] at hi
    obtain ⟨⟨⟨⟨⟨⟨⟨⟨⟨⟨⟨h1, h2⟩, -⟩, -⟩, h5⟩, -⟩, -⟩, -⟩, -⟩, -⟩, -⟩, -⟩ := hi
    exact ⟨isTrimmedText_orderText h1, isTrimmedText_orderText h2, isTrimmedText_orderText h5⟩
  · cases h

theorem sameOrderLineParts_iff (h' : (Cafe24.parseRow rawRow').parsedRow = some row') :
    SameOrderLineParts row row' ↔
      trimmedParts (orderLineParts row) = trimmedParts (orderLineParts row') ∧
        row.productNo = row'.productNo := by
  obtain ⟨h1, h2, h3⟩ := parseRow_orderTexts h
  obtain ⟨h1', h2', h3'⟩ := parseRow_orderTexts h'
  unfold trimmedParts orderLineParts
  simp only [map_cons, cons.injEq, and_true, trimChars_inj h1.1 h1'.1,
    trimChars_inj h2.1 h2'.1, trimChars_inj h3.1 h3'.1]
  constructor
  · rintro ⟨e1, e2, e3, e4⟩
    exact ⟨⟨e1, e2, by rw [e3], e4⟩, e3⟩
  · rintro ⟨⟨e1, e2, -, e4⟩, e3⟩
    exact ⟨e1, e2, e3, e4⟩

/-- **Order lines.** -/
theorem cafe24OrderLineKey_iff (h' : (Cafe24.parseRow rawRow').parsedRow = some row') :
    (cafe24OrderLineKey row = cafe24OrderLineKey row' → SameOrderLineParts row row') ↔
      ¬ Regrouped ':' (trimmedParts (orderLineParts row)) (trimmedParts (orderLineParts row')) ∧
        ¬ DifferInSpace row row' := by
  have hkey : (cafe24OrderLineKey row = cafe24OrderLineKey row' →
        trimmedParts (orderLineParts row) = trimmedParts (orderLineParts row')) ↔
      ¬ Regrouped ':' (trimmedParts (orderLineParts row)) (trimmedParts (orderLineParts row')) :=
    joinTrimmed_injective_iff (cons_ne_nil _ _) (cons_ne_nil _ _)
  rw [sameOrderLineParts_iff h h', ← hkey]
  constructor
  · intro hsame
    refine ⟨fun e => (hsame e).1, fun ⟨hparts, hne⟩ => hne (hsame ?_).2⟩
    show String.ofList (joinTrimmed (orderLineParts row)) = String.ofList (joinTrimmed (orderLineParts row'))
    rw [joinTrimmed_eq_join, joinTrimmed_eq_join, hparts]
  · rintro ⟨hparts, hspace⟩ e
    refine ⟨hparts e, ?_⟩
    by_contra hne
    exact hspace ⟨hparts e, hne⟩

end

end Cafe24Keys

/-! ## 4. Meta -/

section MetaKeys

open Meta

variable {sha1 : Sha1} {rawRow rawRow' : RawRow} {row row' : ParsedMetaAdDailyRow}

def dailyAdParts (row : ParsedMetaAdDailyRow) : List (List Char) :=
  [(formatDateOnly row.dateStart).toList, row.metaCampaignId.toList, row.metaAdsetExternalId.toList,
    row.adIdentityKey.toList]

structure SameDailyAdParts (row row' : ParsedMetaAdDailyRow) : Prop where
  dateStart : row.dateStart = row'.dateStart
  metaCampaignId : row.metaCampaignId = row'.metaCampaignId
  metaAdsetExternalId : row.metaAdsetExternalId = row'.metaAdsetExternalId
  adIdentityKey : row.adIdentityKey = row'.adIdentityKey

theorem toList_dailyAdMetricKey (row : ParsedMetaAdDailyRow) :
    (dailyAdMetricKey row).toList = join ':' (dailyAdParts row) := by
  unfold dailyAdMetricKey dailyAdParts join
  simp [intercalate_cons_cons]

/-- **Daily ad metrics.** -/
theorem dailyAdMetricKey_iff (h : (MetaAdDailyCsvParser.parseRow sha1 rawRow).parsedRow = some row)
    (h' : (MetaAdDailyCsvParser.parseRow sha1 rawRow').parsedRow = some row') :
    (dailyAdMetricKey row = dailyAdMetricKey row' → SameDailyAdParts row row') ↔
      ¬ Regrouped ':' (dailyAdParts row) (dailyAdParts row') := by
  obtain ⟨e, hd⟩ := MetaAdDailyCsvParser.parseRow_date h
  obtain ⟨e', hd'⟩ := MetaAdDailyCsvParser.parseRow_date h'
  rw [← e] at hd
  rw [← e'] at hd'
  have hsame : SameDailyAdParts row row' ↔ dailyAdParts row = dailyAdParts row' := by
    unfold dailyAdParts
    simp only [cons.injEq, String.toList_inj, and_true]
    constructor
    · rintro ⟨e1, e2, e3, e4⟩
      exact ⟨by rw [e1], e2, e3, e4⟩
    · rintro ⟨e1, e2, e3, e4⟩
      exact ⟨formatDateOnly_inj hd hd' e1, e2, e3, e4⟩
  rw [hsame, ← String.toList_inj, toList_dailyAdMetricKey, toList_dailyAdMetricKey]
  exact join_injective_iff (cons_ne_nil _ _) (cons_ne_nil _ _)

def syntheticAdParts (row : ParsedMetaAdDailyRow) : List (List Char) :=
  [row.metaCampaignId.toList, row.metaAdsetExternalId.toList, row.adName.toList]

structure SameSyntheticAdParts (row row' : ParsedMetaAdDailyRow) : Prop where
  metaCampaignId : row.metaCampaignId = row'.metaCampaignId
  metaAdsetExternalId : row.metaAdsetExternalId = row'.metaAdsetExternalId
  adName : row.adName = row'.adName

/-- The text whose digest is the synthetic key. -/
def syntheticAdText (row : ParsedMetaAdDailyRow) : String :=
  row.metaCampaignId ++ "|" ++ row.metaAdsetExternalId ++ "|" ++ row.adName

theorem syntheticAdKey_eq (h : (MetaAdDailyCsvParser.parseRow sha1 rawRow).parsedRow = some row) :
    row.syntheticAdKey = sha1.digest (syntheticAdText row) := by
  unfold MetaAdDailyCsvParser.parseRow at h
  split at h
  · cases h
    rfl
  · cases h

/-- **Synthetic ad keys**, of two texts on which the digest does not collide. -/
theorem syntheticAdKey_iff (h : (MetaAdDailyCsvParser.parseRow sha1 rawRow).parsedRow = some row)
    (h' : (MetaAdDailyCsvParser.parseRow sha1 rawRow').parsedRow = some row')
    (hsha1 : sha1.digest (syntheticAdText row) = sha1.digest (syntheticAdText row') →
      syntheticAdText row = syntheticAdText row') :
    (row.syntheticAdKey = row'.syntheticAdKey → SameSyntheticAdParts row row') ↔
      ¬ Regrouped '|' (syntheticAdParts row) (syntheticAdParts row') := by
  have hkey : row.syntheticAdKey = row'.syntheticAdKey ↔
      join '|' (syntheticAdParts row) = join '|' (syntheticAdParts row') := by
    have htext : ∀ row : ParsedMetaAdDailyRow,
        (syntheticAdText row).toList = join '|' (syntheticAdParts row) := by
      unfold syntheticAdText syntheticAdParts join
      simp [intercalate_cons_cons]
    rw [syntheticAdKey_eq h, syntheticAdKey_eq h', ← htext, ← htext, String.toList_inj]
    exact ⟨hsha1, fun e => by rw [e]⟩
  have hsame : SameSyntheticAdParts row row' ↔ syntheticAdParts row = syntheticAdParts row' := by
    unfold syntheticAdParts
    simp only [cons.injEq, String.toList_inj, and_true]
    exact ⟨fun ⟨e1, e2, e3⟩ => ⟨e1, e2, e3⟩, fun ⟨e1, e2, e3⟩ => ⟨e1, e2, e3⟩⟩
  rw [hkey, hsame]
  exact join_injective_iff (cons_ne_nil _ _) (cons_ne_nil _ _)

end MetaKeys

/-! ## 5. The five keys -/

/-- **Equal keys of accepted rows have equal parts if and only if the parts are not regrouped**, and
    for order lines differ in more than white space. -/
theorem logicalKeys_injective_iff (toLowerCase : String → String) (sha1 : Meta.Sha1) :
    (∀ rawRow rawRow' row row', (Cafe24.parseRow rawRow).parsedRow = some row →
      (Cafe24.parseRow rawRow').parsedRow = some row' →
      ((Cafe24.cafe24OrderLineKey row = Cafe24.cafe24OrderLineKey row' → SameOrderLineParts row row') ↔
        ¬ Regrouped ':' (trimmedParts (orderLineParts row)) (trimmedParts (orderLineParts row')) ∧
          ¬ DifferInSpace row row')) ∧
    (∀ headers headers' rawRow rawRow' reportDate reportDate' mode mode' row row',
      (CoupangSales.parseRow toLowerCase headers rawRow reportDate mode).parsedRow = some row →
      (CoupangSales.parseRow toLowerCase headers' rawRow' reportDate' mode').parsedRow = some row' →
      ((coupangSaleLineKey row = coupangSaleLineKey row' → SameSaleParts row row') ↔
        ¬ Regrouped ':' (trimmedParts (saleParts row)) (trimmedParts (saleParts row')))) ∧
    (∀ headers headers' rawRow rawRow' row row',
      (CoupangAds.parseRow toLowerCase headers rawRow).parsedRow = some row →
      (CoupangAds.parseRow toLowerCase headers' rawRow').parsedRow = some row' →
      ((coupangAdMetricKey row = coupangAdMetricKey row' → SameAdParts row row') ↔
        ¬ Regrouped ':' (trimmedParts (adParts row)) (trimmedParts (adParts row')))) ∧
    ∀ rawRow rawRow' row row', (Meta.MetaAdDailyCsvParser.parseRow sha1 rawRow).parsedRow = some row →
      (Meta.MetaAdDailyCsvParser.parseRow sha1 rawRow').parsedRow = some row' →
      ((Meta.dailyAdMetricKey row = Meta.dailyAdMetricKey row' → SameDailyAdParts row row') ↔
        ¬ Regrouped ':' (dailyAdParts row) (dailyAdParts row')) ∧
      ((sha1.digest (syntheticAdText row) = sha1.digest (syntheticAdText row') →
          syntheticAdText row = syntheticAdText row') →
        ((row.syntheticAdKey = row'.syntheticAdKey → SameSyntheticAdParts row row') ↔
          ¬ Regrouped '|' (syntheticAdParts row) (syntheticAdParts row'))) :=
  ⟨fun _ _ _ _ h h' => cafe24OrderLineKey_iff h h',
    fun _ _ _ _ _ _ _ _ _ _ h h' => coupangSaleLineKey_iff h h',
    fun _ _ _ _ _ _ h h' => coupangAdMetricKey_iff h h',
    fun _ _ _ _ h h' => ⟨dailyAdMetricKey_iff h h', syntheticAdKey_iff h h'⟩⟩

/-! ## 6. Samples -/

section Samples

open Meta

def orderLineSample (lineOrderNo productNo : String) : Option Cafe24.ParsedCafe24OrderRow :=
  (Cafe24.parseRow [("주문번호", "20260105"), ("품목별 주문번호", lineOrderNo), ("상품번호", productNo),
    ("주문상품명", "p"), ("주문상품명(옵션포함)", "o"), ("총 결제금액", "100"),
    ("발주일", "2026-01-05")]).parsedRow

def saleSample (productName optionName : String) : Option ParsedCoupangSaleRow :=
  (CoupangSales.parseRow asciiLowerCase ["상품명", "옵션명"]
    [("상품명", productName), ("옵션명", optionName)] (some "2026-01-05") .SALES_IS_NET).parsedRow

def adSample (campaignName adGroupName : String) : Option ParsedCoupangAdRow :=
  (CoupangAds.parseRow asciiLowerCase ["날짜", "캠페인 이름", "광고그룹"]
    [("날짜", "2026-01-05"), ("캠페인 이름", campaignName), ("광고그룹", adGroupName)]).parsedRow

/-- The digest of `1|2|3|a`. -/
def regroupedSha1 : Sha1 where
  digest := fun _ => "5d1a9e0d127917e453870b32e00c03ce72d3b7e2"
  hex := fun _ => isHexDigest (by decide +kernel)

def dailyAdSample (metaCampaignId metaAdsetId metaAdId : String) : Option ParsedMetaAdDailyRow :=
  (MetaAdDailyCsvParser.parseRow regroupedSha1 [("보고 시작", "2026-01-05"), ("보고 종료", "2026-01-05"),
    ("캠페인 이름", "c"), ("캠페인 ID", metaCampaignId), ("광고 세트 이름", "s"), ("광고 세트 ID", metaAdsetId),
    ("광고 이름", "a"), ("광고 ID", metaAdId)]).parsedRow

theorem orderLineSamples : ∃ row ∈ orderLineSample "1:2" "3", ∃ other ∈ orderLineSample "1:2" "4",
    ∃ regrouped ∈ orderLineSample "1" "2:3", ∃ spaced ∈ orderLineSample "1" "12 .0",
    ∃ plain ∈ orderLineSample "1" "12",
      (¬ Regrouped ':' (trimmedParts (orderLineParts row)) (trimmedParts (orderLineParts other)) ∧
        ¬ DifferInSpace row other) ∧
      (Cafe24.cafe24OrderLineKey row = Cafe24.cafe24OrderLineKey regrouped ∧
        row.productNo ≠ regrouped.productNo) ∧
      Cafe24.cafe24OrderLineKey spaced = Cafe24.cafe24OrderLineKey plain ∧
        spaced.productNo ≠ plain.productNo := by
  decide +kernel

theorem saleSamples : ∃ row ∈ saleSample "a:b" "c", ∃ other ∈ saleSample "a:b" "d",
    ∃ regrouped ∈ saleSample "a" "b:c",
      ¬ Regrouped ':' (trimmedParts (saleParts row)) (trimmedParts (saleParts other)) ∧
      coupangSaleLineKey row = coupangSaleLineKey regrouped ∧ row.productName ≠ regrouped.productName := by
  decide +kernel

theorem adSamples : ∃ row ∈ adSample "a:b" "c", ∃ other ∈ adSample "a:b" "d",
    ∃ regrouped ∈ adSample "a" "b:c",
      ¬ Regrouped ':' (trimmedParts (adParts row)) (trimmedParts (adParts other)) ∧
      coupangAdMetricKey row = coupangAdMetricKey regrouped ∧
        row.campaignName ≠ regrouped.campaignName := by
  decide +kernel

/-- Two rows of each parser whose parts hold separators and are not regrouped. -/
theorem logicalKeys_injective_iff_samples :
    (∃ row ∈ orderLineSample "1:2" "3", ∃ row' ∈ orderLineSample "1:2" "4",
      Cafe24.cafe24OrderLineKey row = Cafe24.cafe24OrderLineKey row' → SameOrderLineParts row row') ∧
    (∃ row ∈ saleSample "a:b" "c", ∃ row' ∈ saleSample "a:b" "d",
      coupangSaleLineKey row = coupangSaleLineKey row' → SameSaleParts row row') ∧
    (∃ row ∈ adSample "a:b" "c", ∃ row' ∈ adSample "a:b" "d",
      coupangAdMetricKey row = coupangAdMetricKey row' → SameAdParts row row') ∧
    ∃ row ∈ dailyAdSample "1|2" "3" "7", ∃ row' ∈ dailyAdSample "1|2" "3" "8",
      (dailyAdMetricKey row = dailyAdMetricKey row' → SameDailyAdParts row row') ∧
      (row.syntheticAdKey = row'.syntheticAdKey → SameSyntheticAdParts row row') := by
  obtain ⟨h1, h2, h3, h4⟩ := logicalKeys_injective_iff asciiLowerCase regroupedSha1
  have daily : ∃ row ∈ dailyAdSample "1|2" "3" "7", ∃ row' ∈ dailyAdSample "1|2" "3" "8",
      ¬ Regrouped ':' (dailyAdParts row) (dailyAdParts row') ∧
        syntheticAdText row = syntheticAdText row' ∧
        ¬ Regrouped '|' (syntheticAdParts row) (syntheticAdParts row') := by decide +kernel
  refine ⟨?_, ?_, ?_, ?_⟩
  · obtain ⟨row, hr, other, ho, -, -, -, -, -, -, hne, -⟩ := orderLineSamples
    exact ⟨row, hr, other, ho, (h1 _ _ row other hr ho).mpr hne⟩
  · obtain ⟨row, hr, other, ho, -, -, hne, -⟩ := saleSamples
    exact ⟨row, hr, other, ho, (h2 _ _ _ _ _ _ _ _ row other hr ho).mpr hne⟩
  · obtain ⟨row, hr, other, ho, -, -, hne, -⟩ := adSamples
    exact ⟨row, hr, other, ho, (h3 _ _ _ _ row other hr ho).mpr hne⟩
  · obtain ⟨row, hr, row', hr', hne, htext, hsyn⟩ := daily
    obtain ⟨hdaily, hsynthetic⟩ := h4 _ _ row row' hr hr'
    exact ⟨row, hr, row', hr', hdaily.mpr hne, (hsynthetic fun _ => htext).mpr hsyn⟩

/-- The same key for different parts, once for every key; and a product number with a blank. -/
theorem logicalKeys_collide :
    (∃ row ∈ orderLineSample "1:2" "3", ∃ row' ∈ orderLineSample "1" "2:3",
      Cafe24.cafe24OrderLineKey row = Cafe24.cafe24OrderLineKey row' ∧ row.productNo ≠ row'.productNo) ∧
    (∃ row ∈ orderLineSample "1" "12 .0", ∃ row' ∈ orderLineSample "1" "12",
      Cafe24.cafe24OrderLineKey row = Cafe24.cafe24OrderLineKey row' ∧ row.productNo ≠ row'.productNo) ∧
    (∃ row ∈ saleSample "a:b" "c", ∃ row' ∈ saleSample "a" "b:c",
      coupangSaleLineKey row = coupangSaleLineKey row' ∧ row.productName ≠ row'.productName) ∧
    (∃ row ∈ adSample "a:b" "c", ∃ row' ∈ adSample "a" "b:c",
      coupangAdMetricKey row = coupangAdMetricKey row' ∧ row.campaignName ≠ row'.campaignName) ∧
    (∃ row ∈ dailyAdSample "1:2" "3" "7", ∃ row' ∈ dailyAdSample "1" "2:3" "7",
      dailyAdMetricKey row = dailyAdMetricKey row' ∧ row.metaCampaignId ≠ row'.metaCampaignId) ∧
    ∃ row ∈ dailyAdSample "1|2" "3" "7", ∃ row' ∈ dailyAdSample "1" "2|3" "7",
      row.syntheticAdKey = row'.syntheticAdKey ∧ syntheticAdText row = syntheticAdText row' ∧
        row.metaCampaignId ≠ row'.metaCampaignId := by
  refine ⟨?_, ?_, ?_, ?_, ?_, ?_⟩
  · obtain ⟨row, hr, -, -, regrouped, hg, -, -, -, -, -, h, -⟩ := orderLineSamples
    exact ⟨row, hr, regrouped, hg, h⟩
  · obtain ⟨-, -, -, -, -, -, spaced, hs, plain, hp, -, -, h⟩ := orderLineSamples
    exact ⟨spaced, hs, plain, hp, h⟩
  · obtain ⟨row, hr, -, -, regrouped, hg, -, h⟩ := saleSamples
    exact ⟨row, hr, regrouped, hg, h⟩
  · obtain ⟨row, hr, -, -, regrouped, hg, -, h⟩ := adSamples
    exact ⟨row, hr, regrouped, hg, h⟩
  · decide +kernel
  · decide +kernel

end Samples

end AdsManagement
