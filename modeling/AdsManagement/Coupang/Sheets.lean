/-
  File:      Coupang/Sheets.lean
  Subject:   COUPANG SHEETS: the row parsers of the sales and of the advertising sheet
             (domain/coupang-sales-xlsx.ts, domain/coupang-ads-xlsx.ts).

  A sheet is read by its header row; a column is found under one of its aliases. The workbook
  reader and the conversion of cells to texts are left out: a row is the record of its texts.

  * `CoupangSales.parseRow_texts`, `CoupangAds.parseRow_texts` -- texts of an accepted row are
    trimmed and not empty, its date reads back.
-/
import AdsManagement.Cafe24.Csv

namespace AdsManagement.Coupang

open Common

/-! ## 1. Columns and cells -/

section Sheet

variable (toLowerCase : String → String)

def normalizeHeader (value : String) : String :=
  toLowerCase (String.ofList (Cafe24.normalizeHeader value))

/-- `buildHeaderMap(headers).get(key)` for the aliases of the key. -/
def sheetHeader (headers aliases : List String) : Option String :=
  aliases.findSome? fun name =>
    (headers.reverse.find? fun header =>
      normalizeHeader toLowerCase header = normalizeHeader toLowerCase name).filter (· != "")

section

variable (headers : List String) (rawRow : RawRow) (aliases : List String)

def readRaw : Option String :=
  (sheetHeader toLowerCase headers aliases).bind (Cafe24.cell rawRow)

def optionalText : Option String :=
  ((readRaw toLowerCase headers rawRow aliases).map trim).filter (· != "")

def sheetIssue (errorCode message : String) : ParseIssue where
  columnName := aliases.headD ""
  errorCode := errorCode
  message := aliases.headD "" ++ message
  rawValue := readRaw toLowerCase headers rawRow aliases

def requiredText : String × List ParseIssue :=
  match optionalText toLowerCase headers rawRow aliases with
  | some value => (value, [])
  | none => ("", [sheetIssue toLowerCase headers rawRow aliases "REQUIRED" " is required."])

def requiredNumber : ℚ × List ParseIssue :=
  match parseNumberValue (readRaw toLowerCase headers rawRow aliases) (some 0) with
  | some value => (value, [])
  | none => (0, [sheetIssue toLowerCase headers rawRow aliases "INVALID_NUMBER" " must be numeric."])

def requiredDate : Option Int × List ParseIssue :=
  match toDateOnly (readRaw toLowerCase headers rawRow aliases) with
  | some date => (some date, [])
  | none => (none, [sheetIssue toLowerCase headers rawRow aliases "INVALID_DATE" " must be a valid date."])

end

end Sheet

/-- A text as the parsers leave it. -/
def IsTrimmedText (text : String) : Prop := trim text = text ∧ text ≠ ""

theorem isTrimmedText_of_trim {value : Option String} {text : String}
    (h : (value.map trim).filter (· != "") = some text) : IsTrimmedText text := by
  obtain ⟨hm, hne⟩ := Option.filter_eq_some_iff.mp h
  obtain ⟨raw, -, rfl⟩ := Option.map_eq_some_iff.mp hm
  exact ⟨trim_trim raw, by simpa using hne⟩

theorem isTrimmedText_requiredText {toLowerCase : String → String} {headers : List String}
    {rawRow : RawRow} {aliases : List String}
    (h : (requiredText toLowerCase headers rawRow aliases).2 = []) :
    IsTrimmedText (requiredText toLowerCase headers rawRow aliases).1 := by
  unfold requiredText at h ⊢
  cases e : optionalText toLowerCase headers rawRow aliases with
  | some text => exact isTrimmedText_of_trim e
  | none =>
    rw [e] at h
    cases h

/-! ## 2. The sales sheet -/

namespace CoupangSales

inductive CoupangSalesColumnKey where
  | optionId
  | optionName
  | productName
  | registeredProductId
  | category
  | saleMethod
  | salesKrw
  | orderCount
  | salesQuantity
  | totalSalesKrw
  | totalSalesQuantity
  | cancelAmountKrw
  | cancelQuantity
  | instantCancelQuantity
deriving DecidableEq

def CoupangSalesColumnKey.aliases : CoupangSalesColumnKey → List String
  | optionId => ["옵션 ID", "Option ID", "optionId"]
  | optionName => ["옵션명", "Option Name", "optionName"]
  | productName => ["상품명", "Product Name", "productName"]
  | registeredProductId => ["등록상품 ID", "등록상품ID", "Registered Product ID", "registeredProductId"]
  | category => ["카테고리", "Category", "category"]
  | saleMethod => ["판매방식", "Sale Method", "saleMethod"]
  | salesKrw => ["매출(원)", "Sales(KRW)", "salesKrw"]
  | orderCount => ["주문", "Orders", "orderCount"]
  | salesQuantity => ["판매량", "판매수량", "Sales Quantity", "salesQuantity"]
  | totalSalesKrw => ["총 매출(원)", "Total Sales(KRW)", "totalSalesKrw"]
  | totalSalesQuantity => ["총 판매수", "총 판매수량", "Total Sales Quantity", "totalSalesQuantity"]
  | cancelAmountKrw => ["총 취소 금액(원)", "Cancel Amount(KRW)", "cancelAmountKrw"]
  | cancelQuantity => ["총 취소된 상품수", "총 취소된 상품수량", "Cancel Quantity", "cancelQuantity"]
  | instantCancelQuantity =>
    ["즉시 취소된 상품수", "즉시 취소된 상품수량", "Instant Cancel Quantity", "instantCancelQuantity"]

inductive CoupangCancelAmountMode where
  | SALES_IS_NET
  | NEGATIVE_ADD
  | POSITIVE_SUBTRACT
deriving DecidableEq

def calculateCoupangNetSales (salesKrw cancelAmountKrw : ℚ) : CoupangCancelAmountMode → ℚ
  | .NEGATIVE_ADD => salesKrw + cancelAmountKrw
  | .POSITIVE_SUBTRACT => salesKrw - |cancelAmountKrw|
  | .SALES_IS_NET => salesKrw

structure ParsedSale where
  parsedRow : Option ParsedCoupangSaleRow
  issues : List ParseIssue

variable (toLowerCase : String → String) (headers : List String) (rawRow : RawRow)

def text (key : CoupangSalesColumnKey) : String × List ParseIssue :=
  requiredText toLowerCase headers rawRow key.aliases

def number (key : CoupangSalesColumnKey) : ℚ × List ParseIssue :=
  requiredNumber toLowerCase headers rawRow key.aliases

def optional (key : CoupangSalesColumnKey) : Option String :=
  optionalText toLowerCase headers rawRow key.aliases

def parseIssues : List ParseIssue :=
  let text := text toLowerCase headers rawRow
  let number := number toLowerCase headers rawRow
  (text .optionName).2 ++ (text .productName).2 ++ (number .salesKrw).2 ++ (number .orderCount).2 ++
    (number .salesQuantity).2 ++ (number .totalSalesKrw).2 ++ (number .totalSalesQuantity).2 ++
    (number .cancelAmountKrw).2 ++ (number .cancelQuantity).2 ++ (number .instantCancelQuantity).2

/-- `parseRow`; `reportDate` is the report date or the date in the file name, read once for all
    rows. -/
def parseRow (reportDate : Option String) (cancelAmountMode : CoupangCancelAmountMode) : ParsedSale :=
  let text := text toLowerCase headers rawRow
  let number := number toLowerCase headers rawRow
  let optional := optional toLowerCase headers rawRow
  { parsedRow :=
      if parseIssues toLowerCase headers rawRow = [] then
        some
          { optionId := optional .optionId
            optionName := (text .optionName).1
            productName := (text .productName).1
            registeredProductId := optional .registeredProductId
            category := optional .category
            saleMethod := optional .saleMethod
            salesKrw := (number .salesKrw).1
            orderCount := truncNumber (number .orderCount).1
            salesQuantity := (number .salesQuantity).1
            totalSalesKrw := (number .totalSalesKrw).1
            totalSalesQuantity := (number .totalSalesQuantity).1
            cancelAmountKrw := (number .cancelAmountKrw).1
            cancelQuantity := (number .cancelQuantity).1
            instantCancelQuantity := (number .instantCancelQuantity).1
            netSalesKrw := calculateCoupangNetSales (number .salesKrw).1 (number .cancelAmountKrw).1
              cancelAmountMode
            saleDate := toDateOnly reportDate }
      else none
    issues := parseIssues toLowerCase headers rawRow }

variable {toLowerCase headers rawRow}

/-- **What the parser promises of the parts of a key.** -/
theorem parseRow_texts {reportDate : Option String} {mode : CoupangCancelAmountMode}
    {row : ParsedCoupangSaleRow}
    (h : (parseRow toLowerCase headers rawRow reportDate mode).parsedRow = some row) :
    (∀ date ∈ row.saleDate, ReadsBack date) ∧ (∀ id ∈ row.optionId, IsTrimmedText id) ∧
      IsTrimmedText row.productName ∧ IsTrimmedText row.optionName := by
  unfold parseRow at h
  split at h
  · rename_i hi
    cases h
    unfold parseIssues at hi
    simp only [List.append_eq_nil_iff] at hi
    obtain ⟨⟨⟨⟨⟨⟨⟨⟨⟨h1, h2⟩, -⟩, -⟩, -⟩, -⟩, -⟩, -⟩, -⟩, -⟩ := hi
    refine ⟨fun date hd => readsBack_of_toDateOnly hd, fun id hid => isTrimmedText_of_trim hid, ?_, ?_⟩
    · exact isTrimmedText_requiredText h2
    · exact isTrimmedText_requiredText h1
  · cases h

end CoupangSales

/-! ## 3. The advertising sheet -/

namespace CoupangAds

inductive CoupangAdsColumnKey where
  | metricDate
  | campaignName
  | adGroupName
  | adName
  | adExecutionOptionId
  | adExecutionProductName
  | conversionOptionId
  | conversionProductName
  | impressions
  | clicks
  | adSpendKrw
  | totalOrders1d
  | directOrders1d
  | indirectOrders1d
  | totalConversionSales1dKrw
  | directConversionSales1dKrw
  | indirectConversionSales1dKrw
  | totalSalesQuantity1d
  | directSalesQuantity1d
  | indirectSalesQuantity1d
deriving DecidableEq

def CoupangAdsColumnKey.aliases : CoupangAdsColumnKey → List String
  | metricDate => ["날짜", "Date", "metricDate"]
  | campaignName => ["캠페인 이름", "Campaign Name", "campaignName"]
  | adGroupName => ["광고그룹", "Ad Group", "adGroupName"]
  | adName => ["광고명", "광고 이름", "Ad Name", "adName"]
  | adExecutionOptionId => ["광고 집행 옵션 ID", "Ad Execution Option ID", "adExecutionOptionId"]
  | adExecutionProductName => ["광고집행 상품명", "Ad Execution Product Name", "adExecutionProductName"]
  | conversionOptionId => ["광고 전환 매출 발생 옵션 ID", "Conversion Option ID", "conversionOptionId"]
  | conversionProductName =>
    ["광고 전환 매출 발생 상품명", "Conversion Product Name", "conversionProductName"]
  | impressions => ["노출수", "Impressions", "impressions"]
  | clicks => ["클릭수", "Clicks", "clicks"]
  | adSpendKrw => ["광고비(원)", "Ad Spend(KRW)", "adSpendKrw"]
  | totalOrders1d => ["총 주문수(1일)", "Total Orders(1d)", "totalOrders1d"]
  | directOrders1d => ["직접 주문수(1일)", "Direct Orders(1d)", "directOrders1d"]
  | indirectOrders1d => ["간접 주문수(1일)", "Indirect Orders(1d)", "indirectOrders1d"]
  | totalConversionSales1dKrw =>
    ["총 전환 매출액(1일)(원)", "Total Conversion Sales(1d)(KRW)", "totalConversionSales1dKrw"]
  | directConversionSales1dKrw =>
    ["직접 전환 매출액(1일)(원)", "Direct Conversion Sales(1d)(KRW)", "directConversionSales1dKrw"]
  | indirectConversionSales1dKrw =>
    ["간접 전환 매출액(1일)(원)", "Indirect Conversion Sales(1d)(KRW)", "indirectConversionSales1dKrw"]
  | totalSalesQuantity1d => ["총 판매 수량 (1일)", "Total Sales Quantity(1d)", "totalSalesQuantity1d"]
  | directSalesQuantity1d => ["직접 판매 수량 (1일)", "Direct Sales Quantity(1d)", "directSalesQuantity1d"]
  | indirectSalesQuantity1d =>
    ["간접 판매 수량 (1일)", "Indirect Sales Quantity(1d)", "indirectSalesQuantity1d"]

structure ParsedAd where
  parsedRow : Option ParsedCoupangAdRow
  issues : List ParseIssue

variable (toLowerCase : String → String) (headers : List String) (rawRow : RawRow)

def number (key : CoupangAdsColumnKey) : ℚ × List ParseIssue :=
  requiredNumber toLowerCase headers rawRow key.aliases

def optional (key : CoupangAdsColumnKey) : Option String :=
  optionalText toLowerCase headers rawRow key.aliases

/-- The issues of the numbers, which are read only when the date could be. -/
def numberIssues : List ParseIssue :=
  let number := number toLowerCase headers rawRow
  (number .impressions).2 ++ (number .clicks).2 ++ (number .adSpendKrw).2 ++ (number .totalOrders1d).2 ++
    (number .directOrders1d).2 ++ (number .indirectOrders1d).2 ++
    (number .totalConversionSales1dKrw).2 ++ (number .directConversionSales1dKrw).2 ++
    (number .indirectConversionSales1dKrw).2 ++ (number .totalSalesQuantity1d).2 ++
    (number .directSalesQuantity1d).2 ++ (number .indirectSalesQuantity1d).2

def parseRow : ParsedAd :=
  let number := number toLowerCase headers rawRow
  let optional := optional toLowerCase headers rawRow
  let metricDate := requiredDate toLowerCase headers rawRow CoupangAdsColumnKey.metricDate.aliases
  match metricDate.1 with
  | none => ⟨none, metricDate.2⟩
  | some date =>
    { parsedRow :=
        if numberIssues toLowerCase headers rawRow = [] then
          some
            { metricDate := date
              campaignName := optional .campaignName
              adGroupName := optional .adGroupName
              adName := optional .adName
              adExecutionOptionId := optional .adExecutionOptionId
              adExecutionProductName := (optional .adExecutionProductName).getD ""
              conversionOptionId := optional .conversionOptionId
              conversionProductName := (optional .conversionProductName).getD ""
              impressions := truncNumber (number .impressions).1
              clicks := truncNumber (number .clicks).1
              adSpendKrw := (number .adSpendKrw).1
              totalOrders1d := truncNumber (number .totalOrders1d).1
              directOrders1d := truncNumber (number .directOrders1d).1
              indirectOrders1d := truncNumber (number .indirectOrders1d).1
              totalConversionSales1dKrw := (number .totalConversionSales1dKrw).1
              directConversionSales1dKrw := (number .directConversionSales1dKrw).1
              indirectConversionSales1dKrw := (number .indirectConversionSales1dKrw).1
              totalSalesQuantity1d := (number .totalSalesQuantity1d).1
              directSalesQuantity1d := (number .directSalesQuantity1d).1
              indirectSalesQuantity1d := (number .indirectSalesQuantity1d).1 }
        else none
      issues := numberIssues toLowerCase headers rawRow }

variable {toLowerCase headers rawRow}

theorem trim_getD {value : Option String} (h : ∀ text ∈ value, IsTrimmedText text) :
    trim (value.getD "") = value.getD "" := by
  cases value with
  | none => decide
  | some text => exact (h text rfl).1

/-- **What the parser promises of the parts of a key.** -/
theorem parseRow_texts {row : ParsedCoupangAdRow}
    (h : (parseRow toLowerCase headers rawRow).parsedRow = some row) :
    ReadsBack row.metricDate ∧ (∀ text ∈ row.campaignName, IsTrimmedText text) ∧
      (∀ text ∈ row.adGroupName, IsTrimmedText text) ∧ (∀ text ∈ row.adName, IsTrimmedText text) ∧
      (∀ text ∈ row.adExecutionOptionId, IsTrimmedText text) ∧
      trim row.adExecutionProductName = row.adExecutionProductName ∧
      (∀ text ∈ row.conversionOptionId, IsTrimmedText text) ∧
      trim row.conversionProductName = row.conversionProductName := by
  unfold parseRow at h
  dsimp only at h
  split at h
  · cases h
  · rename_i date hd
    split at h
    · cases h
      have hdate : ReadsBack date := by
        unfold requiredDate at hd
        split at hd
        · next e => cases hd; exact readsBack_of_toDateOnly e
        · cases hd
      exact ⟨hdate, fun _ e => isTrimmedText_of_trim e, fun _ e => isTrimmedText_of_trim e,
        fun _ e => isTrimmedText_of_trim e, fun _ e => isTrimmedText_of_trim e,
        trim_getD fun _ e => isTrimmedText_of_trim e, fun _ e => isTrimmedText_of_trim e,
        trim_getD fun _ e => isTrimmedText_of_trim e⟩
    · cases h

end CoupangAds

end AdsManagement.Coupang
