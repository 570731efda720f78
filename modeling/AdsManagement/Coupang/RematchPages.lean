/-
  File:      Coupang/RematchPages.lean
  Subject:   THE PAGES OF A REMATCH: the three loops of `rematch` (coupang.service.ts) over sale
             lines, ad metrics and promotions.

  Each loop asks for `take + 1` rows behind a cursor `(date, rowNumber, id)`, matches the first
  `take` of them again and stores them before it asks for more. The cursor condition is the
  source's three alternatives; the order is `ORDER BY date, rowNumber, id`, in which the
  database puts a missing date last.

  * `afterCursor_iff` -- the three alternatives are the lexicographic order;
  * `rematchByPages_eq` -- the three loops do what `rematch` says in one sweep;
  * `rematches_commute` -- rematches of several ranges.
-/
import Mathlib.Data.Int.ConditionallyCompleteOrder
import AdsManagement.Lib.Keyset
import AdsManagement.Coupang.VersionInvariant
import AdsManagement.Coupang.ProfitPipeline

namespace AdsManagement.Coupang

open Common Lib

/-! ## 1. Cursors -/

/-- `saleCursor`, `adCursor` and `promotionCursor`. -/
structure RowCursor where
  date : Int
  rowNumber : Nat
  id : Nat

/-- The `OR` of the cursor. A missing date satisfies none of its comparisons. -/
def afterCursor (cursor : RowCursor) (date : Option Int) (rowNumber id : Nat) : Bool :=
  date.any (fun d => cursor.date < d) ||
    (date = some cursor.date && cursor.rowNumber < rowNumber) ||
    (date = some cursor.date && rowNumber = cursor.rowNumber && cursor.id < id)

/-- `ORDER BY date, rowNumber, id`. -/
abbrev RowOrder := WithTop Int ×ₗ Nat ×ₗ Nat

def rowOrder (date : WithTop Int) (rowNumber id : Nat) : RowOrder :=
  toLex (date, toLex (rowNumber, id))

/-- **The three alternatives are the lexicographic order** on rows that have a date. -/
theorem afterCursor_iff {cursor : RowCursor} {d : Int} {rowNumber id : Nat} :
    afterCursor cursor (some d) rowNumber id = true ↔
      rowOrder cursor.date cursor.rowNumber cursor.id < rowOrder d rowNumber id := by
  unfold afterCursor rowOrder
  simp only [Option.any_some, Bool.or_eq_true, Bool.and_eq_true, decide_eq_true_eq,
    Option.some.injEq, Prod.Lex.toLex_lt_toLex, WithTop.coe_lt_coe, WithTop.coe_inj]
  constructor
  · rintro ((h | ⟨rfl, h⟩) | ⟨⟨rfl, rfl⟩, h⟩)
    · exact .inl h
    · exact .inr ⟨rfl, .inl h⟩
    · exact .inr ⟨rfl, .inr ⟨rfl, h⟩⟩
  · rintro (h | ⟨rfl, h | ⟨rfl, h⟩⟩)
    · exact .inl (.inl h)
    · exact .inl (.inr ⟨rfl, h⟩)
    · exact .inr ⟨⟨rfl, rfl⟩, h⟩

theorem id_of_rowOrder {d e : WithTop Int} {m n i j : Nat}
    (h : rowOrder d m i = rowOrder e n j) : i = j := by
  unfold rowOrder at h
  simp only [toLex_inj, Prod.mk.injEq] at h
  exact h.2.2

/-! ## 2. Sale lines -/

def isSaleCandidate (range : DateRange) (line : CoupangSaleLine) : Bool :=
  line.isCurrent && line.data.saleDate.any range.holds && line.accepted

/-- The columns `rematch` writes, worked out from the line as it was read. -/
def writeSaleLine (matchText : MatchText) (line stored : CoupangSaleLine) : CoupangSaleLine :=
  let next := rematchSaleLine matchText line
  { stored with
    validationStatus := next.validationStatus
    validationErrors := next.validationErrors
    data := { stored.data with
      coupangProductId := next.data.coupangProductId
      coupangProductRuleId := next.data.coupangProductRuleId
      matchSource := next.data.matchSource } }

/-- The first loop. Its cursor takes `saleDate!`: the filter has left out missing dates. -/
def saleLinePaging (matchText : MatchText) (range : DateRange) :
    Paging CoupangSaleLine RowCursor RowOrder Nat where
  selects := isSaleCandidate range
  key line := rowOrder line.data.saleDate line.rowNumber line.id
  id := (·.id)
  cursor line := ⟨line.data.saleDate.getD 0, line.rowNumber, line.id⟩
  after cursor line := afterCursor cursor line.data.saleDate line.rowNumber line.id
  write := writeSaleLine matchText

theorem isSaleCandidate_date {range : DateRange} {line : CoupangSaleLine}
    (h : isSaleCandidate range line = true) : ∃ d, line.data.saleDate = some d := by
  cases hd : line.data.saleDate with
  | none => simp [isSaleCandidate, hd] at h
  | some d => exact ⟨d, rfl⟩

theorem lawful_saleLinePaging (matchText : MatchText) (range : DateRange) :
    (saleLinePaging matchText range).Lawful where
  after_iff r s hr hs := by
    obtain ⟨d, hd⟩ := isSaleCandidate_date hr
    obtain ⟨e, he⟩ := isSaleCandidate_date hs
    simp only [saleLinePaging, hd, he]
    exact afterCursor_iff
  id_of_key r s h := id_of_rowOrder h
  write_id r := rfl
  write_key r := rfl
  write_selects r hr := by
    simp only [saleLinePaging, isSaleCandidate, Bool.and_eq_true] at hr ⊢
    exact ⟨hr.1, (rematched_saleLine matchText r).accepted⟩

/-! ## 3. Ad metrics -/

def isAdCandidate (range : DateRange) (metric : CoupangAdMetric) : Bool :=
  metric.isCurrent && range.holds metric.data.metricDate && metric.accepted

def writeAdMetric (matchText : MatchText) (metric stored : CoupangAdMetric) : CoupangAdMetric :=
  let next := rematchAdMetric matchText metric
  { stored with
    validationStatus := next.validationStatus
    validationErrors := next.validationErrors
    data := { stored.data with
      spendProductId := next.data.spendProductId
      spendProductRuleId := next.data.spendProductRuleId
      conversionProductId := next.data.conversionProductId
      conversionProductRuleId := next.data.conversionProductRuleId
      spendMatchSource := next.data.spendMatchSource
      conversionMatchSource := next.data.conversionMatchSource } }

/-- The second loop. -/
def adMetricPaging (matchText : MatchText) (range : DateRange) :
    Paging CoupangAdMetric RowCursor RowOrder Nat where
  selects := isAdCandidate range
  key metric := rowOrder metric.data.metricDate metric.rowNumber metric.id
  id := (·.id)
  cursor metric := ⟨metric.data.metricDate, metric.rowNumber, metric.id⟩
  after cursor metric := afterCursor cursor (some metric.data.metricDate) metric.rowNumber metric.id
  write := writeAdMetric matchText

theorem writeAdMetric_self (matchText : MatchText) (metric : CoupangAdMetric) :
    writeAdMetric matchText metric metric = rematchAdMetric matchText metric := by
  unfold writeAdMetric rematchAdMetric
  generalize resolveCoupangAdProductMatches matchText metric.data.metricDate
    metric.data.adExecutionProductName metric.data.adName metric.data.conversionProductName = found
  rfl

theorem lawful_adMetricPaging (matchText : MatchText) (range : DateRange) :
    (adMetricPaging matchText range).Lawful where
  after_iff _ _ _ _ := afterCursor_iff
  id_of_key r s h := id_of_rowOrder h
  write_id r := by simp only [adMetricPaging, writeAdMetric]
  write_key r := by simp only [adMetricPaging, writeAdMetric]
  write_selects r hr := by
    have hacc := (rematched_adMetric matchText r).accepted
    rw [← writeAdMetric_self] at hacc
    simp only [adMetricPaging, isAdCandidate, Bool.and_eq_true] at hr ⊢
    exact ⟨by simpa only [writeAdMetric] using hr.1, hacc⟩

/-! ## 4. Promotions -/

/-- A row of `coupang_promotion_prices`: its price with the columns a rematch uses. -/
structure PromotionPriceRow extends CoupangPromotionPrice where
  id : Nat
  uploadBatchId : Nat
  rowNumber : Nat
  productText : String
  coupangProductRuleId : Option String
  matchSource : MatchSource

def invalidPromotionStatusIssue (status : Option String) : RowIssue where
  columnName := some "promotionStatus"
  severity := .WARNING
  errorCode := "INVALID_PROMOTION_STATUS"
  message := "Promotion status is inactive and will be excluded from price resolution."
  rawValue := status
  candidates := none

def Severity.text : Severity → String
  | ERROR => "ERROR"
  | WARNING => "WARNING"

/-- An issue as the JSON column keeps it: what is `undefined` is left out. -/
def RowIssue.toJson (issue : RowIssue) : Json :=
  .obj ([("columnName", (issue.columnName.map Json.str).getD .null),
    ("severity", .str issue.severity.text), ("errorCode", .str issue.errorCode),
    ("message", .str issue.message)] ++
    (issue.rawValue.map fun value => ("rawValue", Json.str value)).toList ++
    (issue.candidates.map fun names => ("candidates", Json.arr (names.map .str))).toList)

def isPromotionCandidate (range : DateRange) (promotion : PromotionPriceRow) : Bool :=
  promotion.promotionStartDate ≤ range.toDate && range.fromDate ≤ promotion.promotionEndDate &&
    promotion.validationStatus != .ERROR

def writePromotion (matchText : MatchText) (promotion stored : PromotionPriceRow) :
    PromotionPriceRow :=
  let result := matchText promotion.productText (some promotion.promotionStartDate)
  let matched := result.reason = .MATCHED
  let warnings :=
    (if matched then [] else [matchIssue result.reason.text result.candidates]) ++
    (if isInactivePromotionStatus promotion.promotionStatus then
      [invalidPromotionStatusIssue promotion.promotionStatus]
    else [])
  { stored with
    coupangProductId := if matched then result.productId else none
    coupangProductRuleId := if matched then result.matchRuleId else none
    matchSource := if matched then .RULE else .UNMATCHED
    validationStatus := validationStatusFor [] warnings (if matched then result.productId else none)
    validationErrors := .arr (warnings.map RowIssue.toJson) }

/-- The third loop. -/
def promotionPaging (matchText : MatchText) (range : DateRange) :
    Paging PromotionPriceRow RowCursor RowOrder Nat where
  selects := isPromotionCandidate range
  key promotion := rowOrder promotion.promotionStartDate promotion.rowNumber promotion.id
  id := (·.id)
  cursor promotion := ⟨promotion.promotionStartDate, promotion.rowNumber, promotion.id⟩
  after cursor promotion :=
    afterCursor cursor (some promotion.promotionStartDate) promotion.rowNumber promotion.id
  write := writePromotion matchText

theorem lawful_promotionPaging (matchText : MatchText) (range : DateRange) :
    (promotionPaging matchText range).Lawful where
  after_iff _ _ _ _ := afterCursor_iff
  id_of_key r s h := id_of_rowOrder h
  write_id r := rfl
  write_key r := rfl
  write_selects r hr := by
    simp only [promotionPaging, isPromotionCandidate, Bool.and_eq_true] at hr ⊢
    refine ⟨hr.1, bne_iff_ne.mpr ?_⟩
    exact validationStatusFor_nil_ne_error _ _

/-! ## 5. The three loops -/

structure RematchTables where
  saleLines : List CoupangSaleLine
  adMetrics : List CoupangAdMetric
  promotionPrices : List PromotionPriceRow

/-- `id` is the primary key of each table. -/
structure RematchTables.UniqueIds (tables : RematchTables) : Prop where
  saleLines : (tables.saleLines.map (·.id)).Nodup
  adMetrics : (tables.adMetrics.map (·.id)).Nodup
  promotionPrices : (tables.promotionPrices.map (·.id)).Nodup

structure RematchResult where
  scannedSalesCount : Nat
  matchedSalesCount : Nat
  scannedAdsCount : Nat
  matchedSpendCount : Nat
  matchedConversionCount : Nat
  scannedPromotionCount : Nat
  matchedPromotionCount : Nat

/-- The counters of the loops, read off the rows they have visited. -/
def rematchResult (matchText : MatchText) (sales : List CoupangSaleLine) (ads : List CoupangAdMetric)
    (promotions : List PromotionPriceRow) : RematchResult :=
  let adMatches := ads.map fun metric => resolveCoupangAdProductMatches matchText
    metric.data.metricDate metric.data.adExecutionProductName metric.data.adName
    metric.data.conversionProductName
  { scannedSalesCount := sales.length
    matchedSalesCount := sales.countP fun line =>
      (matchText (line.data.productName ++ " " ++ line.data.optionName) line.data.saleDate).reason =
        .MATCHED
    scannedAdsCount := ads.length
    matchedSpendCount := adMatches.countP (·.spendMatchSource ≠ .UNMATCHED)
    matchedConversionCount := adMatches.countP (·.conversionMatchSource ≠ .UNMATCHED)
    scannedPromotionCount := promotions.length
    matchedPromotionCount := promotions.countP fun promotion =>
      (matchText promotion.productText (some promotion.promotionStartDate)).reason = .MATCHED }

/-- `rematch`: the loops one after the other. Without fuel there is no result. -/
def rematchByPages (matchText : MatchText) (range : DateRange) (take fuel : Nat)
    (tables : RematchTables) : Option (RematchTables × RematchResult) :=
  match (saleLinePaging matchText range).run take fuel ⟨tables.saleLines, none, []⟩,
      (adMetricPaging matchText range).run take fuel ⟨tables.adMetrics, none, []⟩,
      (promotionPaging matchText range).run take fuel ⟨tables.promotionPrices, none, []⟩ with
  | some sales, some ads, some promotions =>
    some (⟨sales.table, ads.table, promotions.table⟩,
      rematchResult matchText sales.visited ads.visited promotions.visited)
  | _, _, _ => none

/-- A paged loop has ended, after it visited the candidates once each and rewrote them. -/
structure VisitsOnce {ρ : Type} (p : Paging ρ RowCursor RowOrder Nat) (take fuel : Nat)
    (table : List ρ) (final : PageState ρ RowCursor) : Prop where
  ends : p.run take fuel ⟨table, none, []⟩ = some final
  once : final.visited.Perm (table.filter p.selects)
  rewrites : final.table = table.map fun r => if p.selects r then p.write r r else r

theorem visitsOnce_of_lawful {ρ : Type} {p : Paging ρ RowCursor RowOrder Nat} (hp : p.Lawful)
    {table : List ρ} (hnd : (table.map p.id).Nodup) {take fuel : Nat} (htake : 1 ≤ take)
    (hfuel : table.length < fuel) : ∃ final, VisitsOnce p take fuel table final := by
  obtain ⟨final, hrun, hvis, htable⟩ := Paging.run_eq hp hnd htake hfuel
  refine ⟨final, hrun, ?_, htable⟩
  rw [hvis]
  exact Paging.perm_sort _

/-- **Each of the three loops ends and visits every candidate exactly once**, for every page
    size, whatever ties of date and row number the pages end in: the rows it has visited are
    the rows its filter selects in the table before the loop, each as often as it stands there,
    that is once. -/
theorem rematch_visits_each_candidate_once (matchText : MatchText) (range : DateRange)
    (tables : RematchTables) (hids : tables.UniqueIds) (take : Nat) (htake : 1 ≤ take) :
    ∃ enough, ∀ fuel, enough ≤ fuel →
      (∃ sales, VisitsOnce (saleLinePaging matchText range) take fuel tables.saleLines sales ∧
        sales.visited.Nodup) ∧
      (∃ ads, VisitsOnce (adMetricPaging matchText range) take fuel tables.adMetrics ads ∧
        ads.visited.Nodup) ∧
      (∃ promotions,
        VisitsOnce (promotionPaging matchText range) take fuel tables.promotionPrices promotions ∧
        promotions.visited.Nodup) := by
  refine ⟨tables.saleLines.length + tables.adMetrics.length + tables.promotionPrices.length + 1,
    fun fuel hfuel => ⟨?_, ?_, ?_⟩⟩
  · obtain ⟨final, h⟩ := visitsOnce_of_lawful (lawful_saleLinePaging matchText range)
      hids.saleLines htake (show tables.saleLines.length < fuel by omega)
    exact ⟨final, h, h.once.nodup_iff.mpr (hids.saleLines.of_map.filter _)⟩
  · obtain ⟨final, h⟩ := visitsOnce_of_lawful (lawful_adMetricPaging matchText range)
      hids.adMetrics htake (show tables.adMetrics.length < fuel by omega)
    exact ⟨final, h, h.once.nodup_iff.mpr (hids.adMetrics.of_map.filter _)⟩
  · obtain ⟨final, h⟩ := visitsOnce_of_lawful (lawful_promotionPaging matchText range)
      hids.promotionPrices htake (show tables.promotionPrices.length < fuel by omega)
    exact ⟨final, h, h.once.nodup_iff.mpr (hids.promotionPrices.of_map.filter _)⟩

/-- Two lines that tie in date and row number, and one without a date. -/
def tiedSaleLines : List CoupangSaleLine :=
  [(2, some 20000), (1, some 20000), (3, none)].map fun entry =>
    { id := entry.1, uploadBatchId := 1, rowNumber := 2, sourceRowHash := "", logicalKey := "k"
      validationStatus := .VALID, validationErrors := [], importVersion := 1, isCurrent := true
      createdAt := 0, data := { emptySaleLineData with saleDate := entry.2 } }

theorem rematch_visits_each_candidate_once_tied :
    ∃ enough, ∀ fuel, enough ≤ fuel → ∃ sales,
      (saleLinePaging noMatch ⟨20000, 20000⟩).run 1 fuel ⟨tiedSaleLines, none, []⟩ = some sales ∧
      sales.visited.length = 2 := by
  obtain ⟨enough, h⟩ := rematch_visits_each_candidate_once noMatch ⟨20000, 20000⟩
    ⟨tiedSaleLines, [], []⟩ ⟨by decide, List.nodup_nil, List.nodup_nil⟩ 1 (by decide)
  refine ⟨enough, fun fuel hfuel => ?_⟩
  obtain ⟨sales, hs, -⟩ := (h fuel hfuel).1
  refine ⟨sales, hs.ends, hs.once.length_eq.trans ?_⟩
  decide

/-- **The three loops do what `rematch` does in one sweep**, for every page size. -/
theorem rematchByPages_eq (matchText : MatchText) (range : DateRange) {tables : RematchTables}
    (hids : tables.UniqueIds) {take fuel : Nat} (htake : 1 ≤ take)
    (hsales : tables.saleLines.length < fuel) (hads : tables.adMetrics.length < fuel)
    (hpromotions : tables.promotionPrices.length < fuel) :
    let swept := rematch matchText range.fromDate range.toDate ⟨tables.saleLines, tables.adMetrics⟩
    ∃ result, rematchByPages matchText range take fuel tables =
      some (⟨swept.saleLines, swept.adMetrics, tables.promotionPrices.map fun promotion =>
        if isPromotionCandidate range promotion then writePromotion matchText promotion promotion
        else promotion⟩, result) ∧
      result.scannedSalesCount = tables.saleLines.countP (isSaleCandidate range) ∧
      result.scannedAdsCount = tables.adMetrics.countP (isAdCandidate range) ∧
      result.scannedPromotionCount = tables.promotionPrices.countP (isPromotionCandidate range) := by
  obtain ⟨sales, hs⟩ := visitsOnce_of_lawful (lawful_saleLinePaging matchText range)
    hids.saleLines htake hsales
  obtain ⟨ads, ha⟩ := visitsOnce_of_lawful (lawful_adMetricPaging matchText range)
    hids.adMetrics htake hads
  obtain ⟨promotions, hp⟩ := visitsOnce_of_lawful (lawful_promotionPaging matchText range)
    hids.promotionPrices htake hpromotions
  have esales : sales.table =
      (rematch matchText range.fromDate range.toDate ⟨tables.saleLines, tables.adMetrics⟩).saleLines := by
    rw [hs.rewrites]
    refine List.map_congr_left fun line _ => ?_
    have e : (saleLinePaging matchText range).selects line = (line.isCurrent && line.accepted &&
        line.data.saleDate.any fun d => decide (range.fromDate ≤ d ∧ d ≤ range.toDate)) := by
      show (line.isCurrent && line.data.saleDate.any range.holds && line.accepted) = _
      cases line.data.saleDate with
      | none => simp
      | some d => simp [DateRange.holds, Bool.and_comm, Bool.and_left_comm, Bool.and_assoc]
    rw [e]
    rfl
  have eads : ads.table =
      (rematch matchText range.fromDate range.toDate ⟨tables.saleLines, tables.adMetrics⟩).adMetrics := by
    rw [ha.rewrites]
    refine List.map_congr_left fun metric _ => ?_
    have e : (adMetricPaging matchText range).selects metric = (metric.isCurrent && metric.accepted &&
        decide (range.fromDate ≤ metric.data.metricDate ∧ metric.data.metricDate ≤ range.toDate)) := by
      show (metric.isCurrent && range.holds metric.data.metricDate && metric.accepted) = _
      simp [DateRange.holds, Bool.and_comm, Bool.and_left_comm, Bool.and_assoc]
    rw [e, ← writeAdMetric_self]
    rfl
  refine ⟨rematchResult matchText sales.visited ads.visited promotions.visited, ?_, ?_, ?_, ?_⟩
  · unfold rematchByPages
    rw [hs.ends, ha.ends, hp.ends, ← esales, ← eads]
    exact congrArg (fun table => some (RematchTables.mk _ _ table, _)) hp.rewrites
  · exact hs.once.length_eq.trans List.countP_eq_length_filter.symm
  · exact ha.once.length_eq.trans List.countP_eq_length_filter.symm
  · exact hp.once.length_eq.trans List.countP_eq_length_filter.symm

/-- In pages of one row. -/
theorem rematchByPages_eq_tied : ∃ result,
    rematchByPages noMatch ⟨20000, 20000⟩ 1 4 ⟨tiedSaleLines, [], []⟩ =
      some (⟨(rematch noMatch 20000 20000 ⟨tiedSaleLines, []⟩).saleLines, [], []⟩, result) ∧
    result.scannedSalesCount = 2 := by
  obtain ⟨result, hrun, hsales, -⟩ := @rematchByPages_eq noMatch ⟨20000, 20000⟩
    ⟨tiedSaleLines, [], []⟩ ⟨by decide, List.nodup_nil, List.nodup_nil⟩ 1 4 (by decide) (by decide)
    (by decide) (by decide)
  exact ⟨result, hrun, hsales.trans (by decide)⟩

/-! ## 6. Rematches one after the other -/

/-- Two sweeps with one rewriting of rows are one. -/
theorem sweep_sweep {δ : Type} {f : StoredRow δ → StoredRow δ} {d d' : StoredRow δ → Bool}
    (hf : ∀ r, f (f r) = f r) (hkeep : ∀ r, Rematched r (f r)) (hd' : ∀ r, d' (f r) = d' r)
    (rows : List (StoredRow δ)) :
    (rows.map fun r => if r.isCurrent && r.accepted && d r then f r else r).map
      (fun r => if r.isCurrent && r.accepted && d' r then f r else r) =
    rows.map fun r => if r.isCurrent && r.accepted && (d r || d' r) then f r else r := by
  rw [List.map_map]
  refine List.map_congr_left fun r _ => ?_
  have hc := (hkeep r).isCurrent
  have ha := (hkeep r).accepted
  grind

/-- **Rematches commute**: with one matcher, ranges of days may be rematched in any order and again,
    whatever days they share. -/
theorem rematches_commute (matchText : MatchText) (fromDate toDate fromDate' toDate' : Int)
    (s : CoupangStore) :
    rematch matchText fromDate' toDate' (rematch matchText fromDate toDate s) =
      rematch matchText fromDate toDate (rematch matchText fromDate' toDate' s) ∧
    rematch matchText fromDate toDate (rematch matchText fromDate toDate s) =
      rematch matchText fromDate toDate s := by
  have hline : ∀ r, rematchSaleLine matchText (rematchSaleLine matchText r) =
      rematchSaleLine matchText r := fun _ => rfl
  have hmetric : ∀ r, rematchAdMetric matchText (rematchAdMetric matchText r) =
      rematchAdMetric matchText r := fun r => by simp [rematchAdMetric]
  have hday : ∀ r, (rematchAdMetric matchText r).data.metricDate = r.data.metricDate := fun _ => rfl
  have hlines := fun d d' hd' => @sweep_sweep _ _ d d' hline (rematched_saleLine matchText) hd'
  have hmetrics := fun d d' hd' => @sweep_sweep _ _ d d' hmetric (rematched_adMetric matchText) hd'
  simp only [rematch]
  constructor
  · rw [hlines _ _ fun _ => rfl, hlines _ _ fun _ => rfl, hmetrics, hmetrics]
    · simp only [Bool.or_comm]
    · simp only [hday, implies_true]
    · simp only [hday, implies_true]
  · rw [hlines _ _ fun _ => rfl, hmetrics]
    · simp only [Bool.or_self]
    · simp only [hday, implies_true]

end AdsManagement.Coupang
