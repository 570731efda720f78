/-
  File:      Coupang/ProfitGroups.lean
  Subject:   THE GROUP VIEW OF THE REPORT: product rows put into the rows of their groups
             (`aggregateCoupangProductProfitRowsByGroup` of coupang.service.ts).

  A product outside any group has a bucket of its own, of which only the first row is shown: the
  view is meant for one row a product, which is what `buildProductProfitRows` returns.

  * `flatMap_rows_profitBuckets` -- the buckets are a partition of the rows;
  * `grouping_conserves_report` -- with one row a product outside any group, every amount is
    conserved and the summary of the group view is the summary of the product view;
  * `report_conserves_days` -- so do the sums of the days.
-/
import AdsManagement.Coupang.ProfitPipeline

namespace AdsManagement.Coupang

open Common Lib List

/-! ## 1. Buckets -/

structure ProfitBucket where
  group : Option ProductGroup
  rows : List ProductProfitRow

/-- `productById.get(row.productId)?.group ?? null`. -/
def groupOfProduct (products : List CoupangProduct) (productId : String) : Option ProductGroup :=
  ((OrderedMap.ofList (products.map fun product => (product.id, product))).get productId).bind (·.group)

def targetKey (group : Option ProductGroup) (productId : String) : String :=
  match group with
  | some group => "group:" ++ group.id
  | none => "product:" ++ productId

def profitBuckets (rows : List ProductProfitRow) (products : List CoupangProduct) :
    OrderedMap String ProfitBucket :=
  aggregateBy (fun row => targetKey (groupOfProduct products row.productId) row.productId)
    (fun row => ⟨groupOfProduct products row.productId, []⟩)
    (fun bucket row => { bucket with rows := bucket.rows ++ [row] }) rows

def rowOfBucket (bucket : ProfitBucket) : Option ProductProfitRow :=
  match bucket.group with
  | none => bucket.rows.head?.map fun row =>
    { row with rowType := some .PRODUCT, childProductCount := some 1 }
  | some group => some (aggregateCoupangProductProfitGroup group bucket.rows)

def aggregateCoupangProductProfitRowsByGroup (localeCompare : String → String → ℚ)
    (rows : List ProductProfitRow) (products : List CoupangProduct) : List ProductProfitRow :=
  ((profitBuckets rows products).values.filterMap rowOfBucket).insertionSort
    (profitRowsInOrder localeCompare)

/-! ## 2. Keys -/

theorem group_key_ne_product_key (a b : String) : "group:" ++ a ≠ "product:" ++ b := by
  intro h
  have h' := congrArg (fun s => s.toList.head?) h
  exact absurd h' (by simp)

/-- A key names a group, or a product outside any group. -/
theorem targetKey_eq_iff {g g' : Option ProductGroup} {p p' : String} :
    targetKey g p = targetKey g' p' ↔ g.map (·.id) = g'.map (·.id) ∧ (g = none → p = p') := by
  cases g with
  | none =>
    cases g' with
    | none =>
      refine ⟨fun h => ⟨rfl, fun _ => (String.append_right_inj _).mp h⟩, fun h => ?_⟩
      rw [h.2 rfl]
    | some g' =>
      exact ⟨fun h => absurd h.symm (group_key_ne_product_key _ _), fun h => (nomatch h.1)⟩
  | some g =>
    cases g' with
    | none => exact ⟨fun h => absurd h (group_key_ne_product_key _ _), fun h => (nomatch h.1)⟩
    | some g' =>
      refine ⟨fun h => ⟨congrArg some ((String.append_right_inj _).mp h), nofun⟩, fun h => ?_⟩
      show "group:" ++ g.id = "group:" ++ g'.id
      rw [show g.id = g'.id from Option.some.inj h.1]

/-! ## 3. The partition -/

section Partition

variable {rows : List ProductProfitRow} {products : List CoupangProduct}

/-- The rows of the products outside any group. -/
def rowsOutside (products : List CoupangProduct) (rows : List ProductProfitRow) : List ProductProfitRow :=
  rows.filter fun row => (groupOfProduct products row.productId).isNone

/-- The key of the bucket of a row. -/
def rowKey (products : List CoupangProduct) (row : ProductProfitRow) : String :=
  targetKey (groupOfProduct products row.productId) row.productId

theorem values_rows_profitBuckets (rows : List ProductProfitRow) (products : List CoupangProduct) :
    (profitBuckets rows products).values.map (·.rows) = (groupBy (rowKey products) rows).values := by
  have h : (profitBuckets rows products).entries.map (fun e => (e.1, e.2.rows)) =
      (groupBy (rowKey products) rows).entries :=
    project_aggregateBy ProfitBucket.rows (fun _ => rfl) (fun _ _ => rfl) rows
  have h2 := congrArg (List.map (·.2)) h
  rw [map_map] at h2
  unfold OrderedMap.values
  rw [map_map]
  exact h2

/-- **The buckets are a partition of the rows.** -/
theorem flatMap_rows_profitBuckets (rows : List ProductProfitRow) (products : List CoupangProduct) :
    ((profitBuckets rows products).values.flatMap (·.rows)).Perm rows := by
  rw [flatMap_def, values_rows_profitBuckets]
  exact flatten_values_groupBy (rowKey products) rows

theorem foldl_bucket (l : List ProductProfitRow) (bucket : ProfitBucket) :
    l.foldl (fun bucket row => { bucket with rows := bucket.rows ++ [row] }) bucket =
      ⟨bucket.group, bucket.rows ++ l⟩ := by
  induction l generalizing bucket with
  | nil => rw [append_nil]; rfl
  | cons row rest ih => rw [foldl_cons, ih, append_assoc]; rfl

/-- A bucket holds the rows of its key, under the group of the first of them. -/
theorem get_profitBuckets_eq_some {key : String} {bucket : ProfitBucket}
    (h : (profitBuckets rows products).get key = some bucket) :
    bucket.rows = rows.filter (rowKey products · = key) ∧ ∃ first ∈ bucket.rows,
      rowKey products first = key ∧ bucket.group = groupOfProduct products first.productId := by
  rw [profitBuckets, get_aggregateBy] at h
  have hf : rows.filter (rowKey products · = key) = rows.filter
      (fun row => targetKey (groupOfProduct products row.productId) row.productId = key) := rfl
  rw [← hf] at h
  have hkey : ∀ row ∈ rows.filter (rowKey products · = key), rowKey products row = key :=
    fun row hr => by simpa using (mem_filter.mp hr).2
  generalize rows.filter (rowKey products · = key) = l at h hkey
  cases l with
  | nil => exact (nomatch h)
  | cons first rest =>
    have h' := Option.some.inj h
    rw [foldl_bucket] at h'
    rw [← h']
    exact ⟨rfl, first, mem_cons_self .., hkey first (mem_cons_self ..), rfl⟩

/-- What the bucket of an output row holds: all the rows of a group, or the one row of a product
    outside any group. -/
structure BucketOf (rows : List ProductProfitRow) (products : List CoupangProduct)
    (bucket : ProfitBucket) : Prop where
  nonempty : bucket.rows ≠ []
  grouped : ∀ group, bucket.group = some group → ∀ row, row ∈ bucket.rows ↔
    row ∈ rows ∧ (groupOfProduct products row.productId).map (·.id) = some group.id
  ungrouped : bucket.group = none → ∃ row ∈ rows,
    bucket.rows = [row] ∧ groupOfProduct products row.productId = none

theorem eq_singleton_of_nodup {α β : Type} {f : α → β} {l : List α} {a : α} (hn : (l.map f).Nodup)
    (ha : a ∈ l) (hall : ∀ b ∈ l, f b = f a) : l = [a] := by
  cases l with
  | nil => exact absurd ha not_mem_nil
  | cons b rest =>
    cases rest with
    | nil => rw [mem_singleton.mp ha]
    | cons c rest =>
      have hb := hall b (mem_cons_self ..)
      have hc := hall c (mem_cons_of_mem _ (mem_cons_self ..))
      have hnot := (nodup_cons.mp hn).1
      exact absurd (mem_cons.mpr (Or.inl (hb.trans hc.symm))) hnot

theorem bucketOf_mem_values (hone : ((rowsOutside products rows).map (·.productId)).Nodup) {bucket : ProfitBucket}
    (h : bucket ∈ (profitBuckets rows products).values) : BucketOf rows products bucket := by
  obtain ⟨key, hk⟩ := OrderedMap.mem_values_iff.mp h
  obtain ⟨hrows, first, hfirst, hkey, hgroup⟩ := get_profitBuckets_eq_some hk
  have hmem : ∀ row, row ∈ bucket.rows ↔ row ∈ rows ∧ rowKey products row = rowKey products first := by
    intro row
    rw [hrows, hkey]
    simp
  refine ⟨ne_nil_of_mem hfirst, fun group hg row => ?_, fun hg => ?_⟩
  · rw [hgroup] at hg
    rw [hmem, rowKey, rowKey, targetKey_eq_iff, hg]
    refine and_congr_right fun _ => ⟨fun h => h.1, fun h => ⟨h, fun e => ?_⟩⟩
    rw [e] at h
    exact (nomatch h)
  · rw [hgroup] at hg
    have hkeys : ∀ row ∈ bucket.rows, groupOfProduct products row.productId = none ∧
        row.productId = first.productId := by
      intro row hr
      have e := ((hmem row).mp hr).2
      rw [rowKey, rowKey, targetKey_eq_iff, hg] at e
      have hnone := Option.map_eq_none_iff.mp e.1
      exact ⟨hnone, e.2 hnone⟩
    have hsub : bucket.rows.Sublist (rowsOutside products rows) := by
      rw [← filter_eq_self.mpr fun row hr => Option.isNone_iff_eq_none.mpr (hkeys row hr).1, hrows]
      exact filter_sublist.filter _
    exact ⟨first, ((hmem first).mp hfirst).1,
      eq_singleton_of_nodup (hone.sublist (hsub.map _)) hfirst fun row hr => (hkeys row hr).2, hg⟩

end Partition

/-! ## 4. Amounts -/

section Amounts

variable {rows : List ProductProfitRow} {products : List CoupangProduct} {bucket : ProfitBucket}

/-- The row of a bucket carries the sums of the bucket's rows. -/
structure CarriesSums (row : ProductProfitRow) (members : List ProductProfitRow) : Prop where
  plain : ∀ f : PlainAmount, f.of row.toProductProfitFields =
    sumNumbers (members.map fun r => f.of r.toProductProfitFields)
  known : ∀ f : KnownAmount, f.of row.toProductProfitFields =
    sumNumbers (members.map fun r => f.of r.toProductProfitFields)
  nullable : ∀ f : NullableAmount, f.of row.toProductProfitFields =
    strictSumNullable (members.map fun r => f.of r.toProductProfitFields)
  mirrored : (∀ r ∈ members, Mirrored r.toProductProfitFields) → Mirrored row.toProductProfitFields
  complete : row.calculationStatus = .COMPLETE ↔ ∀ r ∈ members, r.calculationStatus = .COMPLETE

theorem BucketOf.exists_row (h : BucketOf rows products bucket) :
    ∃ row, rowOfBucket bucket = some row ∧ CarriesSums row bucket.rows := by
  unfold rowOfBucket
  cases hg : bucket.group with
  | some group =>
    exact ⟨_, rfl, group_plain group _, group_known group _, group_nullable group _,
      fun _ => mirrored_group group _, group_complete_iff group _⟩
  | none =>
    obtain ⟨row, _, hrows, _⟩ := h.ungrouped hg
    rw [hrows]
    refine ⟨_, rfl, fun f => ?_, fun f => ?_, fun f => ?_, fun hm => ?_, ?_⟩
    · rw [map_singleton, sumNumbers, plainSum_eq_sum, sum_singleton]
      cases f <;> rfl
    · rw [map_singleton, sumNumbers, plainSum_eq_sum, sum_singleton]
      cases f <;> rfl
    · rw [map_singleton, strictSumNullable, strictSum_singleton]
      cases f <;> rfl
    · intro f
      have := hm row (mem_singleton_self row) f
      cases f <;> exact this
    · simp

theorem CarriesSums.isCompleteRow {row : ProductProfitRow} {members : List ProductProfitRow}
    (hc : CarriesSums row members) (h : ∀ r ∈ members, isCompleteRow r = true) :
    isCompleteRow row = true := by
  have hall : ∀ r ∈ members, r.calculationStatus = .COMPLETE ∧ r.marginKrw ≠ none ∧
      r.totalCostKrw ≠ none := by
    intro r hr
    have := h r hr
    simp only [Coupang.isCompleteRow, Bool.and_eq_true, decide_eq_true_eq,
      Option.isSome_iff_ne_none] at this
    exact ⟨this.1.1, this.1.2, this.2⟩
  have hm : row.marginKrw ≠ none := by
    rw [show row.marginKrw = _ from hc.nullable .marginKrw]
    exact strictSumNullable_ne_none_iff.mpr fun r hr => (hall r hr).2.1
  have ht : row.totalCostKrw ≠ none := by
    rw [show row.totalCostKrw = _ from hc.nullable .totalCostKrw]
    exact strictSumNullable_ne_none_iff.mpr fun r hr => (hall r hr).2.2
  simp only [Coupang.isCompleteRow, Bool.and_eq_true, decide_eq_true_eq, Option.isSome_iff_ne_none]
  exact ⟨⟨hc.complete.mpr fun r hr => (hall r hr).1, hm⟩, ht⟩

/-- The rows of the buckets, seen through what they carry. -/
theorem map_filterMap_rowOfBucket {β : Type} {f : ProductProfitRow → β} {g : ProfitBucket → β}
    (hf : ∀ bucket row, rowOfBucket bucket = some row → CarriesSums row bucket.rows → f row = g bucket)
    {buckets : List ProfitBucket} (h : ∀ bucket ∈ buckets, BucketOf rows products bucket) :
    (buckets.filterMap rowOfBucket).map f = buckets.map g := by
  induction buckets with
  | nil => rfl
  | cons bucket rest ih =>
    obtain ⟨row, hrow, hc⟩ := (h bucket (mem_cons_self ..)).exists_row
    rw [filterMap_cons_some hrow, map_cons, hf _ row hrow hc,
      ih fun b hb => h b (mem_cons_of_mem _ hb), map_cons]

variable (localeCompare : String → String → ℚ)

theorem perm_aggregateByGroup (rows : List ProductProfitRow) (products : List CoupangProduct) :
    (aggregateCoupangProductProfitRowsByGroup localeCompare rows products).Perm
      ((profitBuckets rows products).values.filterMap rowOfBucket) :=
  perm_insertionSort _ _

variable (products)

/-- **A plain amount is conserved by the group view.** -/
theorem sum_byGroup (hone : ((rowsOutside products rows).map (·.productId)).Nodup) {f : ProductProfitRow → ℚ}
    (hf : ∀ row members, CarriesSums row members → f row = sumNumbers (members.map f)) :
    sumNumbers ((aggregateCoupangProductProfitRowsByGroup localeCompare rows products).map f) =
      sumNumbers (rows.map f) := by
  have hperm := (perm_aggregateByGroup localeCompare rows products).map f
  rw [map_filterMap_rowOfBucket (g := fun b => sumNumbers (b.rows.map f)) (fun _ row _ => hf row _)
    fun bucket hb => bucketOf_mem_values hone hb] at hperm
  have hflat := (flatMap_rows_profitBuckets rows products).map f
  rw [map_flatMap] at hflat
  calc sumNumbers ((aggregateCoupangProductProfitRowsByGroup localeCompare rows products).map f)
      = plainSum ((profitBuckets rows products).values.map fun b => plainSum (b.rows.map f)) :=
        plainSum_perm hperm
    _ = plainSum ((profitBuckets rows products).values.map fun b => b.rows.map f).flatten := by
        rw [plainSum_flatten, map_map]
        rfl
    _ = sumNumbers (rows.map f) := plainSum_perm hflat

/-- **An amount that may be unknown is conserved by the group view.** -/
theorem strictSum_byGroup (hone : ((rowsOutside products rows).map (·.productId)).Nodup)
    {f : ProductProfitRow → Option ℚ}
    (hf : ∀ row members, CarriesSums row members → f row = strictSumNullable (members.map f)) :
    strictSumNullable ((aggregateCoupangProductProfitRowsByGroup localeCompare rows products).map f) =
      strictSumNullable (rows.map f) := by
  have hperm := (perm_aggregateByGroup localeCompare rows products).map f
  rw [map_filterMap_rowOfBucket (g := fun b => strictSumNullable (b.rows.map f)) (fun _ row _ => hf row _)
    fun bucket hb => bucketOf_mem_values hone hb] at hperm
  have hflat := (flatMap_rows_profitBuckets rows products).map f
  rw [map_flatMap] at hflat
  calc strictSumNullable ((aggregateCoupangProductProfitRowsByGroup localeCompare rows products).map f)
      = strictSum ((profitBuckets rows products).values.map fun b => strictSum (b.rows.map f)) :=
        strictSum_perm hperm
    _ = strictSum ((profitBuckets rows products).values.map fun b => b.rows.map f).flatten := by
        rw [strictSum_flatten, map_map]
        rfl
    _ = strictSumNullable (rows.map f) := strictSum_perm hflat

end Amounts

/-! ## 5. The summary -/

section Summary

variable {rows rows' : List ProductProfitRow}

theorem summarize_all_complete (h : ∀ row ∈ rows, isCompleteRow row = true) :
    rows.filter isCompleteRow = rows ∧ rows.filter (fun row => !isCompleteRow row) = [] := by
  refine ⟨filter_eq_self.mpr h, filter_eq_nil_iff.mpr fun row hr => ?_⟩
  rw [h row hr]
  exact Bool.false_ne_true

theorem sum_getD_of_strictSum_eq {f : ProductProfitRow → Option ℚ} (h : ∀ row ∈ rows, f row ≠ none)
    (h' : ∀ row ∈ rows', f row ≠ none)
    (e : strictSumNullable (rows'.map f) = strictSumNullable (rows.map f)) :
    sumNumbers (rows'.map fun row => (f row).getD 0) = sumNumbers (rows.map fun row => (f row).getD 0) := by
  have e' := congrArg (·.getD 0) e
  simp only [strictSumNullable, getD_strictSum (notMem_none_iff.mpr h),
    getD_strictSum (notMem_none_iff.mpr h'), map_map] at e'
  rw [sumNumbers, sumNumbers, plainSum_eq_sum, plainSum_eq_sum]
  exact e'

variable
  (hp : ∀ f : PlainAmount, sumNumbers (rows'.map fun row => f.of row.toProductProfitFields) =
    sumNumbers (rows.map fun row => f.of row.toProductProfitFields))
  (hn : ∀ f : NullableAmount,
    strictSumNullable (rows'.map fun row => f.of row.toProductProfitFields) =
      strictSumNullable (rows.map fun row => f.of row.toProductProfitFields))
include hp hn

/-- Two lists of rows with the same amounts have the same sums. -/
theorem sumAmounts_eq : sumAmounts rows' = sumAmounts rows := by
  rw [sumAmounts, sumAmounts, SummedAmounts.mk.injEq]
  exact ⟨
    hp .reportedSalesKrw, hp .reportedNetSalesKrw, hp .reportedSalesQuantity,
    hp .reportedOrderCount, hp .cancelAmountKrw, hn .manualPurchaseSalesKrw,
    hp .manualPurchaseQuantity, hn .manualPurchaseProductCostKrw, hn .manualPurchaseVendorFeeKrw,
    hn .manualPurchaseCoupangSalesFeeKrw, hn .manualPurchaseShippingCostKrw,
    hn .manualPurchaseOtherCostKrw, hn .manualPurchaseTotalCostKrw, hn .actualSalesKrw,
    hn .actualNetSalesKrw, hn .actualSalesQuantity, hn .actualSalesKrw, hn .actualNetSalesKrw,
    hn .actualSalesQuantity, hn .productCostKrw, hn .salesFeeKrw, hn .shippingCostKrw,
    hp .sellerSalesQuantity, hp .growthSalesQuantity, hn .sellerShippingCostKrw,
    hn .hanaroShippingCostKrw, hn .growthInboundCostKrw, hn .growthShippingCostKrw,
    hn .totalLogisticsCostKrw, hn .returnCostKrw, hn .extraCostKrw, hn .vatKrw, hp .adSpendKrw,
    hp .adGeneratedSalesKrw, hp .adGeneratedQuantity, hp .attributedConversionSalesKrw,
    hp .attributedConversionQuantity, hn .organicSalesKrw, hp .reportedOrganicSalesKrw,
    hn .actualOrganicSalesKrw, hn .normalMarginKrw, hn .totalCostKrw, hn .marginKrw⟩

/-- Two lists of complete rows with the same amounts have the same summary totals. -/
theorem summaryTotals_eq (h : ∀ row ∈ rows, isCompleteRow row = true)
    (h' : ∀ row ∈ rows', isCompleteRow row = true) :
    (summarizeCoupangProductProfitRows rows').toProfitSummaryTotals =
      (summarizeCoupangProductProfitRows rows).toProfitSummaryTotals := by
  have known : ∀ (l : List ProductProfitRow), (∀ row ∈ l, isCompleteRow row = true) →
      (∀ row ∈ l, row.marginKrw ≠ none) ∧ ∀ row ∈ l, row.totalCostKrw ≠ none := by
    intro l hl
    refine ⟨fun row hr e => ?_, fun row hr e => ?_⟩
    · have := hl row hr
      simp [isCompleteRow, e] at this
    · have := hl row hr
      simp [isCompleteRow, e] at this
  obtain ⟨hc, hi⟩ := summarize_all_complete h
  obtain ⟨hc', hi'⟩ := summarize_all_complete h'
  have hmargin := sum_getD_of_strictSum_eq (known rows h).1 (known rows' h').1 (hn .marginKrw)
  have hcost := sum_getD_of_strictSum_eq (known rows h).2 (known rows' h').2 (hn .totalCostKrw)
  have hsums := sumAmounts_eq hp hn
  unfold summarizeCoupangProductProfitRows
  simp only [hc, hi, hc', hi', hmargin, hcost, hsums]

end Summary

/-! ## 6. The group view -/

/-- What the group view `out` keeps of the product rows `rows`. -/
structure GroupingConserves (rows : List ProductProfitRow) (products : List CoupangProduct)
    (out : List ProductProfitRow) : Prop where
  /-- Each row is in exactly one bucket, each output row is the row of one bucket. -/
  placed : ∃ buckets : List ProfitBucket, (buckets.flatMap (·.rows)).Perm rows ∧
    (out.map some).Perm (buckets.map rowOfBucket) ∧
    ∀ bucket ∈ buckets, BucketOf rows products bucket ∧ ∃ row, rowOfBucket bucket = some row ∧
      ∀ f : NullableAmount, f.of row.toProductProfitFields = none ↔
        ∃ r ∈ bucket.rows, f.of r.toProductProfitFields = none
  plain : ∀ f : PlainAmount, sumNumbers (out.map fun row => f.of row.toProductProfitFields) =
    sumNumbers (rows.map fun row => f.of row.toProductProfitFields)
  known : ∀ f : KnownAmount, sumNumbers (out.map fun row => f.of row.toProductProfitFields) =
    sumNumbers (rows.map fun row => f.of row.toProductProfitFields)
  nullable : ∀ f : NullableAmount,
    strictSumNullable (out.map fun row => f.of row.toProductProfitFields) =
      strictSumNullable (rows.map fun row => f.of row.toProductProfitFields)
  mirrored : (∀ row ∈ rows, Mirrored row.toProductProfitFields) → ∀ f : MirroredAmount,
    strictSumNullable (out.map fun row => f.of row.toProductProfitFields) =
      strictSumNullable (rows.map fun row => f.of row.toProductProfitFields)
  summary : (∀ row ∈ rows, isCompleteRow row = true) →
    (summarizeCoupangProductProfitRows out).toProfitSummaryTotals =
      (summarizeCoupangProductProfitRows rows).toProfitSummaryTotals

section View

variable {rows : List ProductProfitRow} {products : List CoupangProduct}

/-- An output row carries the sums of its bucket, whose rows are among the input rows. -/
theorem carriesSums_of_mem (localeCompare : String → String → ℚ)
    (hone : ((rowsOutside products rows).map (·.productId)).Nodup) {row : ProductProfitRow}
    (hr : row ∈ aggregateCoupangProductProfitRowsByGroup localeCompare rows products) :
    ∃ members : List ProductProfitRow, (∀ r ∈ members, r ∈ rows) ∧ CarriesSums row members := by
  have hr' := (perm_aggregateByGroup localeCompare rows products).mem_iff.mp hr
  obtain ⟨bucket, hb, hrow⟩ := mem_filterMap.mp hr'
  obtain ⟨row', hrow', hc⟩ := (bucketOf_mem_values hone hb).exists_row
  obtain rfl : row = row' := Option.some.inj (hrow.symm.trans hrow')
  refine ⟨bucket.rows, fun r hm => ?_, hc⟩
  exact (flatMap_rows_profitBuckets rows products).mem_iff.mp (mem_flatMap.mpr ⟨bucket, hb, hm⟩)

/-- **With one row a product outside any group the group view conserves the report.** -/
theorem grouping_conserves_report (localeCompare : String → String → ℚ)
    (rows : List ProductProfitRow) (products : List CoupangProduct)
    (hone : ((rowsOutside products rows).map (·.productId)).Nodup) :
    GroupingConserves rows products
      (aggregateCoupangProductProfitRowsByGroup localeCompare rows products) := by
  have hplain := fun f : PlainAmount => sum_byGroup products localeCompare
    hone fun row members (hc : CarriesSums row members) => hc.plain f
  have hnull := fun f : NullableAmount => strictSum_byGroup products localeCompare
    hone fun row members (hc : CarriesSums row members) => hc.nullable f
  refine ⟨?_, hplain, ?_, hnull, ?_, ?_⟩
  · refine ⟨(profitBuckets rows products).values, flatMap_rows_profitBuckets rows products, ?_,
      fun bucket hb => ?_⟩
    · rw [← map_filterMap_rowOfBucket (fun _ _ hrow _ => hrow.symm)
        fun bucket hb => bucketOf_mem_values hone hb]
      exact (perm_aggregateByGroup localeCompare rows products).map some
    · have hof := bucketOf_mem_values hone hb
      obtain ⟨row, hrow, hc⟩ := hof.exists_row
      refine ⟨hof, row, hrow, fun f => ?_⟩
      rw [hc.nullable f, strictSumNullable, strictSum_eq_none_iff, mem_map]
  · exact fun f => sum_byGroup products localeCompare hone fun row members hc => hc.known f
  · intro hm f
    have hout : ∀ row ∈ aggregateCoupangProductProfitRowsByGroup localeCompare rows products,
        f.of row.toProductProfitFields = f.actual.of row.toProductProfitFields := by
      intro row hr
      obtain ⟨members, hsub, hc⟩ := carriesSums_of_mem localeCompare hone hr
      exact hc.mirrored (fun r hr => hm r (hsub r hr)) f
    rw [map_congr_left hout, hnull f.actual]
    exact congrArg strictSumNullable (map_congr_left fun row hr => (hm row hr f).symm)
  · intro hall
    refine summaryTotals_eq hplain hnull hall fun row hr => ?_
    obtain ⟨members, hsub, hc⟩ := carriesSums_of_mem localeCompare hone hr
    have hmem : ∀ r ∈ members, isCompleteRow r = true := fun r hm => hall r (hsub r hm)
    exact hc.isCompleteRow hmem

end View

/-- The facts of a day on which one unit was sold at a price. -/
def dayOfSale (productId : String) (priceKrw : ℚ) : DayFacts where
  productId := productId
  productName := productId
  date := 20000
  reported := reportedSalesFactsAt
    [{ productId, date := "2024-10-04", salesKrw := priceKrw, cancelAmountKrw := 0,
       netSalesKrw := priceKrw, salesQuantity := 1, orderCount := 1, saleMethod := none,
       lineCount := some 1, productName := none }] productId "2024-10-04" productId
  manual := none
  performance := ⟨productId, "2024-10-04", 0, 0, 0⟩
  attribution := ⟨productId, "2024-10-04", 0, 0⟩
  costRule := none
  salesFeeRule := none
  resolvedPrice := ⟨none, none, none, .MISSING, []⟩

/-- Two products of one group. -/
def pairOfProducts : List CoupangProduct :=
  [{ id := "p1", displayName := "p1", group := some ⟨"g", "Pair"⟩, sortOrder := 1, isActive := true },
   { id := "p2", displayName := "p2", group := some ⟨"g", "Pair"⟩, sortOrder := 2, isActive := true }]

/-- Two rows of one product of the group, one of the other, and one of a product outside. -/
def rowsOfPair : List ProductProfitRow :=
  [profitRowOfDay (dayOfSale "p1" 1000), profitRowOfDay (dayOfSale "p1" 500),
   profitRowOfDay (dayOfSale "p2" 2000), profitRowOfDay (dayOfSale "p3" 300)]

theorem grouping_conserves_report_pairOfProducts :
    GroupingConserves rowsOfPair pairOfProducts
      (aggregateCoupangProductProfitRowsByGroup (fun _ _ => 0) rowsOfPair pairOfProducts) :=
  grouping_conserves_report (fun _ _ => 0) rowsOfPair pairOfProducts (by decide)

/-- The row of a day, called COMPLETE and with a margin and a total cost of its own. -/
def completeRowOf (productId : String) (marginKrw : Option ℚ) : ProductProfitRow :=
  { profitRowOfDay (dayOfSale productId 1000) with
    calculationStatus := .COMPLETE, marginKrw, totalCostKrw := some 0 }

/-- Two rows of one product outside any group: only the first is shown, and 2,000 of the reported
    sales are gone. With one row a product, the sums still fail for sales that do not repeat the
    actual sales, and the summary for a COMPLETE row without a margin: it hides the margin of the
    other product of its group. -/
theorem grouping_loses_second_row :
    (¬ ∀ (localeCompare : String → String → ℚ) (rows : List ProductProfitRow)
      (products : List CoupangProduct) (f : PlainAmount),
      sumNumbers ((aggregateCoupangProductProfitRowsByGroup localeCompare rows products).map
        fun row => f.of row.toProductProfitFields) =
      sumNumbers (rows.map fun row => f.of row.toProductProfitFields)) ∧
    (¬ ∀ (localeCompare : String → String → ℚ) (rows : List ProductProfitRow)
      (products : List CoupangProduct) (f : MirroredAmount), (rows.map (·.productId)).Nodup →
      strictSumNullable ((aggregateCoupangProductProfitRowsByGroup localeCompare rows products).map
        fun row => f.of row.toProductProfitFields) =
      strictSumNullable (rows.map fun row => f.of row.toProductProfitFields)) ∧
    ¬ ∀ (localeCompare : String → String → ℚ) (rows : List ProductProfitRow)
      (products : List CoupangProduct), (rows.map (·.productId)).Nodup →
      (∀ row ∈ rows, row.calculationStatus = .COMPLETE) →
      (summarizeCoupangProductProfitRows
        (aggregateCoupangProductProfitRowsByGroup localeCompare rows products)).knownMarginKrw =
      (summarizeCoupangProductProfitRows rows).knownMarginKrw := by
  refine ⟨fun h => ?_, fun h => ?_, fun h => ?_⟩
  · have h' := h (fun _ _ => 0)
      [profitRowOfDay (dayOfSale "p1" 1000), profitRowOfDay (dayOfSale "p1" 2000)] []
      .reportedSalesKrw
    exact absurd h' (by decide +kernel)
  · have h' := h (fun _ _ => 0)
      [{ profitRowOfDay (dayOfSale "p1" 1000) with salesKrw := some 7 }] pairOfProducts .salesKrw
      (by decide)
    exact absurd h' (by decide +kernel)
  · have h' := h (fun _ _ => 0) [completeRowOf "p1" none, completeRowOf "p2" (some 5)]
      pairOfProducts (by decide) (by decide +kernel)
    exact absurd h' (by decide +kernel)

/-! ## 7. From the days to the groups -/

theorem dates_plain (f : PlainAmount) (first : ProductProfitRow) (rest : List ProductProfitRow) :
    f.of (aggregateCoupangProductDateRows first rest).toProductProfitFields =
      sumNumbers ((first :: rest).map fun row => f.of row.toProductProfitFields) := by
  cases rest with
  | nil => simp [aggregateCoupangProductDateRows, sumNumbers, plainSum_eq_sum]
  | cons second rest =>
    rw [← group_plain ⟨first.productId, first.productName⟩]
    cases f <;> rfl

/-- **The totals of the report and of its group view are those of the days**, whatever groups the
    products have. -/
theorem report_conserves_days (localeCompare : String → String → ℚ) (tables : ProfitTables)
    (range : DateRange) (products : List CoupangProduct) (f : PlainAmount) :
    let total := fun rows : List ProductProfitRow =>
      sumNumbers (rows.map fun row => f.of row.toProductProfitFields)
    let report := buildProductProfitRows localeCompare tables range
    report.map total = (dailyRows tables range).map total ∧
    report.map (fun rows => total (aggregateCoupangProductProfitRowsByGroup localeCompare rows products)) =
      (dailyRows tables range).map total := by
  intro total report
  unfold report buildProductProfitRows
  cases dailyRows tables range with
  | error e => exact ⟨rfl, rfl⟩
  | ok daily =>
    let days := groupBy (fun row : ProductProfitRow => row.productId) daily
    let amount := fun row : ProductProfitRow => f.of row.toProductProfitFields
    have hrows : ∀ {β : Type} (φ : ProductProfitRow → β) (ψ : String × List ProductProfitRow → β),
        (∀ e ∈ days.entries, ∀ first rest, e.2 = first :: rest →
          φ (aggregateCoupangProductDateRows first rest) = ψ e) →
        (days.values.filterMap rowOfDays).map φ = days.entries.map ψ := by
      intro β φ ψ hψ
      rw [OrderedMap.values, filterMap_map, map_filterMap, ← filterMap_eq_map]
      refine filterMap_congr fun e he => ?_
      obtain ⟨first, rest, hcons⟩ := exists_cons_of_ne_nil (mem_entries_groupBy.mp he).2
      rw [Function.comp_apply, hcons]
      exact congrArg some (hψ e he first rest hcons)
    -- one row a product
    have hids := hrows (·.productId) (·.1) fun e he first rest hcons => by
      have hmem : first ∈ daily.filter (·.productId = e.1) := by
        rw [← (mem_entries_groupBy.mp he).1, hcons]
        exact mem_cons_self
      rw [← of_decide_eq_true (mem_filter.mp hmem).2, aggregateCoupangProductDateRows]
      split <;> rfl
    have hperm := perm_insertionSort (profitRowsInOrder localeCompare) (days.values.filterMap rowOfDays)
    have hone : (((days.values.filterMap rowOfDays).insertionSort
        (profitRowsInOrder localeCompare)).map (·.productId)).Nodup := by
      rw [(hperm.map _).nodup_iff, hids]
      exact days.nodup_keys
    have htotal : total ((days.values.filterMap rowOfDays).insertionSort
        (profitRowsInOrder localeCompare)) = total daily := by
      calc total _ = plainSum ((days.values.filterMap rowOfDays).map amount) := plainSum_perm (hperm.map _)
        _ = plainSum (days.entries.map fun e => plainSum (e.2.map amount)) :=
          congrArg plainSum (hrows _ _ fun e _ first rest hcons => by rw [hcons]; exact dates_plain f first rest)
        _ = plainSum (days.values.flatten.map amount) := by
          rw [map_flatten, plainSum_flatten, OrderedMap.values, map_map, map_map]
          rfl
        _ = total daily := plainSum_perm ((flatten_values_groupBy _ _).map _)
    exact ⟨congrArg Except.ok htotal, congrArg Except.ok
      ((sum_byGroup products localeCompare (hone.sublist (filter_sublist.map _)) fun row members hc =>
        hc.plain f).trans htotal)⟩

end AdsManagement.Coupang
