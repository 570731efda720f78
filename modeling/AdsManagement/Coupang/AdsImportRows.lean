/-
  File:      Coupang/AdsImportRows.lean
  Subject:   AD ROWS OF ONE KEY ADDED UP: `aggregateCoupangAdsImportRows` (coupang.service.ts),
             between the parser of an ads workbook and its import.

  SHA-256 is a parameter (`sha256`), of the value whose JSON the source digests. The row hashes
  are hexadecimal, so JavaScript's order of code units is the order of `String`.

  * `entries_adGroups` -- the groups of the map are the accepted rows, key by key;
  * `aggregateCoupangAdsGroup_eq` -- a group of accepted rows always makes a row;
  * `perm_aggregateCoupangAdsImportRows` -- the rows that go to the import: the rejected ones as
    they came and one row for each group;
  * `fingerprint_aggregateRow` -- key, metrics and hash of that row are those of any order.
-/
import AdsManagement.Coupang.Rows
import AdsManagement.Lib.Fallible
import AdsManagement.Lib.OrderedMap
import Mathlib.Algebra.BigOperators.Ring.Finset
import Mathlib.Data.String.Basic

namespace AdsManagement.Coupang.AdsImport

open Lib List

/-! ## 1. Rows -/

structure ParsedCoupangAdsRowResult where
  rowNumber : Nat
  rawRow : RawRow
  sourceRowHash : String
  parsedRow : Option ParsedCoupangAdRow
  issues : List ParseIssue

/-- `{ ...row, rawRow: row.rawRow as Prisma.InputJsonObject }`. -/
def passthrough (row : ParsedCoupangAdsRowResult) : CoupangAdsImportRow where
  rowNumber := row.rowNumber
  rawRow := .cells row.rawRow
  sourceRowHash := row.sourceRowHash
  parsedRow := row.parsedRow
  issues := row.issues

inductive CoupangAdsNumericMetricKey where
  | impressions
  | clicks
  | adSpendKrw
  | totalOrders1d
  | directOrders1d
  | indirectOrders1d
  | totalConversionSales1dKrw
  | directConversionSales1dKrw
  | indirectConversionSales1dKrw
  | totalSalesQuantity1d
  | directSalesQuantity1d
  | indirectSalesQuantity1d
deriving DecidableEq

/-- `row[field]`. -/
def metric (row : ParsedCoupangAdRow) : CoupangAdsNumericMetricKey → ℚ
  | .impressions => row.impressions
  | .clicks => row.clicks
  | .adSpendKrw => row.adSpendKrw
  | .totalOrders1d => row.totalOrders1d
  | .directOrders1d => row.directOrders1d
  | .indirectOrders1d => row.indirectOrders1d
  | .totalConversionSales1dKrw => row.totalConversionSales1dKrw
  | .directConversionSales1dKrw => row.directConversionSales1dKrw
  | .indirectConversionSales1dKrw => row.indirectConversionSales1dKrw
  | .totalSalesQuantity1d => row.totalSalesQuantity1d
  | .directSalesQuantity1d => row.directSalesQuantity1d
  | .indirectSalesQuantity1d => row.indirectSalesQuantity1d

/-! ## 2. Aggregation -/

section Source

variable (sha256 : String × List String → String)

def sumCoupangAdsMetric {α : Type} [Zero α] [Add α] (rows : List ParsedCoupangAdsRowResult)
    (field : ParsedCoupangAdRow → α) : α :=
  rows.foldl (fun sum row => sum + (row.parsedRow.map field).getD 0) 0

def hashCoupangAdsAggregateRow (adMetricKey : String) (sourceRowHashes : List String) : String :=
  sha256 (adMetricKey, sourceRowHashes.insertionSort (· ≤ ·))

/-- The object that `aggregateCoupangAdsGroup` returns. -/
def aggregateRow (adMetricKey : String) (sourceRows : List ParsedCoupangAdsRowResult)
    (first : ParsedCoupangAdsRowResult) (parsedRow : ParsedCoupangAdRow) : CoupangAdsImportRow :=
  let sourceRowNumbers := sourceRows.map fun row => row.rowNumber
  let sourceRowHashes := sourceRows.map fun row => row.sourceRowHash
  { rowNumber := first.rowNumber
    sourceRowHash := hashCoupangAdsAggregateRow sha256 adMetricKey sourceRowHashes
    rawRow := .aggregate (decide (sourceRows.length > 1)) adMetricKey sourceRowNumbers
      sourceRows.length sourceRowHashes
    parsedRow := some
      { parsedRow with
        impressions := sumCoupangAdsMetric sourceRows (·.impressions)
        clicks := sumCoupangAdsMetric sourceRows (·.clicks)
        adSpendKrw := sumCoupangAdsMetric sourceRows (·.adSpendKrw)
        totalOrders1d := sumCoupangAdsMetric sourceRows (·.totalOrders1d)
        directOrders1d := sumCoupangAdsMetric sourceRows (·.directOrders1d)
        indirectOrders1d := sumCoupangAdsMetric sourceRows (·.indirectOrders1d)
        totalConversionSales1dKrw := sumCoupangAdsMetric sourceRows (·.totalConversionSales1dKrw)
        directConversionSales1dKrw := sumCoupangAdsMetric sourceRows (·.directConversionSales1dKrw)
        indirectConversionSales1dKrw :=
          sumCoupangAdsMetric sourceRows (·.indirectConversionSales1dKrw)
        totalSalesQuantity1d := sumCoupangAdsMetric sourceRows (·.totalSalesQuantity1d)
        directSalesQuantity1d := sumCoupangAdsMetric sourceRows (·.directSalesQuantity1d)
        indirectSalesQuantity1d := sumCoupangAdsMetric sourceRows (·.indirectSalesQuantity1d) }
    issues := [] }

def inFileOrder (rows : List ParsedCoupangAdsRowResult) : List ParsedCoupangAdsRowResult :=
  rows.insertionSort fun left right => left.rowNumber ≤ right.rowNumber

def aggregateCoupangAdsGroup (adMetricKey : String) (rows : List ParsedCoupangAdsRowResult) :
    Except String CoupangAdsImportRow :=
  let sourceRows := inFileOrder rows
  match sourceRows with
  | [] => .error "Cannot aggregate Coupang Ads rows without a parsed row."
  | first :: _ =>
    match first.parsedRow with
    | none => .error "Cannot aggregate Coupang Ads rows without a parsed row."
    | some parsedRow => .ok (aggregateRow sha256 adMetricKey sourceRows first parsedRow)

abbrev AdGroups := OrderedMap String (List ParsedCoupangAdsRowResult)

/-- The loop `for (const row of rows)`: a row goes to `passthroughRows` or to the group of its key. -/
def splitRow (state : List CoupangAdsImportRow × AdGroups) (row : ParsedCoupangAdsRowResult) :
    List CoupangAdsImportRow × AdGroups :=
  match row.parsedRow with
  | none => (state.1 ++ [passthrough row], state.2)
  | some parsedRow =>
    if row.issues.length > 0 then (state.1 ++ [passthrough row], state.2)
    else
      let adMetricKey := coupangAdMetricKey parsedRow
      let group := (state.2.get adMetricKey).getD []
      (state.1, state.2.set adMetricKey (group ++ [row]))

def aggregateCoupangAdsImportRows (rows : List ParsedCoupangAdsRowResult) :
    Except String (List CoupangAdsImportRow) := do
  let (passthroughRows, groups) := rows.foldl splitRow ([], OrderedMap.empty)
  let aggregates ← groups.entries.mapM fun (adMetricKey, group) =>
    aggregateCoupangAdsGroup sha256 adMetricKey group
  return (passthroughRows ++ aggregates).insertionSort fun left right =>
    left.rowNumber ≤ right.rowNumber

end Source

/-! ## 3. Accepted and rejected rows -/

/-- The key of a row that has been parsed without an issue. -/
def logicalKey (parsedRow : Option ParsedCoupangAdRow) (issues : List ParseIssue) : Option String :=
  if issues = [] then parsedRow.map coupangAdMetricKey else none

def ParsedCoupangAdsRowResult.key (row : ParsedCoupangAdsRowResult) : Option String :=
  logicalKey row.parsedRow row.issues

def importKey (row : CoupangAdsImportRow) : Option String :=
  logicalKey row.parsedRow row.issues

def rejected (rows : List ParsedCoupangAdsRowResult) : List ParsedCoupangAdsRowResult :=
  rows.filter fun row => row.key.isNone

def accepted (rows : List ParsedCoupangAdsRowResult) : List ParsedCoupangAdsRowResult :=
  rows.filter fun row => row.key.isSome

def ofKey (k : String) (rows : List ParsedCoupangAdsRowResult) : List ParsedCoupangAdsRowResult :=
  rows.filter fun row => row.key = some k

def adGroups (rows : List ParsedCoupangAdsRowResult) : AdGroups :=
  groupBy (fun row => row.key.getD "") (accepted rows)

variable {row : ParsedCoupangAdsRowResult}

theorem splitRow_of_rejected (h : row.key = none) (state : List CoupangAdsImportRow × AdGroups) :
    splitRow state row = (state.1 ++ [passthrough row], state.2) := by
  unfold ParsedCoupangAdsRowResult.key logicalKey at h
  unfold splitRow
  cases hp : row.parsedRow with
  | none => rfl
  | some parsedRow =>
    have hissues : row.issues.length > 0 := by
      rw [hp] at h
      by_contra hzero
      have hnil : row.issues = [] := length_eq_zero_iff.mp (by omega)
      rw [if_pos hnil] at h
      exact (nomatch h)
    exact if_pos hissues

variable {k : String}

theorem splitRow_of_accepted (h : row.key = some k) (state : List CoupangAdsImportRow × AdGroups) :
    splitRow state row = (state.1, state.2.set k ((state.2.get k).getD [] ++ [row])) := by
  unfold ParsedCoupangAdsRowResult.key logicalKey at h
  unfold splitRow
  split at h
  · rename_i hissues
    obtain ⟨parsedRow, hp, rfl⟩ := Option.map_eq_some_iff.mp h
    have hlen : ¬ row.issues.length > 0 := by simp [hissues]
    simp only [hp, if_neg hlen]
  · cases h

/-- **The loop splits the rows**: the rejected ones in their order and the groups of the others. -/
theorem foldl_splitRow (rows : List ParsedCoupangAdsRowResult) :
    rows.foldl splitRow ([], OrderedMap.empty) = ((rejected rows).map passthrough, adGroups rows) := by
  have run : ∀ (rows : List ParsedCoupangAdsRowResult) (passed : List CoupangAdsImportRow)
      (groups : AdGroups), rows.foldl splitRow (passed, groups) =
        (passed ++ (rejected rows).map passthrough, (accepted rows).foldl
          (fun m row => m.set (row.key.getD "") (((m.get (row.key.getD "")).getD []) ++ [row]))
          groups) := by
    intro rows
    induction rows with
    | nil => intro passed groups; simp [rejected, accepted]
    | cons row rest ih =>
      intro passed groups
      rw [foldl_cons]
      cases h : row.key with
      | none =>
        rw [splitRow_of_rejected h, ih]
        simp [rejected, accepted, h]
      | some k =>
        rw [splitRow_of_accepted h, ih]
        simp [rejected, accepted, h]
  exact run rows [] OrderedMap.empty

theorem filter_accepted (k : String) (rows : List ParsedCoupangAdsRowResult) :
    (accepted rows).filter (fun row => row.key.getD "" = k) = ofKey k rows := by
  unfold accepted
  rw [filter_filter]
  refine filter_congr fun row _ => ?_
  cases row.key with
  | none | some j => simp

variable {rows : List ParsedCoupangAdsRowResult}
variable {e : String × List ParsedCoupangAdsRowResult}

/-- **A group of the map holds the rows of its key**, in their order. -/
theorem entries_adGroups :
    e ∈ (adGroups rows).entries ↔ e.2 = ofKey e.1 rows ∧ e.2 ≠ [] := by
  unfold adGroups
  rw [mem_entries_groupBy, filter_accepted]

/-! ## 4. One group -/

/-- What a row adds to the sum of a metric: `Number(row.parsedRow?.[field] ?? 0)`. -/
def metricOf (field : CoupangAdsNumericMetricKey) (row : ParsedCoupangAdsRowResult) : ℚ :=
  (row.parsedRow.map (metric · field)).getD 0

theorem sumCoupangAdsMetric_eq {α : Type} [AddMonoid α] (rows : List ParsedCoupangAdsRowResult)
    (field : ParsedCoupangAdRow → α) :
    sumCoupangAdsMetric rows field = (rows.map fun row => (row.parsedRow.map field).getD 0).sum := by
  have run : ∀ (rows : List ParsedCoupangAdsRowResult) (sum : α),
      rows.foldl (fun sum row => sum + (row.parsedRow.map field).getD 0) sum =
        sum + (rows.map fun row => (row.parsedRow.map field).getD 0).sum := by
    intro rows
    induction rows with
    | nil => intro sum; exact (add_zero sum).symm
    | cons row rest ih =>
      intro sum
      rw [foldl_cons, ih, map_cons, sum_cons, add_assoc]
  exact (run rows 0).trans (zero_add _)

theorem cast_sumCoupangAdsMetric (rows : List ParsedCoupangAdsRowResult)
    (field : ParsedCoupangAdRow → Int) :
    ((sumCoupangAdsMetric rows field : Int) : ℚ) =
      sumCoupangAdsMetric rows fun parsedRow => (field parsedRow : ℚ) := by
  rw [sumCoupangAdsMetric_eq, sumCoupangAdsMetric_eq, Int.cast_list_sum, map_map]
  refine congrArg sum (map_congr_left fun row _ => ?_)
  cases h : row.parsedRow with
  | none | some parsedRow => simp [h]

section Group

variable (sha256 : String × List String → String)
variable {first : ParsedCoupangAdsRowResult} {parsedRow : ParsedCoupangAdRow}

/-- **Every metric of the row of a group is the sum over the group.** -/
theorem metric_aggregateRow {sourceRows : List ParsedCoupangAdsRowResult} {total : ParsedCoupangAdRow}
    (h : (aggregateRow sha256 k sourceRows first parsedRow).parsedRow = some total)
    (field : CoupangAdsNumericMetricKey) :
    metric total field = (sourceRows.map (metricOf field)).sum := by
  have hsum : metric total field = sumCoupangAdsMetric sourceRows (metric · field) := by
    cases h
    cases field with
    | impressions | clicks | totalOrders1d | directOrders1d | indirectOrders1d =>
      exact cast_sumCoupangAdsMetric sourceRows _
    | _ => rfl
  rw [hsum, sumCoupangAdsMetric_eq]
  rfl

theorem perm_inFileOrder (rows : List ParsedCoupangAdsRowResult) : (inFileOrder rows).Perm rows :=
  perm_insertionSort _ rows

/-- **A group of accepted rows always makes a row**, from one of its rows. -/
theorem aggregateCoupangAdsGroup_eq {group : List ParsedCoupangAdsRowResult} (hne : group ≠ [])
    (hk : ∀ row ∈ group, row.key = some k) :
    ∃ first parsedRow, aggregateCoupangAdsGroup sha256 k group =
        .ok (aggregateRow sha256 k (inFileOrder group) first parsedRow) ∧
      coupangAdMetricKey parsedRow = k := by
  unfold aggregateCoupangAdsGroup
  cases hs : inFileOrder group with
  | nil =>
    have hperm := perm_inFileOrder group
    rw [hs] at hperm
    exact absurd hperm.symm.eq_nil hne
  | cons first rest =>
    have hfirst : first ∈ group :=
      (perm_inFileOrder group).subset (by rw [hs]; exact mem_cons_self)
    have hkey := hk first hfirst
    unfold ParsedCoupangAdsRowResult.key logicalKey at hkey
    split at hkey
    · obtain ⟨parsedRow, hp, e⟩ := Option.map_eq_some_iff.mp hkey
      exact ⟨first, parsedRow, by simp only [hp], e⟩
    · exact (nomatch hkey)

/-! ## 5. What does not depend on the order -/

/-- Key, metrics and hash of a row that goes to the import. -/
def fingerprint (row : CoupangAdsImportRow) :
    Option String × Option (CoupangAdsNumericMetricKey → ℚ) × String :=
  (row.parsedRow.map coupangAdMetricKey, row.parsedRow.map metric, row.sourceRowHash)

/-- The fingerprint of the row of a key, from the rows of the file. -/
def groupFingerprint (rows : List ParsedCoupangAdsRowResult) (k : String) :
    Option String × Option (CoupangAdsNumericMetricKey → ℚ) × String :=
  (some k, some fun field => ((ofKey k rows).map (metricOf field)).sum,
    hashCoupangAdsAggregateRow sha256 k ((ofKey k rows).map (·.sourceRowHash)))

theorem hashCoupangAdsAggregateRow_perm (k : String) {hashes hashes' : List String}
    (h : hashes.Perm hashes') :
    hashCoupangAdsAggregateRow sha256 k hashes = hashCoupangAdsAggregateRow sha256 k hashes' := by
  have hsorted : hashes.insertionSort (· ≤ ·) = hashes'.insertionSort (· ≤ ·) := by
    refine Perm.eq_of_pairwise' (pairwise_insertionSort _ hashes)
      (pairwise_insertionSort _ hashes') ?_
    exact (perm_insertionSort _ _).trans (h.trans (perm_insertionSort _ _).symm)
  unfold hashCoupangAdsAggregateRow
  rw [hsorted]

variable {rows' : List ParsedCoupangAdsRowResult}

theorem groupFingerprint_perm (h : rows.Perm rows') (k : String) :
    groupFingerprint sha256 rows k = groupFingerprint sha256 rows' k := by
  have hof : (ofKey k rows).Perm (ofKey k rows') := h.filter _
  have hsum : ∀ field, ((ofKey k rows).map (metricOf field)).sum =
      ((ofKey k rows').map (metricOf field)).sum := fun field => (hof.map _).sum_eq
  unfold groupFingerprint
  rw [funext hsum, hashCoupangAdsAggregateRow_perm sha256 k (hof.map _)]

/-- **Key, metrics and hash of the row of a group are those of the rows of its key.** -/
theorem fingerprint_aggregateRow (hk : coupangAdMetricKey parsedRow = k) :
    fingerprint (aggregateRow sha256 k (inFileOrder (ofKey k rows)) first parsedRow) =
      groupFingerprint sha256 rows k := by
  have hperm := perm_inFileOrder (ofKey k rows)
  have hmetric : ∀ total,
      (aggregateRow sha256 k (inFileOrder (ofKey k rows)) first parsedRow).parsedRow = some total →
        metric total = fun field => ((ofKey k rows).map (metricOf field)).sum := by
    intro total ht
    funext field
    rw [metric_aggregateRow sha256 ht field]
    exact (hperm.map _).sum_eq
  refine Prod.ext (congrArg some hk) (Prod.ext (congrArg some (hmetric _ rfl)) ?_)
  exact hashCoupangAdsAggregateRow_perm sha256 k (hperm.map _)

theorem key_aggregateRow (k : String) (sourceRows : List ParsedCoupangAdsRowResult)
    (first : ParsedCoupangAdsRowResult) (parsedRow : ParsedCoupangAdRow) :
    importKey (aggregateRow sha256 k sourceRows first parsedRow) = some (coupangAdMetricKey parsedRow) :=
  rfl

/-! ## 6. The import rows of a file -/

/-- The row of an entry of the map: its key and its fingerprint. -/
theorem aggregateCoupangAdsGroup_of_mem (he : e ∈ (adGroups rows).entries) :
    ∃ row, aggregateCoupangAdsGroup sha256 e.1 e.2 = .ok row ∧ importKey row = some e.1 ∧
      fingerprint row = groupFingerprint sha256 rows e.1 := by
  obtain ⟨hgroup, hne⟩ := entries_adGroups.mp he
  have hk : ∀ row ∈ e.2, row.key = some e.1 := by
    intro row hrow
    rw [hgroup] at hrow
    exact of_decide_eq_true (mem_filter.mp hrow).2
  obtain ⟨first, parsedRow, hrun, hkey⟩ := aggregateCoupangAdsGroup_eq sha256 hne hk
  refine ⟨_, hrun, ?_, ?_⟩
  · rw [key_aggregateRow, hkey]
  · rw [hgroup]
    exact fingerprint_aggregateRow sha256 hkey

/-- **The rows that go to the import**: the rejected rows as they came and one row for each key. -/
theorem perm_aggregateCoupangAdsImportRows (rows : List ParsedCoupangAdsRowResult) :
    ∃ out aggregates, aggregateCoupangAdsImportRows sha256 rows = .ok out ∧
      out.Perm ((rejected rows).map passthrough ++ aggregates) ∧
      aggregates.map importKey = (adGroups rows).keys.map some ∧
      aggregates.map fingerprint = (adGroups rows).keys.map (groupFingerprint sha256 rows) := by
  obtain ⟨aggregates, hrun⟩ := exists_mapM_eq_ok (l := (adGroups rows).entries)
    (f := fun e => aggregateCoupangAdsGroup sha256 e.1 e.2) fun e he => by
      obtain ⟨row, hrow, _, _⟩ := aggregateCoupangAdsGroup_of_mem sha256 he
      exact ⟨row, hrow⟩
  have hturn : ∀ e ∈ (adGroups rows).entries, ∀ row, aggregateCoupangAdsGroup sha256 e.1 e.2 = .ok row →
      importKey row = some e.1 ∧ fingerprint row = groupFingerprint sha256 rows e.1 := by
    intro e he row hrow
    obtain ⟨row', hrow', hkey, hprint⟩ := aggregateCoupangAdsGroup_of_mem sha256 he
    have heq : row' = row := Except.ok.inj (hrow'.symm.trans hrow)
    exact heq ▸ ⟨hkey, hprint⟩
  refine ⟨((rejected rows).map passthrough ++ aggregates).insertionSort
    fun left right => left.rowNumber ≤ right.rowNumber, aggregates, ?_,
    perm_insertionSort _ _, ?_, ?_⟩
  · unfold aggregateCoupangAdsImportRows
    rw [foldl_splitRow]
    exact bind_eq_ok.mpr ⟨aggregates, hrun, rfl⟩
  · rw [map_eq_map_of_mapM_eq_ok hrun fun e he row hrow => (hturn e he row hrow).1,
      OrderedMap.keys, map_map]
    rfl
  · rw [map_eq_map_of_mapM_eq_ok hrun fun e he row hrow => (hturn e he row hrow).2,
      OrderedMap.keys, map_map]
    rfl

theorem mem_keys_adGroups : k ∈ (adGroups rows).keys ↔ ∃ row ∈ rows, row.key = some k := by
  constructor
  · intro h
    obtain ⟨e, he, rfl⟩ := mem_map.mp h
    obtain ⟨hgroup, hne⟩ := entries_adGroups.mp he
    obtain ⟨row, hrow⟩ := exists_mem_of_ne_nil _ hne
    rw [hgroup] at hrow
    exact ⟨row, (mem_filter.mp hrow).1, of_decide_eq_true (mem_filter.mp hrow).2⟩
  · intro ⟨row, hrow, hk⟩
    have hmem : row ∈ ofKey k rows := mem_filter.mpr ⟨hrow, decide_eq_true hk⟩
    exact mem_map.mpr ⟨(k, ofKey k rows), entries_adGroups.mpr ⟨rfl, ne_nil_of_mem hmem⟩, rfl⟩

theorem perm_keys_adGroups (h : rows.Perm rows') :
    (adGroups rows).keys.Perm (adGroups rows').keys := by
  rw [perm_ext_iff_of_nodup (adGroups rows).nodup_keys (adGroups rows').nodup_keys]
  intro k
  rw [mem_keys_adGroups, mem_keys_adGroups]
  simp only [h.mem_iff]

theorem key_of_mem_rejected {row : CoupangAdsImportRow} (h : row ∈ (rejected rows).map passthrough) :
    importKey row = none := by
  obtain ⟨source, hs, rfl⟩ := mem_map.mp h
  exact Option.isNone_iff_eq_none.mp (mem_filter.mp hs).2

/-- **The aggregation conserves the file.** It never fails; the rows with an issue come through as
    they are; there is one other row for each key of the file, every metric of it the sum over the
    rows of the key; and key, metrics and hash of all rows are those of any order of the file. -/
theorem aggregateCoupangAdsImportRows_conserves (rows : List ParsedCoupangAdsRowResult) :
    ∃ out, aggregateCoupangAdsImportRows sha256 rows = .ok out ∧
      (out.filter fun row => (importKey row).isNone).Perm ((rejected rows).map passthrough) ∧
      (out.filterMap importKey).Nodup ∧
      (∀ k, k ∈ out.filterMap importKey ↔ ∃ row ∈ rows, row.key = some k) ∧
      (∀ row ∈ out, ∀ k, importKey row = some k → ∃ total, row.parsedRow = some total ∧
        ∀ field, metric total field = ((ofKey k rows).map (metricOf field)).sum) ∧
      ∀ rows', rows.Perm rows' → ∃ out', aggregateCoupangAdsImportRows sha256 rows' = .ok out' ∧
        (out.map fingerprint).Perm (out'.map fingerprint) := by
  obtain ⟨out, aggregates, hrun, hperm, hkeys, hprints⟩ :=
    perm_aggregateCoupangAdsImportRows sha256 rows
  have hsome : ∀ row ∈ aggregates, ∃ k ∈ (adGroups rows).keys, importKey row = some k := by
    intro row hrow
    have hmem := mem_map_of_mem (f := importKey) hrow
    rw [hkeys] at hmem
    obtain ⟨k, hk, e⟩ := mem_map.mp hmem
    exact ⟨k, hk, e.symm⟩
  have hfilterMap : (out.filterMap importKey).Perm (adGroups rows).keys := by
    refine (hperm.filterMap _).trans (Perm.of_eq ?_)
    have hnone : ((rejected rows).map passthrough).filterMap importKey = [] := by
      rw [filterMap_eq_nil_iff]
      exact fun row => key_of_mem_rejected
    rw [filterMap_append, hnone]
    calc aggregates.filterMap importKey
        = (aggregates.map importKey).filterMap id := by rw [filterMap_map]; rfl
      _ = (adGroups rows).keys := by rw [hkeys, filterMap_map]; exact filterMap_some
  refine ⟨out, hrun, ?_, ?_, ?_, ?_, ?_⟩
  · refine (hperm.filter _).trans (Perm.of_eq ?_)
    rw [filter_append, filter_eq_self.mpr, filter_eq_nil_iff.mpr, append_nil]
    · intro row hrow
      obtain ⟨k, _, hk⟩ := hsome row hrow
      simp [hk]
    · intro row hrow
      exact Option.isNone_iff_eq_none.mpr (key_of_mem_rejected hrow)
  · exact hfilterMap.nodup_iff.mpr (adGroups rows).nodup_keys
  · intro k
    rw [hfilterMap.mem_iff, mem_keys_adGroups]
  · intro row hrow k hk
    have hagg : row ∈ aggregates := by
      rcases mem_append.mp (hperm.subset hrow) with h | h
      · rw [key_of_mem_rejected h] at hk
        exact (nomatch hk)
      · exact h
    have hmem := mem_map_of_mem (f := fingerprint) hagg
    rw [hprints] at hmem
    obtain ⟨j, _, e⟩ := mem_map.mp hmem
    have hkey : row.parsedRow.map coupangAdMetricKey = some j := (congrArg (·.1) e).symm
    have hmetric : row.parsedRow.map metric =
        some fun field => ((ofKey j rows).map (metricOf field)).sum := (congrArg (·.2.1) e).symm
    obtain ⟨total, ht, hj⟩ := Option.map_eq_some_iff.mp hkey
    have hkj : j = k := by
      unfold importKey logicalKey at hk
      split at hk
      · exact Option.some.inj (hkey.symm.trans hk)
      · exact (nomatch hk)
    rw [ht, hkj] at hmetric
    exact ⟨total, ht, fun field => congrFun (Option.some.inj hmetric) field⟩
  · intro rows' hrows
    obtain ⟨out', aggregates', hrun', hperm', _, hprints'⟩ :=
      perm_aggregateCoupangAdsImportRows sha256 rows'
    refine ⟨out', hrun', ?_⟩
    refine (hperm.map fingerprint).trans (Perm.trans ?_ (hperm'.map fingerprint).symm)
    rw [map_append, map_append, hprints, hprints',
      map_congr_left fun k _ => groupFingerprint_perm sha256 hrows k]
    exact (((hrows.filter _).map _).map _).append ((perm_keys_adGroups hrows).map _)

end Group

end AdsManagement.Coupang.AdsImport
