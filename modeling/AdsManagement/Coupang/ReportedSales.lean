/-
  File:      Coupang/ReportedSales.lean
  Subject:   THE FACTS OF A PRODUCT AND DAY: what `aggregateReportedSalesByProductDate` makes of the
             sale rows, whatever their order.

  A segment is what the rows of its method add up to (`findSegment_foldl`), and the totals are the
  sums over the segments; so neither depends on the order of the rows. Only the order of the
  methods' names does.

  * `productDateKey_eq_iff` -- a date without U+0000 is read back from its key;
  * `foldl_addRowToSegment` -- a segment after its rows;
  * `reported_sales_aggregated` -- the facts of every list of rows.
-/
import AdsManagement.Common.Dates
import AdsManagement.Coupang.SalesFacts

namespace AdsManagement.Coupang

open Common Lib List

/-! ## 1. The amounts -/

/-- The amounts of a row, a segment and the facts. -/
inductive SalesField where
  | salesKrw
  | cancelAmountKrw
  | netSalesKrw
  | salesQuantity
  | orderCount
  | lineCount
deriving DecidableEq

namespace SalesField

/-- What a row adds. -/
def ofRow : SalesField → ReportedSalesFactInput → ℚ
  | .salesKrw, row => row.salesKrw
  | .cancelAmountKrw, row => row.cancelAmountKrw
  | .netSalesKrw, row => row.netSalesKrw
  | .salesQuantity, row => row.salesQuantity
  | .orderCount, row => row.orderCount
  | .lineCount, row => max 0 (truncate (row.lineCount.getD 1) : ℚ)

def ofSegment : SalesField → CoupangSalesSegment → ℚ
  | .salesKrw, segment => segment.salesKrw
  | .cancelAmountKrw, segment => segment.cancelAmountKrw
  | .netSalesKrw, segment => segment.netSalesKrw
  | .salesQuantity, segment => segment.salesQuantity
  | .orderCount, segment => segment.orderCount
  | .lineCount, segment => segment.lineCount

def ofFacts : SalesField → ReportedSalesFacts → ℚ
  | .salesKrw, facts => facts.salesKrw
  | .cancelAmountKrw, facts => facts.cancelAmountKrw
  | .netSalesKrw, facts => facts.netSalesKrw
  | .salesQuantity, facts => facts.salesQuantity
  | .orderCount, facts => facts.orderCount
  | .lineCount, facts => facts.lineCount

variable (field : SalesField)

theorem ofSegment_addRow (row : ReportedSalesFactInput) (segment : CoupangSalesSegment) :
    field.ofSegment (addRowToSegment row segment) = field.ofSegment segment + field.ofRow row := by
  cases field <;> rfl

theorem ofSegment_empty (m : CoupangFulfillmentMethod) : field.ofSegment (emptySalesSegment m) = 0 := by
  cases field <;> rfl

theorem ofFacts_sync (facts : ReportedSalesFacts) :
    field.ofFacts (syncReportedTotalsFromSegments facts) = (facts.segments.map field.ofSegment).sum := by
  have h := sumCoupangSalesSegments_eq facts.segments
  unfold syncReportedTotalsFromSegments
  simp only [h]
  cases field <;> rfl

end SalesField

/-! ## 2. The rows of one key -/

/-- The method a row is counted under. -/
def methodOf (row : ReportedSalesFactInput) : CoupangFulfillmentMethod :=
  normalizeCoupangFulfillmentMethod row.saleMethod

section Segments

variable {m : CoupangFulfillmentMethod}

theorem findSegment_cons (s : CoupangSalesSegment) (rest : List CoupangSalesSegment) :
    findSegment m (s :: rest) = if s.fulfillmentMethod = m then some s else findSegment m rest := by
  unfold findSegment
  by_cases h : s.fulfillmentMethod = m <;> simp [h]

theorem findSegment_addReportedRow (row : ReportedSalesFactInput) (segments : List CoupangSalesSegment) :
    findSegment m (addReportedRow row segments) =
      if methodOf row = m then
        some (addRowToSegment row ((findSegment m segments).getD (emptySalesSegment m)))
      else findSegment m segments := by
  induction segments with
  | nil =>
    have hmethod : (addRowToSegment row (emptySalesSegment (methodOf row))).fulfillmentMethod =
        methodOf row := rfl
    show findSegment m [addRowToSegment row (emptySalesSegment (methodOf row))] = _
    rw [findSegment_cons, hmethod]
    split
    · next h => subst h; rfl
    · rfl
  | cons s rest ih =>
    unfold addReportedRow
    split
    · rename_i hs
      have hmethod : (addRowToSegment row s).fulfillmentMethod = s.fulfillmentMethod := rfl
      rw [findSegment_cons, findSegment_cons, hmethod, hs]
      show (if methodOf row = m then _ else _) = _
      by_cases h : methodOf row = m
      · rw [if_pos h, if_pos h, if_pos (show normalizeCoupangFulfillmentMethod row.saleMethod = m from h)]
        rfl
      · rw [if_neg h, if_neg h, if_neg (show ¬ normalizeCoupangFulfillmentMethod row.saleMethod = m from h)]
    · rename_i hs
      rw [findSegment_cons, findSegment_cons, ih]
      by_cases hm : s.fulfillmentMethod = m
      · have h : ¬ methodOf row = m := fun e => hs (hm.trans e.symm)
        rw [if_pos hm, if_pos hm, if_neg h]
      · rw [if_neg hm, if_neg hm]

/-- A segment after the rows of its method. -/
def addRows (m : CoupangFulfillmentMethod) (segment : Option CoupangSalesSegment)
    (rows : List ReportedSalesFactInput) : Option CoupangSalesSegment :=
  rows.foldl (fun segment row => some (addRowToSegment row (segment.getD (emptySalesSegment m)))) segment

/-- **One method sees its own rows only.** -/
theorem findSegment_foldl (rows : List ReportedSalesFactInput) (facts : ReportedSalesFacts) :
    findSegment m (rows.foldl addReportedSalesRow facts).segments =
      addRows m (findSegment m facts.segments) (rows.filter (methodOf · = m)) := by
  induction rows generalizing facts with
  | nil => rfl
  | cons row rest ih =>
    have hstep : findSegment m (addReportedSalesRow facts row).segments = _ :=
      findSegment_addReportedRow row facts.segments
    rw [foldl_cons, ih, hstep]
    by_cases h : methodOf row = m
    · rw [if_pos h, filter_cons_of_pos (by simpa using h)]
      rfl
    · rw [if_neg h, filter_cons_of_neg (by simpa using h)]

/-- The names of the methods that the rows add. -/
def IsSaleMethodOf (name : String) (rows : List ReportedSalesFactInput) : Prop :=
  name ≠ "" ∧ ∃ row ∈ rows, row.saleMethod = some name

theorem mem_pushSaleMethod {methods : List String} {method : Option String} {name : String} :
    name ∈ pushSaleMethod methods method ↔ name ∈ methods ∨ (name ≠ "" ∧ method = some name) := by
  unfold pushSaleMethod isTruthy
  cases method with
  | none => simp
  | some text =>
    simp only [Option.some.injEq, Bool.and_eq_true, bne_iff_ne,
      Bool.not_eq_true', contains_eq_mem, decide_eq_false_iff_not]
    split
    · rename_i h
      rw [mem_append, mem_singleton]
      constructor
      · rintro (hm | rfl)
        · exact .inl hm
        · exact .inr ⟨h.1, rfl⟩
      · rintro (hm | ⟨-, rfl⟩)
        · exact .inl hm
        · exact .inr rfl
    · rename_i h
      refine ⟨.inl, ?_⟩
      rintro (hm | ⟨hne, rfl⟩)
      · exact hm
      · exact Classical.byContradiction fun hc => h ⟨hne, hc⟩

theorem nodup_pushSaleMethod {methods : List String} (h : methods.Nodup) (method : Option String) :
    (pushSaleMethod methods method).Nodup := by
  unfold pushSaleMethod
  split
  · rename_i hp
    rw [Bool.and_eq_true, Bool.not_eq_true', contains_eq_mem, decide_eq_false_iff_not] at hp
    refine nodup_append.mpr ⟨h, nodup_singleton _, fun a ha b hb e => hp.2 ?_⟩
    rw [← mem_singleton.mp hb, ← e]
    exact ha
  · exact h

/-- What a segment holds: the sums of its rows and the names of their methods, each once. -/
structure Holds (m : CoupangFulfillmentMethod) (rows : List ReportedSalesFactInput)
    (segment : CoupangSalesSegment) : Prop where
  method : segment.fulfillmentMethod = m
  amount : ∀ field : SalesField, field.ofSegment segment = (rows.map field.ofRow).sum
  names : ∀ name, name ∈ segment.sourceSaleMethods ↔ IsSaleMethodOf name rows
  nodup : segment.sourceSaleMethods.Nodup

theorem holds_empty (m : CoupangFulfillmentMethod) : Holds m [] (emptySalesSegment m) where
  method := rfl
  amount field := field.ofSegment_empty m
  names name := by simp [emptySalesSegment, IsSaleMethodOf]
  nodup := nodup_nil

theorem Holds.addRow {rows : List ReportedSalesFactInput} {segment : CoupangSalesSegment}
    (h : Holds m rows segment) (row : ReportedSalesFactInput) :
    Holds m (rows ++ [row]) (addRowToSegment row segment) where
  method := h.method
  amount field := by
    rw [field.ofSegment_addRow, h.amount, map_append, sum_append, map_singleton, sum_singleton]
  names name := by
    refine mem_pushSaleMethod.trans ?_
    rw [h.names]
    unfold IsSaleMethodOf
    simp only [mem_append, mem_singleton]
    constructor
    · rintro (⟨hne, r, hr, e⟩ | ⟨hne, e⟩)
      · exact ⟨hne, r, .inl hr, e⟩
      · exact ⟨hne, row, .inr rfl, e⟩
    · rintro ⟨hne, r, hr | rfl, e⟩
      · exact .inl ⟨hne, r, hr, e⟩
      · exact .inr ⟨hne, e⟩
  nodup := nodup_pushSaleMethod h.nodup row.saleMethod

theorem Holds.addRows {before : List ReportedSalesFactInput} {segment : CoupangSalesSegment}
    (h : Holds m before segment) (rows : List ReportedSalesFactInput) :
    ∃ after, addRows m (some segment) rows = some after ∧ Holds m (before ++ rows) after := by
  induction rows generalizing before segment with
  | nil => exact ⟨segment, rfl, by rwa [append_nil]⟩
  | cons row rest ih =>
    obtain ⟨after, hafter, hholds⟩ := ih (h.addRow row)
    refine ⟨after, hafter, ?_⟩
    rwa [append_assoc] at hholds

/-- **A segment after its rows**: none without a row, else what the rows add up to. -/
theorem foldl_addRowToSegment (m : CoupangFulfillmentMethod) (rows : List ReportedSalesFactInput) :
    (rows = [] ∧ addRows m none rows = none) ∨
      (rows ≠ [] ∧ ∃ segment, addRows m none rows = some segment ∧ Holds m rows segment) := by
  cases rows with
  | nil => exact .inl ⟨rfl, rfl⟩
  | cons row rest =>
    obtain ⟨segment, hsegment, hholds⟩ := ((holds_empty m).addRow row).addRows rest
    exact .inr ⟨cons_ne_nil _ _, segment, hsegment, hholds⟩

end Segments

/-! ## 3. Keys -/

/-- **A date without U+0000 is read back from its key**, and so is the product. -/
theorem productDateKey_eq_iff {p q d e : String} (hd : '\x00' ∉ d.toList) (he : '\x00' ∉ e.toList) :
    productDateKey p d = productDateKey q e ↔ p = q ∧ d = e := by
  refine ⟨fun h => ?_, fun ⟨hp, hd⟩ => by rw [hp, hd]⟩
  have h' := congrArg String.toList h
  simp only [productDateKey, String.toList_append] at h'
  have hreverse := congrArg List.reverse h'
  simp only [reverse_append] at hreverse
  have hcut : ∀ l r : List Char, '\x00' ∉ l →
      (l ++ ("\x00".toList.reverse ++ r)).takeWhile (· ≠ '\x00') = l := by
    intro l r hl
    have hkeep : ∀ c ∈ l, decide (c ≠ '\x00') = true := fun c hc =>
      decide_eq_true fun e => hl (e ▸ hc)
    rw [takeWhile_append_of_pos hkeep]
    have hnil : ("\x00".toList.reverse ++ r).takeWhile (· ≠ '\x00') = [] := by
      exact takeWhile_cons_of_neg (by decide)
    rw [hnil, append_nil]
  have hdates : d.toList.reverse = e.toList.reverse := by
    rw [← hcut d.toList.reverse p.toList.reverse (by simpa using hd), hreverse]
    exact hcut _ _ (by simpa using he)
  have hde : d = e := String.toList_injective (reverse_injective hdates)
  subst hde
  exact ⟨String.toList_injective (append_cancel_right (append_cancel_right h')), rfl⟩

/-- A date that `formatDateOnly` writes holds no U+0000. -/
theorem nul_notMem_formatDateOnly (d : Int) : '\x00' ∉ (formatDateOnly d).toList := by
  have hdigit : ∀ n, '\x00' ≠ digitChar n := fun n h => absurd (digit?_digitChar n) (by rw [← h]; nofun)
  unfold formatDateOnly
  dsimp only
  split_ifs <;> simp [isoChars, pad4, pad2, hdigit]

/-! ## 4. The facts -/

/-- The facts are what `rows` add up to. -/
structure ReportedSalesFacts.AddsUp (facts : ReportedSalesFacts) (rows : List ReportedSalesFactInput) :
    Prop where
  nodup : (facts.segments.map (·.fulfillmentMethod)).Nodup
  total : ∀ field : SalesField, field.ofFacts facts = (facts.segments.map field.ofSegment).sum
  amount : ∀ field : SalesField, field.ofFacts facts = (rows.map field.ofRow).sum
  segment : ∀ m, Option.Rel (fun segment (rows : List ReportedSalesFactInput) => Holds m rows segment)
    (findSegment m facts.segments) (some (rows.filter (methodOf · = m)) |>.filter (· ≠ []))

/-- Segments with the same amounts; the names of their methods may stand in another order. -/
structure SameSegment (a b : CoupangSalesSegment) : Prop where
  method : a.fulfillmentMethod = b.fulfillmentMethod
  amount : ∀ field : SalesField, field.ofSegment a = field.ofSegment b
  names : a.sourceSaleMethods.Perm b.sourceSaleMethods

/-- Facts with the same totals and the same segments. -/
structure SameFacts (a b : ReportedSalesFacts) : Prop where
  productId : a.productId = b.productId
  date : a.date = b.date
  total : ∀ field : SalesField, field.ofFacts a = field.ofFacts b
  segment : ∀ m, Option.Rel SameSegment (findSegment m a.segments) (findSegment m b.segments)

theorem Holds.same {m : CoupangFulfillmentMethod} {rows rows' : List ReportedSalesFactInput}
    {a b : CoupangSalesSegment} (ha : Holds m rows a) (hb : Holds m rows' b) (hperm : rows.Perm rows') :
    SameSegment a b where
  method := ha.method.trans hb.method.symm
  amount field := by rw [ha.amount, hb.amount, (hperm.map field.ofRow).sum_eq]
  names := by
    refine (perm_ext_iff_of_nodup ha.nodup hb.nodup).mpr fun name => ?_
    rw [ha.names, hb.names]
    unfold IsSaleMethodOf
    simp only [hperm.mem_iff]

theorem ofFacts_foldl (field : SalesField) (rows : List ReportedSalesFactInput) {facts : ReportedSalesFacts}
    (h : field.ofFacts facts = (facts.segments.map field.ofSegment).sum) :
    field.ofFacts (rows.foldl addReportedSalesRow facts) =
      ((rows.foldl addReportedSalesRow facts).segments.map field.ofSegment).sum := by
  induction rows generalizing facts with
  | nil => exact h
  | cons row rest ih => exact ih (field.ofFacts_sync _)

theorem identity_foldl (rows : List ReportedSalesFactInput) (facts : ReportedSalesFacts) :
    (rows.foldl addReportedSalesRow facts).productId = facts.productId ∧
      (rows.foldl addReportedSalesRow facts).date = facts.date := by
  induction rows generalizing facts with
  | nil => exact ⟨rfl, rfl⟩
  | cons row rest ih => exact ih (addReportedSalesRow facts row)

/-- The facts of the rows of one key. -/
theorem addsUp_foldl (rows : List ReportedSalesFactInput) (productId date name : String) :
    (rows.foldl addReportedSalesRow (emptyReportedSalesFacts productId date name)).AddsUp rows where
  nodup := ((synced_empty productId date name).foldl rows).nodup
  total field := ofFacts_foldl field rows (by cases field <;> rfl)
  amount field := by
    have hsum := sum_foldl_addReportedSalesRow (f := field.ofSegment) (g := field.ofRow)
      (fun row s _ => field.ofSegment_addRow row s) field.ofSegment_empty rows
      (emptyReportedSalesFacts productId date name)
    rw [ofFacts_foldl field rows (by cases field <;> rfl), hsum]
    exact zero_add _
  segment m := by
    have hfind := findSegment_foldl (m := m) rows (emptyReportedSalesFacts productId date name)
    rw [hfind]
    rcases foldl_addRowToSegment m (rows.filter (methodOf · = m)) with ⟨hnil, hnone⟩ | ⟨hne, s, hs, hholds⟩
    · rw [show findSegment m (emptyReportedSalesFacts productId date name).segments = none from rfl,
        hnil]
      exact Option.Rel.none
    · rw [show findSegment m (emptyReportedSalesFacts productId date name).segments = none from rfl, hs]
      simp only [Option.filter_some, hne, ne_eq]
      exact Option.Rel.some hholds

section Aggregation

variable {rows : List ReportedSalesFactInput} {key : String} {facts : ReportedSalesFacts}

/-- The rows of a key. -/
def rowsOfKey (rows : List ReportedSalesFactInput) (key : String) : List ReportedSalesFactInput :=
  rows.filter fun row => productDateKey row.productId row.date = key

/-- The facts at a key are those of its rows, of which there is one. -/
theorem get_aggregateReportedSales (h : (aggregateReportedSalesByProductDate rows).get key = some facts) :
    facts.AddsUp (rowsOfKey rows key) ∧
      ∃ row ∈ rows, productDateKey row.productId row.date = key ∧ facts.productId = row.productId ∧
        facts.date = row.date := by
  unfold aggregateReportedSalesByProductDate at h
  rw [get_aggregateBy] at h
  unfold rowsOfKey
  cases hrows : rows.filter fun row => productDateKey row.productId row.date = key with
  | nil => rw [hrows] at h; cases h
  | cons row rest =>
    rw [hrows] at h
    have hfacts : (row :: rest).foldl addReportedSalesRow (emptyReportedSalesFacts row.productId row.date
        (row.productName.getD "Coupang Product")) = facts := Option.some.inj h
    have hmem : row ∈ rows.filter fun row => productDateKey row.productId row.date = key := by
      rw [hrows]
      exact mem_cons_self
    obtain ⟨hin, hkey⟩ := mem_filter.mp hmem
    have hid := identity_foldl (row :: rest) (emptyReportedSalesFacts row.productId row.date
      (row.productName.getD "Coupang Product"))
    subst hfacts
    exact ⟨addsUp_foldl _ _ _ _, row, hin, of_decide_eq_true hkey, hid.1, hid.2⟩

theorem isSome_get_aggregateReportedSales (rows : List ReportedSalesFactInput) (key : String) :
    ((aggregateReportedSalesByProductDate rows).get key).isSome = true ↔
      ∃ row ∈ rows, productDateKey row.productId row.date = key := by
  rw [Option.isSome_iff_exists, ← OrderedMap.mem_keys_iff]
  exact mem_keys_aggregateBy

variable (hdates : ∀ row ∈ rows, '\x00' ∉ row.date.toList)

include hdates

/-- The rows of the facts at a key are those of its product and date. -/
theorem rowsOfKey_eq (h : (aggregateReportedSalesByProductDate rows).get key = some facts) :
    rowsOfKey rows key = rows.filter fun row => row.productId = facts.productId ∧ row.date = facts.date := by
  obtain ⟨-, row, hrow, hkey, hproduct, hdate⟩ := get_aggregateReportedSales h
  refine filter_congr fun other hother => decide_eq_decide.mpr ?_
  rw [← hkey, hproduct, hdate]
  exact productDateKey_eq_iff (hdates other hother) (hdates row hrow)

/-- The facts of two orders of the rows. -/
theorem sameFacts_of_perm {rows' : List ReportedSalesFactInput} (hperm : rows.Perm rows')
    {facts' : ReportedSalesFacts} (h : (aggregateReportedSalesByProductDate rows).get key = some facts)
    (h' : (aggregateReportedSalesByProductDate rows').get key = some facts') : SameFacts facts facts' := by
  obtain ⟨hadds, row, hrow, hkey, hproduct, hdate⟩ := get_aggregateReportedSales h
  obtain ⟨hadds', row', hrow', hkey', hproduct', hdate'⟩ := get_aggregateReportedSales h'
  obtain ⟨hp, hd⟩ := (productDateKey_eq_iff (hdates row hrow)
    (hdates row' (hperm.mem_iff.mpr hrow'))).mp (hkey.trans hkey'.symm)
  have hsame : (rowsOfKey rows key).Perm (rowsOfKey rows' key) := hperm.filter _
  refine ⟨?_, ?_, fun field => ?_, fun m => ?_⟩
  · rw [hproduct, hproduct', hp]
  · rw [hdate, hdate', hd]
  · rw [hadds.amount, hadds'.amount, (hsame.map field.ofRow).sum_eq]
  · have hm := hadds.segment m
    have hm' := hadds'.segment m
    have hfilter : ((rowsOfKey rows key).filter (methodOf · = m)).Perm
        ((rowsOfKey rows' key).filter (methodOf · = m)) := hsame.filter _
    by_cases hnil : (rowsOfKey rows key).filter (methodOf · = m) = []
    · have hnil' : (rowsOfKey rows' key).filter (methodOf · = m) = [] :=
        (hnil ▸ hfilter).symm.eq_nil
      rw [hnil] at hm
      rw [hnil'] at hm'
      cases hs : findSegment m facts.segments with
      | some s => rw [hs] at hm; cases hm
      | none =>
        cases hs' : findSegment m facts'.segments with
        | some s' => rw [hs'] at hm'; cases hm'
        | none => exact Option.Rel.none
    · have hnil' : (rowsOfKey rows' key).filter (methodOf · = m) ≠ [] := fun e =>
        hnil (e ▸ hfilter).eq_nil
      simp only [Option.filter_some, hnil, hnil', ne_eq] at hm hm'
      cases hs : findSegment m facts.segments with
      | none => rw [hs] at hm; cases hm
      | some s =>
        cases hs' : findSegment m facts'.segments with
        | none => rw [hs'] at hm'; cases hm'
        | some s' =>
          rw [hs] at hm
          rw [hs'] at hm'
          cases hm with
          | some hholds =>
            cases hm' with
            | some hholds' => exact Option.Rel.some (hholds.same hholds' hfilter)

/-- **The facts of every list of rows**: each holds one segment a method, and totals that are the
    sums over its segments and over the rows of its product and date; each row counts for the one
    entry of its product and date; and no total and no segment depends on the order of the rows. -/
theorem reported_sales_aggregated :
    (∀ facts ∈ (aggregateReportedSalesByProductDate rows).values,
      facts.AddsUp (rows.filter fun row => row.productId = facts.productId ∧ row.date = facts.date)) ∧
    (∀ row ∈ rows, ∃! entry, entry ∈ (aggregateReportedSalesByProductDate rows).entries ∧
      entry.2.productId = row.productId ∧ entry.2.date = row.date) ∧
    ∀ rows', rows.Perm rows' → ∀ key, Option.Rel SameFacts
      ((aggregateReportedSalesByProductDate rows).get key)
      ((aggregateReportedSalesByProductDate rows').get key) := by
  refine ⟨fun facts hfacts => ?_, fun row hrow => ?_, fun rows' hperm key => ?_⟩
  · obtain ⟨key, hkey⟩ := OrderedMap.mem_values_iff.mp hfacts
    rw [← rowsOfKey_eq hdates hkey]
    exact (get_aggregateReportedSales hkey).1
  · obtain ⟨facts, hfacts⟩ := Option.isSome_iff_exists.mp
      ((isSome_get_aggregateReportedSales rows _).mpr ⟨row, hrow, rfl⟩)
    obtain ⟨-, first, hfirst, hkey, hproduct, hdate⟩ := get_aggregateReportedSales hfacts
    obtain ⟨hp, hd⟩ := (productDateKey_eq_iff (hdates first hfirst) (hdates row hrow)).mp hkey
    refine ⟨(_, facts), ⟨OrderedMap.get_eq_some_iff.mp hfacts, hproduct.trans hp, hdate.trans hd⟩, ?_⟩
    rintro ⟨key, other⟩ ⟨hentry, hother⟩
    have hget := OrderedMap.get_eq_some_iff.mpr hentry
    obtain ⟨-, row', -, hkey', hproduct', hdate'⟩ := get_aggregateReportedSales hget
    have hsame : key = productDateKey row.productId row.date := by
      rw [← hkey', ← hproduct', ← hdate', ← hother.1, ← hother.2]
    subst hsame
    rw [hfacts] at hget
    rw [Option.some.inj hget]
  · have hsome : ((aggregateReportedSalesByProductDate rows).get key).isSome =
        ((aggregateReportedSalesByProductDate rows').get key).isSome := by
      rw [Bool.eq_iff_iff, isSome_get_aggregateReportedSales, isSome_get_aggregateReportedSales]
      simp only [hperm.mem_iff]
    cases h : (aggregateReportedSalesByProductDate rows).get key with
    | none =>
      cases h' : (aggregateReportedSalesByProductDate rows').get key with
      | none => exact Option.Rel.none
      | some facts' => rw [h, h'] at hsome; cases hsome
    | some facts =>
      cases h' : (aggregateReportedSalesByProductDate rows').get key with
      | none => rw [h, h'] at hsome; cases hsome
      | some facts' => exact Option.Rel.some (sameFacts_of_perm hdates hperm h h')

end Aggregation

/-- Two seller rows and a growth row of one day. -/
def mixedDay : List ReportedSalesFactInput :=
  [⟨"product-1", formatDateOnly 20649, 60000, 0, 60000, 3, 3, some "판매자배송", some 1, some "혼합 상품"⟩,
    ⟨"product-1", formatDateOnly 20649, 40000, 0, 40000, 2, 2, some "로켓그로스", some 1, some "혼합 상품"⟩,
    ⟨"product-1", formatDateOnly 20649, -20000, 20000, -20000, -1, 0, some "seller", none, none⟩]

theorem reported_sales_aggregated_mixedDay :
    (∀ row ∈ mixedDay, '\x00' ∉ row.date.toList) ∧
    ∃ facts ∈ (aggregateReportedSalesByProductDate mixedDay).values,
      facts.AddsUp (mixedDay.filter fun row => row.productId = facts.productId ∧ row.date = facts.date) ∧
      facts.netSalesKrw = 80000 ∧ facts.segments.map (·.netSalesKrw) = [40000, 40000] := by
  have hdates : ∀ row ∈ mixedDay, '\x00' ∉ row.date.toList := by
    have hday : ∀ row ∈ mixedDay, row.date = formatDateOnly 20649 := by decide +kernel
    exact fun row hrow => hday row hrow ▸ nul_notMem_formatDateOnly 20649
  have hday : ((aggregateReportedSalesByProductDate mixedDay).values.map fun facts =>
      (facts.netSalesKrw, facts.segments.map (·.netSalesKrw))) = [(80000, [40000, 40000])] := by
    decide +kernel
  obtain ⟨facts, hfacts⟩ : ∃ facts, facts ∈ (aggregateReportedSalesByProductDate mixedDay).values := by
    cases h : (aggregateReportedSalesByProductDate mixedDay).values with
    | nil => rw [h] at hday; cases hday
    | cons facts rest => exact ⟨facts, mem_cons_self⟩
  have hvalues := mem_map_of_mem (f := fun facts : ReportedSalesFacts =>
    (facts.netSalesKrw, facts.segments.map (·.netSalesKrw))) hfacts
  rw [hday, mem_singleton, Prod.mk.injEq] at hvalues
  exact ⟨hdates, facts, hfacts, (reported_sales_aggregated hdates).1 facts hfacts, hvalues⟩

end AdsManagement.Coupang
