/-
  File:      Cafe24/SanitizedRows.lean
  Subject:   SANITISED RAW ROWS: what the parser reads in the row that
             `sanitizeCafe24RawRow` keeps (domain/cafe24-csv.ts).

  * `eq_of_alias` -- no alias of a column has the normal form of another column's name;
  * `readColumn_sanitize` -- every column reads as in the original row;
  * `parseRow_congr` -- the parser sees a row through its columns only;
  * `sanitizeCafe24RawRow_faithful` -- whitelist, idempotence and the same parse.
-/
import AdsManagement.Cafe24.Csv

namespace AdsManagement.Cafe24

open Coupang List

variable {rawRow rawRow' : RawRow}

/-! ## 1. The names of the columns -/

theorem mem_all (key : Cafe24OrderColumnKey) : key ∈ Cafe24OrderColumnKey.all := by
  cases key <;> decide

/-- **An alias finds the name of its own column only.** -/
theorem eq_of_alias : ∀ key ∈ Cafe24OrderColumnKey.all, ∀ other ∈ Cafe24OrderColumnKey.all,
    ∀ name ∈ key.aliases, normalizeHeader other.name = normalizeHeader name → other = key := by
  decide +kernel

theorem name_inj {key other : Cafe24OrderColumnKey} (h : other.name = key.name) : other = key :=
  eq_of_alias key (mem_all _) other (mem_all _) key.name (by cases key <;> decide) (by rw [h])

theorem aliases_eq (key : Cafe24OrderColumnKey) : ∃ others, key.aliases = key.name :: others := by
  cases key <;> exact ⟨_, rfl⟩

theorem name_ne_empty (key : Cafe24OrderColumnKey) : key.name ≠ "" := by
  cases key <;> decide

/-- Among names of columns a lookup finds the name of its column, if that is there. -/
theorem findHeader_names (key : Cafe24OrderColumnKey) (keys : List Cafe24OrderColumnKey) :
    findHeader (keys.map (·.name)) key.aliases = if key ∈ keys then some key.name else none := by
  have hfound : ∀ name ∈ key.aliases, ∀ header ∈ (keys.map (·.name)).reverse.find? fun header =>
      normalizeHeader header = normalizeHeader name, header = key.name ∧ key ∈ keys := by
    intro name hname header hheader
    obtain ⟨other, hother, rfl⟩ := mem_map.mp (mem_reverse.mp (mem_of_find?_eq_some hheader))
    have heq := eq_of_alias key (mem_all _) other (mem_all _) name hname (by simpa using find?_some hheader)
    exact ⟨by rw [heq], heq ▸ hother⟩
  unfold findHeader
  split
  · next hmem =>
    obtain ⟨others, hothers⟩ := aliases_eq key
    rw [hothers, findSome?_cons]
    cases hf : (keys.map (·.name)).reverse.find? fun header =>
        normalizeHeader header = normalizeHeader key.name with
    | none =>
      have := find?_eq_none.mp hf key.name (mem_reverse.mpr (mem_map_of_mem hmem))
      exact absurd (decide_eq_true rfl) this
    | some header =>
      rw [(hfound key.name (hothers ▸ mem_cons_self) header hf).1]
      rw [Option.filter_some_pos (by simpa using name_ne_empty key)]
  · next hnot =>
    refine findSome?_eq_none_iff.mpr fun name hname => ?_
    rw [Option.filter_eq_none_iff]
    intro header hheader
    exact absurd (hfound name hname header hheader).2 hnot

/-! ## 2. What is read of a sanitised row -/

/-- The columns that are there. -/
def readable (rawRow : RawRow) : List Cafe24OrderColumnKey :=
  Cafe24OrderColumnKey.all.filter fun key => (readColumn rawRow key).isSome

theorem names_sanitize (rawRow : RawRow) :
    (sanitizeCafe24RawRow rawRow).map (·.1) = (readable rawRow).map (·.name) := by
  unfold sanitizeCafe24RawRow readable
  induction Cafe24OrderColumnKey.all with
  | nil => rfl
  | cons key rest ih =>
    cases h : readColumn rawRow key with
    | none => simpa [filterMap_cons, h] using ih
    | some value => simpa [filterMap_cons, h] using ih

theorem cell_sanitize (rawRow : RawRow) (key : Cafe24OrderColumnKey) :
    cell (sanitizeCafe24RawRow rawRow) key.name = readColumn rawRow key := by
  unfold sanitizeCafe24RawRow cell
  rw [find?_filterMap]
  generalize hf : find? _ _ = found
  cases found with
  | none =>
    have hnone := find?_eq_none.mp hf key (mem_all key)
    cases h : readColumn rawRow key with
    | none => rfl
    | some value => simp [h] at hnone
  | some other =>
    have hname := find?_some hf
    cases h : readColumn rawRow other with
    | none => simp [h] at hname
    | some value =>
      obtain rfl : other = key := name_inj (by simpa [h] using hname)
      simp [h]

/-- **Every column of a sanitised row reads as in the original.** -/
theorem readColumn_sanitize (rawRow : RawRow) (key : Cafe24OrderColumnKey) :
    readColumn (sanitizeCafe24RawRow rawRow) key = readColumn rawRow key := by
  conv_lhs => unfold readColumn
  rw [names_sanitize, findHeader_names]
  cases h : readColumn rawRow key with
  | none =>
    rw [if_neg]
    · rfl
    · simp [readable, h]
  | some value =>
    rw [if_pos (by simp [readable, h, mem_all]), Option.bind_some, cell_sanitize, h]

/-! ## 3. The parser -/

theorem parseRow_congr (h : ∀ key, readColumn rawRow key = readColumn rawRow' key) :
    parseRow rawRow = parseRow rawRow' := by
  unfold parseRow parseIssues requiredText requiredNumber optionalNumber requiredDateTime columnIssue
  simp only [h]

theorem effectiveKey_congr (h : ∀ key, readColumn rawRow key = readColumn rawRow' key)
    (parsedRow : Option ParsedCafe24OrderRow) :
    effectiveCafe24OrderLineKey parsedRow rawRow = effectiveCafe24OrderLineKey parsedRow rawRow' := by
  unfold effectiveCafe24OrderLineKey fallbackOrderLineKey rawString
  simp only [h]

/-- **A sanitised row keeps columns of the whitelist only, stays as it is when it is sanitised
    again, and is parsed to the same row, issues and line key.** -/
theorem sanitizeCafe24RawRow_faithful (rawRow : RawRow) :
    (∀ column ∈ sanitizeCafe24RawRow rawRow, column.1 ∈ Cafe24OrderColumnKey.all.map (·.name)) ∧
    sanitizeCafe24RawRow (sanitizeCafe24RawRow rawRow) = sanitizeCafe24RawRow rawRow ∧
    parseRow (sanitizeCafe24RawRow rawRow) = parseRow rawRow ∧
    effectiveCafe24OrderLineKey (parseRow (sanitizeCafe24RawRow rawRow)).parsedRow
        (sanitizeCafe24RawRow rawRow) =
      effectiveCafe24OrderLineKey (parseRow rawRow).parsedRow rawRow := by
  have hread := readColumn_sanitize rawRow
  refine ⟨fun column hcolumn => ?_, ?_, parseRow_congr hread, ?_⟩
  · have hname := mem_map_of_mem (f := (·.1)) hcolumn
    rw [names_sanitize] at hname
    exact map_subset _ (filter_subset_self _) hname
  · show sanitizeCafe24RawRow _ = _
    unfold sanitizeCafe24RawRow at hread ⊢
    simp only [hread]
  · rw [parseRow_congr hread]
    exact effectiveKey_congr hread _

end AdsManagement.Cafe24
