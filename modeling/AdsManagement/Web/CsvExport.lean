/-
  File:      Web/CsvExport.lean
  Subject:   TABLES AS CSV (lib/csv.ts) and the guard of exported cells (safe-export-cell.ts, in
             the web application and in the API alike).

  A text that a spreadsheet could take for a formula gets an apostrophe in front, before it is
  quoted; numbers stay numbers, and how they are written is left to `numberText`.

  * `serializeCsv` -- the text of a table;
  * `readCsv_serializeCsv` -- its records are the guarded cells, and no guarded text is a formula.
-/
import Mathlib.Data.List.Forall2
import AdsManagement.Lib.Rfc4180

namespace AdsManagement.Web

open Lib Rfc4180 List

/-- `string | number | null | undefined`, the last two alike. -/
inductive ExportCell (ν : Type) where
  | text (value : List Char)
  | number (value : ν)
  | missing

/-- `^[\u0009\u000a\u000d \u00a0]*[=+\-@]`. -/
def isFormula (value : List Char) : Bool :=
  (value.dropWhile fun c => c = '\t' || c = '\n' || c = '\r' || c = ' ' || c = '\u00a0').head?.any
    fun c => c = '=' || c = '+' || c = '-' || c = '@'

def safeText (value : List Char) : List Char := if isFormula value then '\'' :: value else value

def safeExportCellValue {ν : Type} : ExportCell ν → ExportCell ν
  | .text value => .text (safeText value)
  | cell => cell

section Serialize

variable {ν Row : Type} (numberText : ν → List Char)

/-- `String(value)` of a present cell, and nothing for a missing one. -/
def ExportCell.toText : ExportCell ν → List Char
  | .text value => value
  | .number value => numberText value
  | .missing => []

def escapeCsv (cell : ExportCell ν) : List Char :=
  let text := (safeExportCellValue cell).toText numberText
  if text.any isSpecial then
    '"' :: text.flatMap (fun c => if c = '"' then ['"', '"'] else [c]) ++ ['"']
  else text

structure CsvColumn (ν Row : Type) where
  header : List Char
  value : Row → ExportCell ν

/-- The cells of the header and of the rows. -/
def csvCells (columns : List (CsvColumn ν Row)) (rows : List Row) : List (List (ExportCell ν)) :=
  columns.map (.text ·.header) :: rows.map fun row => columns.map (·.value row)

def serializeCsv (columns : List (CsvColumn ν Row)) (rows : List Row) : List Char :=
  '\ufeff' :: ['\r', '\n'].intercalate
    ((csvCells columns rows).map fun cells => join ',' (cells.map (escapeCsv numberText)))

theorem writes_escapeCsv (cell : ExportCell ν) :
    Writes (escapeCsv numberText cell) ((safeExportCellValue cell).toText numberText) := by
  unfold escapeCsv
  dsimp only
  split
  · exact writes_quoted _
  · next h => exact writes_plain fun c hc => Bool.eq_false_iff.mpr fun e => h (any_eq_true.mpr ⟨c, hc, e⟩)

theorem isFormula_safeText (value : List Char) : isFormula (safeText value) = false := by
  unfold safeText
  split
  · rfl
  · next h => exact Bool.eq_false_iff.mpr h

/-- **A table is read back from its text**, record by record and cell by cell, each as its guarded
    text; and the text of no string cell is a formula. -/
theorem readCsv_serializeCsv (columns : List (CsvColumn ν Row)) (rows : List Row)
    (htwo : 2 ≤ columns.length) :
    (serializeCsv numberText columns rows).head? = some '\ufeff' ∧
    readCsv (serializeCsv numberText columns rows).tail =
      some (columns.map (safeText ·.header) ::
        rows.map fun row => columns.map fun column => (safeExportCellValue (column.value row)).toText numberText) ∧
    ∀ value : List Char, isFormula ((safeExportCellValue (.text value : ExportCell ν)).toText numberText) = false := by
  have hwrites : ∀ cells : List (ExportCell ν), List.Forall₂ Writes (cells.map (escapeCsv numberText))
      (cells.map fun cell => (safeExportCellValue cell).toText numberText) := by
    intro cells
    rw [forall₂_map_left_iff, forall₂_map_right_iff, forall₂_same]
    exact fun cell _ => writes_escapeCsv numberText cell
  refine ⟨rfl, ?_, isFormula_safeText⟩
  have hread := @readCsv_records ((csvCells columns rows).map (·.map (escapeCsv numberText)))
    ((csvCells columns rows).map (·.map fun cell => (safeExportCellValue cell).toText numberText))
    (by
      rw [forall₂_map_left_iff, forall₂_map_right_iff, forall₂_same]
      exact fun cells _ => hwrites cells)
    (by
      intro record hrecord
      obtain ⟨cells, hcells, rfl⟩ := mem_map.mp hrecord
      rw [length_map]
      rcases mem_cons.mp hcells with rfl | hcells
      · rwa [length_map]
      · obtain ⟨row, -, rfl⟩ := mem_map.mp hcells
        rwa [length_map])
    (by simp [csvCells])
  rw [map_map] at hread
  refine hread.trans (congrArg some ?_)
  simp only [csvCells, map_cons, map_map, Function.comp_def]
  rfl

end Serialize

/-- Two columns, one of them with a formula, quotes and a line break. -/
theorem readCsv_serializeCsv_two :
    let columns : List (CsvColumn Nat (List Char)) :=
      [⟨['a'], .text⟩, ⟨['b', ','], fun row => .number row.length⟩]
    readCsv (serializeCsv (fun n => (toString n).toList) columns [" =\"\n".toList]).tail =
      some [[['a'], ['b', ',']], ["' =\"\n".toList, ['4']]] :=
  (readCsv_serializeCsv (fun n => (toString n).toList) _ _ (by decide)).2.1.trans (by decide)

end AdsManagement.Web
