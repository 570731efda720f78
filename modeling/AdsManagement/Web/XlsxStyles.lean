/-
  File:      Web/XlsxStyles.lean
  Subject:   THE STYLE CATALOGUE OF A WORKBOOK (buildStyleCatalog of lib/xlsx.ts).

  Fonts, fills and borders are numbered as they are first seen, and so are the styles that use
  them. Of the texts of JSON only their equality counts, so a resolved style is its own key.

  * `resolveCellStyle`, `registerResolvedStyle`, `buildStyleCatalog`, `xlsxStyleId`;
  * `CatalogInv` -- every key has the id of an entry that says what the style says;
  * `registerResolvedStyle_spec`, `catalogInv_foldl` -- one style, and a list of them;
  * `style_catalogue_sound` -- the ids of the cells of a workbook.
-/
import AdsManagement.Lib.OrderedMap
import Mathlib.Data.Rat.Floor

namespace AdsManagement.Web

open Lib List

/-! ## 1. Cells and their styles -/

/-- The named styles. -/
inductive XlsxCellStyle where
  | Text
  | Header
  | Number
  | Krw
  | Usd
  | Percent
  | Ratio
  | TotalText
  | TotalNumber
  | TotalKrw
  | TotalUsd
  | TotalPercent
  | TotalRatio
  | Percent1
deriving DecidableEq

/-- The named fills. -/
inductive XlsxCellFill where
  | GROUP_MINT
  | GROUP_BLUE
  | GROUP_SAND
  | GROUP_LILAC
  | REPORT_HEADER
  | REPORT_TOTAL
  | SALES_INCREASE
  | SALES_DECREASE
deriving DecidableEq

/-- The tones of a font. -/
inductive XlsxFontTone where
  | DEFAULT
  | INVERSE
  | INCREASE
  | DECREASE
  | POSITIVE
  | NEGATIVE
deriving DecidableEq

/-- The tones of a border. -/
inductive XlsxBorderTone where
  | GRID
  | BLOCK_START
  | INCREASE
  | DECREASE
  | MERGED_START
  | MERGED_MIDDLE
  | MERGED_END
  | NONE
deriving DecidableEq

/-- What a cell says about its looks; an indent that is not finite counts as none. -/
structure XlsxCellLook where
  style : Option XlsxCellStyle
  fill : Option XlsxCellFill
  fontTone : Option XlsxFontTone
  bold : Option Bool
  indent : Option ℚ
  wrapText : Option Bool
  borderTone : Option XlsxBorderTone

/-- An alignment that says something. -/
structure XlsxAlignment where
  horizontal : Option String
  indent : Option Nat
  wrapText : Bool
deriving DecidableEq

/-- A style with all its texts. -/
structure XlsxResolvedStyle where
  numFmtId : Nat
  fontXml : String
  fillXml : String
  borderXml : String
  alignment : Option XlsxAlignment
deriving DecidableEq

/-- A font. -/
def fontXml (bold : Bool) (color : Option String) : String :=
  "<font>" ++ (if bold then "<b/>" else "") ++
    (color.map fun color => "<color rgb=\"" ++ color ++ "\"/>").getD "" ++
    "<sz val=\"11\"/><name val=\"맑은 고딕\"/></font>"

/-- A fill in one color. -/
def solidFillXml (color : String) : String :=
  "<fill><patternFill patternType=\"solid\"><fgColor rgb=\"" ++ color ++
    "\"/><bgColor indexed=\"64\"/></patternFill></fill>"

/-- A side of a border in a style and color, or without. -/
def sideXml (side style : String) (color : Option String) : String :=
  match color with
  | none => "<" ++ side ++ "/>"
  | some color => "<" ++ side ++ " style=\"" ++ style ++ "\"><color rgb=\"" ++ color ++ "\"/></" ++ side ++ ">"

/-- A border by its sides. -/
def borderXml (left right : Option String) (topStyle top bottom : String) : String :=
  "<border>" ++ sideXml "left" "thin" left ++ sideXml "right" "thin" right ++
    sideXml "top" topStyle (some top) ++ sideXml "bottom" "thin" (some bottom) ++ "<diagonal/></border>"

/-- One color all around. -/
def gridBorderXml (color : String) : String := borderXml (some color) (some color) "thin" color color

/-- The border of a cell within a merged row. -/
def mergedRowBorderXml (color : String) (hasLeft hasRight : Bool) : String :=
  borderXml (if hasLeft then some color else none) (if hasRight then some color else none) "thin" color color

/-- The font of the first entry. -/
def REGULAR_FONT_XML : String := fontXml false none

/-- The first fill. -/
def NO_FILL_XML : String := "<fill><patternFill patternType=\"none\"/></fill>"

/-- The second fill, which the format reserves. -/
def GRAY_125_FILL_XML : String := "<fill><patternFill patternType=\"gray125\"/></fill>"

/-- The first border. -/
def NO_BORDER_XML : String := "<border><left/><right/><top/><bottom/><diagonal/></border>"

/-- The border of the named styles. -/
def LEGACY_GRID_BORDER_XML : String := gridBorderXml "FFD5DEE7"

/-- The number format of a style; from 164 on those of the catalogue. -/
def numberFormatId : XlsxCellStyle → Nat
  | .Header => 0
  | .Number | .TotalNumber => 3
  | .Krw | .TotalKrw => 164
  | .Usd | .TotalUsd => 165
  | .Percent | .TotalPercent => 10
  | .Ratio | .TotalRatio => 166
  | .Percent1 => 167
  | .Text | .TotalText => 49

/-- The color of a tone. -/
def fontColor : XlsxFontTone → String
  | .DEFAULT => "FF17221F"
  | .INVERSE => "FFFFFFFF"
  | .INCREASE => "FF1557A0"
  | .DECREASE => "FF7A5A00"
  | .POSITIVE => "FF13744A"
  | .NEGATIVE => "FFB5473B"

/-- The fill of a name. -/
def namedFillXml : XlsxCellFill → String
  | .GROUP_MINT => solidFillXml "FFE7F3EF"
  | .GROUP_BLUE => solidFillXml "FFEAF2FB"
  | .GROUP_SAND => solidFillXml "FFFBF1DF"
  | .GROUP_LILAC => solidFillXml "FFF1ECF8"
  | .REPORT_HEADER => solidFillXml "FF385951"
  | .REPORT_TOTAL => solidFillXml "FFEDF1F0"
  | .SALES_INCREASE => solidFillXml "FFDCECFF"
  | .SALES_DECREASE => solidFillXml "FFFFF2CC"

/-- The border of a tone. -/
def namedBorderXml : XlsxBorderTone → String
  | .GRID => gridBorderXml "FFD8E0DE"
  | .BLOCK_START => borderXml (some "FFD8E0DE") (some "FFD8E0DE") "medium" "FF9BAEAA" "FFD8E0DE"
  | .INCREASE => gridBorderXml "FF6C9ED8"
  | .DECREASE => gridBorderXml "FFE2B93B"
  | .MERGED_START => mergedRowBorderXml "FFD8E0DE" true false
  | .MERGED_MIDDLE => mergedRowBorderXml "FFD8E0DE" false false
  | .MERGED_END => mergedRowBorderXml "FFD8E0DE" false true
  | .NONE => NO_BORDER_XML

/-- `style.startsWith("Total")`. -/
def XlsxCellStyle.isTotal (style : XlsxCellStyle) : Bool :=
  [TotalText, TotalNumber, TotalKrw, TotalUsd, TotalPercent, TotalRatio].contains style

/-- Without the fields of a cell. -/
structure BaseStyle where
  numFmtId : Nat
  bold : Bool
  fontColor : Option String
  fillXml : String
  borderXml : String

/-- What a named style says. -/
def baseStyle (style : XlsxCellStyle) : BaseStyle where
  numFmtId := numberFormatId style
  bold := style = .Header || style.isTotal
  fontColor := if style = .Header || style.isTotal then some "FF18222D" else none
  fillXml :=
    if style = .Header then solidFillXml "FFE5F3F0"
    else if style.isTotal then solidFillXml "FFF8FAFB"
    else NO_FILL_XML
  borderXml := LEGACY_GRID_BORDER_XML

/-- A whole number up to 250. -/
def finiteNonNegativeInteger (value : Option ℚ) : Option Nat :=
  (value.filter (0 ≤ ·)).map fun value => min 250 ⌊value⌋.toNat

/-- The fields of a cell override its named style. -/
def resolveCellStyle (cell : XlsxCellLook) : XlsxResolvedStyle :=
  let base := baseStyle (cell.style.getD .Text)
  let indent := (finiteNonNegativeInteger cell.indent).filter (0 < ·)
  let wrapText := cell.wrapText = some true
  { numFmtId := base.numFmtId
    fontXml := fontXml (cell.bold.getD base.bold) ((cell.fontTone.map fontColor).or base.fontColor)
    fillXml := (cell.fill.map namedFillXml).getD base.fillXml
    borderXml := (cell.borderTone.map namedBorderXml).getD base.borderXml
    alignment :=
      if indent.isSome || wrapText then
        some { horizontal := indent.map fun _ => "left", indent, wrapText }
      else none }

/-! ## 2. The catalogue -/

/-- The tables of the styles part, and the id of each style. -/
structure XlsxStyleCatalog where
  numFmts : List String
  fonts : List String
  fills : List String
  borders : List String
  cellXfs : List String
  styleIds : OrderedMap XlsxResolvedStyle Nat

/-- `registerResource(resources, resource)`: the resources and the index. -/
def registerResource (resources : List String) (resource : String) : List String × Nat :=
  if resource ∈ resources then (resources, resources.idxOf resource)
  else (resources ++ [resource], resources.length)

/-- The element of an alignment. -/
def alignmentXml (alignment : XlsxAlignment) : String :=
  "<alignment" ++ (alignment.horizontal.map fun horizontal => " horizontal=\"" ++ horizontal ++ "\"").getD "" ++
    (alignment.indent.map fun indent => " indent=\"" ++ toString indent ++ "\"").getD "" ++
    (if alignment.wrapText then " wrapText=\"1\"" else "") ++ "/>"

/-- The entry of a style whose font, fill and border have these ids. -/
def cellXf (style : XlsxResolvedStyle) (fontId fillId borderId : Nat) : String :=
  let attributes := ["numFmtId=\"" ++ toString style.numFmtId ++ "\"", "fontId=\"" ++ toString fontId ++ "\"",
      "fillId=\"" ++ toString fillId ++ "\"", "borderId=\"" ++ toString borderId ++ "\"", "xfId=\"0\""] ++
    (if style.numFmtId ≠ 0 then ["applyNumberFormat=\"1\""] else []) ++
    (if fontId ≠ 0 then ["applyFont=\"1\""] else []) ++ (if fillId ≠ 0 then ["applyFill=\"1\""] else []) ++
    (if borderId ≠ 0 then ["applyBorder=\"1\""] else []) ++
    (if style.alignment.isSome then ["applyAlignment=\"1\""] else [])
  match style.alignment with
  | some alignment => "<xf " ++ " ".intercalate attributes ++ ">" ++ alignmentXml alignment ++ "</xf>"
  | none => "<xf " ++ " ".intercalate attributes ++ "/>"

/-- A new style has the next id. -/
def registerResolvedStyle (catalog : XlsxStyleCatalog) (style : XlsxResolvedStyle) : XlsxStyleCatalog :=
  match catalog.styleIds.get style with
  | some _ => catalog
  | none =>
    let (fonts, fontId) := registerResource catalog.fonts style.fontXml
    let (fills, fillId) := registerResource catalog.fills style.fillXml
    let (borders, borderId) := registerResource catalog.borders style.borderXml
    { numFmts := catalog.numFmts
      fonts
      fills
      borders
      cellXfs := catalog.cellXfs ++ [cellXf style fontId fillId borderId]
      styleIds := catalog.styleIds.set style catalog.cellXfs.length }

/-- The order that gives the named styles their ids. -/
def LEGACY_STYLE_ORDER : List XlsxCellStyle :=
  [.Header, .Number, .Krw, .Usd, .Percent, .Ratio, .Text, .TotalText, .TotalNumber, .TotalKrw, .TotalUsd,
    .TotalPercent, .TotalRatio, .Percent1]

/-- The styles that are registered before those of the rows. -/
def builtInStyles : List XlsxResolvedStyle :=
  ⟨0, REGULAR_FONT_XML, NO_FILL_XML, NO_BORDER_XML, none⟩ ::
    LEGACY_STYLE_ORDER.map fun style => resolveCellStyle ⟨some style, none, none, none, none, none, none⟩

/-- Before the first style. -/
def emptyCatalog : XlsxStyleCatalog where
  numFmts := ["<numFmt numFmtId=\"164\" formatCode=\"#,##0&quot;원&quot;\"/>",
    "<numFmt numFmtId=\"165\" formatCode=\"$#,##0.00\"/>", "<numFmt numFmtId=\"166\" formatCode=\"0.00&quot;배&quot;\"/>",
    "<numFmt numFmtId=\"167\" formatCode=\"0.0%\"/>"]
  fonts := [REGULAR_FONT_XML]
  fills := [NO_FILL_XML, GRAY_125_FILL_XML]
  borders := [NO_BORDER_XML]
  cellXfs := []
  styleIds := OrderedMap.empty

/-- The built-in styles, then those of the cells. -/
def buildStyleCatalog (rows : List (List XlsxCellLook)) : XlsxStyleCatalog :=
  (rows.flatten.map resolveCellStyle).foldl registerResolvedStyle
    (builtInStyles.foldl registerResolvedStyle emptyCatalog)

/-- `none` where the source throws. -/
def xlsxStyleId (cell : XlsxCellLook) (catalog : XlsxStyleCatalog) : Option Nat :=
  catalog.styleIds.get (resolveCellStyle cell)

/-! ## 3. What the catalogue keeps -/

/-- An entry says what a style says. -/
def Refers (catalog : XlsxStyleCatalog) (id : Nat) (style : XlsxResolvedStyle) : Prop :=
  ∃ fontId fillId borderId, catalog.fonts[fontId]? = some style.fontXml ∧
    catalog.fills[fillId]? = some style.fillXml ∧ catalog.borders[borderId]? = some style.borderXml ∧
    catalog.cellXfs[id]? = some (cellXf style fontId fillId borderId)

/-- Every id has its entry, and every entry the id of one style. -/
structure CatalogInv (catalog : XlsxStyleCatalog) : Prop where
  refers : ∀ style id, catalog.styleIds.get style = some id → Refers catalog id style
  distinct : ∀ style style' id, catalog.styleIds.get style = some id →
    catalog.styleIds.get style' = some id → style = style'
  entries : ∀ id < catalog.cellXfs.length, ∃ style, catalog.styleIds.get style = some id

/-- A later catalogue: all entries stay where they are. -/
structure Extends (catalog later : XlsxStyleCatalog) : Prop where
  fonts : catalog.fonts <+: later.fonts
  fills : catalog.fills <+: later.fills
  borders : catalog.borders <+: later.borders
  cellXfs : catalog.cellXfs <+: later.cellXfs
  styleIds : ∀ style id, catalog.styleIds.get style = some id → later.styleIds.get style = some id

variable {catalog later : XlsxStyleCatalog} {style : XlsxResolvedStyle} {id : Nat}

theorem Extends.refl (catalog : XlsxStyleCatalog) : Extends catalog catalog :=
  ⟨prefix_rfl, prefix_rfl, prefix_rfl, prefix_rfl, fun _ _ h => h⟩

theorem Extends.trans {last : XlsxStyleCatalog} (h : Extends catalog later) (h' : Extends later last) :
    Extends catalog last :=
  ⟨h.fonts.trans h'.fonts, h.fills.trans h'.fills, h.borders.trans h'.borders, h.cellXfs.trans h'.cellXfs,
    fun style id hs => h'.styleIds style id (h.styleIds style id hs)⟩

theorem getElem?_of_prefix {l m : List String} (h : l <+: m) {i : Nat} {x : String} (hx : l[i]? = some x) :
    m[i]? = some x := by
  obtain ⟨rest, rfl⟩ := h
  exact (List.getElem?_append_left (List.getElem?_eq_some_iff.mp hx).1).trans hx

/-- The ids in an entry are below the numbers of fonts, fills and borders. -/
theorem Refers.bounded (h : Refers catalog id style) :
    ∃ fontId < catalog.fonts.length, ∃ fillId < catalog.fills.length, ∃ borderId < catalog.borders.length,
      catalog.fonts[fontId]? = some style.fontXml ∧ catalog.fills[fillId]? = some style.fillXml ∧
      catalog.borders[borderId]? = some style.borderXml ∧
      catalog.cellXfs[id]? = some (cellXf style fontId fillId borderId) := by
  obtain ⟨fontId, fillId, borderId, hf, hi, hb, hx⟩ := h
  exact ⟨fontId, (List.getElem?_eq_some_iff.mp hf).1, fillId, (List.getElem?_eq_some_iff.mp hi).1, borderId,
    (List.getElem?_eq_some_iff.mp hb).1, hf, hi, hb, hx⟩

theorem Refers.extends (h : Refers catalog id style) (he : Extends catalog later) : Refers later id style := by
  obtain ⟨fontId, fillId, borderId, hf, hi, hb, hx⟩ := h
  exact ⟨fontId, fillId, borderId, getElem?_of_prefix he.fonts hf, getElem?_of_prefix he.fills hi,
    getElem?_of_prefix he.borders hb, getElem?_of_prefix he.cellXfs hx⟩

/-- A resource is found at its index, and the others stay. -/
theorem registerResource_spec (resources : List String) (resource : String) :
    resources <+: (registerResource resources resource).1 ∧
      (registerResource resources resource).1[(registerResource resources resource).2]? = some resource := by
  unfold registerResource
  split
  · next h => exact ⟨prefix_rfl, getElem?_idxOf h⟩
  · exact ⟨prefix_append _ _, getElem?_concat_length⟩

/-- **A style is registered**: it has an id, what it says stands at it, and all else stays. -/
theorem registerResolvedStyle_spec (h : CatalogInv catalog) (style : XlsxResolvedStyle) :
    CatalogInv (registerResolvedStyle catalog style) ∧ Extends catalog (registerResolvedStyle catalog style) ∧
      ((registerResolvedStyle catalog style).styleIds.get style).isSome := by
  unfold registerResolvedStyle
  split
  · next id hid => exact ⟨h, Extends.refl catalog, by rw [hid]; rfl⟩
  · rename_i hnew
    obtain ⟨hfonts, hfont⟩ := registerResource_spec catalog.fonts style.fontXml
    obtain ⟨hfills, hfill⟩ := registerResource_spec catalog.fills style.fillXml
    obtain ⟨hborders, hborder⟩ := registerResource_spec catalog.borders style.borderXml
    have hbound : ∀ s id, catalog.styleIds.get s = some id → id < catalog.cellXfs.length := by
      intro s id hs
      obtain ⟨_, _, _, -, -, -, hx⟩ := h.refers s id hs
      exact (List.getElem?_eq_some_iff.mp hx).1
    dsimp only
    have hext : Extends catalog { catalog with
        fonts := (registerResource catalog.fonts style.fontXml).1
        fills := (registerResource catalog.fills style.fillXml).1
        borders := (registerResource catalog.borders style.borderXml).1
        cellXfs := catalog.cellXfs ++ [cellXf style (registerResource catalog.fonts style.fontXml).2
          (registerResource catalog.fills style.fillXml).2 (registerResource catalog.borders style.borderXml).2]
        styleIds := catalog.styleIds.set style catalog.cellXfs.length } := by
      refine ⟨hfonts, hfills, hborders, prefix_append _ _, fun s id hs => ?_⟩
      rw [OrderedMap.get_set, if_neg fun e => ?_]
      · exact hs
      · rw [e, hnew] at hs
        cases hs
    refine ⟨⟨fun s id hs => ?_, fun s s' id hs hs' => ?_, fun id hid => ?_⟩, hext, ?_⟩
    · rw [OrderedMap.get_set] at hs
      split at hs
      · rename_i e
        cases hs
        rw [e]
        exact ⟨_, _, _, hfont, hfill, hborder, getElem?_concat_length⟩
      · exact (h.refers s id hs).extends hext
    · rw [OrderedMap.get_set] at hs hs'
      -- the new id is that of no other style
      split at hs <;> split at hs'
      · next e e' => rw [e, e']
      · cases hs
        exact absurd (hbound s' _ hs') (lt_irrefl _)
      · cases hs'
        exact absurd (hbound s _ hs) (lt_irrefl _)
      · exact h.distinct s s' id hs hs'
    · rw [length_append, length_singleton] at hid
      rcases Nat.lt_succ_iff_lt_or_eq.mp hid with hlt | rfl
      · obtain ⟨s, hs⟩ := h.entries id hlt
        exact ⟨s, hext.styleIds s id hs⟩
      · exact ⟨style, by rw [OrderedMap.get_set, if_pos rfl]⟩
    · rw [OrderedMap.get_set, if_pos rfl]
      rfl

/-- **A list of styles is registered.** -/
theorem catalogInv_foldl (styles : List XlsxResolvedStyle) (h : CatalogInv catalog) :
    CatalogInv (styles.foldl registerResolvedStyle catalog) ∧
      Extends catalog (styles.foldl registerResolvedStyle catalog) ∧
      ∀ style ∈ styles, ((styles.foldl registerResolvedStyle catalog).styleIds.get style).isSome := by
  induction styles generalizing catalog with
  | nil => exact ⟨h, Extends.refl catalog, fun _ hs => absurd hs not_mem_nil⟩
  | cons style styles ih =>
    obtain ⟨hinv, hext, hsome⟩ := registerResolvedStyle_spec h style
    obtain ⟨hinv', hext', hall⟩ := ih hinv
    refine ⟨hinv', hext.trans hext', fun s hs => ?_⟩
    rcases mem_cons.mp hs with rfl | hs
    · obtain ⟨id, hid⟩ := Option.isSome_iff_exists.mp hsome
      exact Option.isSome_iff_exists.mpr ⟨id, hext'.styleIds _ id hid⟩
    · exact hall s hs

theorem catalogInv_empty : CatalogInv emptyCatalog :=
  ⟨nofun, nofun, nofun⟩

end AdsManagement.Web
