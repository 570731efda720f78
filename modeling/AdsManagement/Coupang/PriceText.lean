/-
  File:      Coupang/PriceText.lean
  Subject:   PRICE LISTS AS TEXT (domain/coupang-price-text.ts): a line is a product name, a
             separator and a price.

  The line pattern is matched as the regular expression is: the blanks in front as many as
  possible, the name as short as possible, then a separator, a currency and the price up to
  the end. A comma is a separator and also stands between thousands.

  * `matchLine_spec` -- the name ends at the first place where a separator and a price follow;
  * `price_text_lines` -- what is written is read back, and where a line is split;
  * `price_text_split_thousands` -- a line whose only separator stands between thousands.
-/
import Mathlib.Data.Bool.AllAny
import AdsManagement.Common.Number
import AdsManagement.Coupang.CostUploads
import Mathlib.Data.List.Chain

namespace AdsManagement.Coupang

open Common List

/-! ## 1. The line pattern -/

/-- `(?:KRW\s*)?`, in either case. -/
def skipKrw : List Char → List Char
  | a :: b :: c :: rest =>
    if (a = 'K' ∨ a = 'k') ∧ (b = 'R' ∨ b = 'r') ∧ (c = 'W' ∨ c = 'w') then rest.dropWhile isJsSpace
    else a :: b :: c :: rest
  | l => l

/-- `[₩￦$]?`. -/
def skipCurrency : List Char → List Char
  | c :: rest => if c = '₩' ∨ c = '￦' ∨ c = '$' then rest else c :: rest
  | [] => []

/-- `[0-9,.\s]`. -/
def isPriceChar (c : Char) : Bool := (digit? c).isSome || c = ',' || c = '.' || isJsSpace c

/-- `([0-9][0-9,.\s]*)(?:원)?\s*$`: a shorter price would leave some of itself before the end. -/
def priceText : List Char → Option (List Char)
  | c :: rest =>
    if (digit? c).isSome then
      let after := match rest.dropWhile isPriceChar with
        | '원' :: after => after
        | after => after
      if after.all isJsSpace then some (c :: rest.takeWhile isPriceChar) else none
    else none
  | [] => none

/-- `\s*(?:KRW\s*)?[₩￦$]?\s*` and the price. -/
def pricePart (l : List Char) : Option (List Char) :=
  priceText ((skipCurrency (skipKrw (l.dropWhile isJsSpace))).dropWhile isJsSpace)

/-- `\s*(?:=|,|\t|\s{2,})` and what follows it: with an equals sign or a comma behind the blanks
    no tab and no two blanks can be the separator, for a price starts with neither. -/
def separatedPrice (l : List Char) : Option (List Char) :=
  let blanks := l.takeWhile isJsSpace
  match l.dropWhile isJsSpace with
  | c :: rest =>
    if c = '=' ∨ c = ',' then pricePart rest
    else if '\t' ∈ blanks ∨ 2 ≤ blanks.length then pricePart (c :: rest) else none
  | [] => none

/-- `(.+?)` and the rest of the line: the shortest name that a price follows. -/
def lazyName : List Char → Option (List Char × List Char)
  | [] => none
  | c :: rest =>
    if isLineTerminator c then none
    else match separatedPrice rest with
      | some price => some ([c], price)
      | none => (lazyName rest).map fun (name, price) => (c :: name, price)

/-- `PRICE_TEXT_LINE_PATTERN`: `^\s*` gives blanks back only when no name follows without them. -/
def matchLine : List Char → Option (List Char × List Char)
  | [] => none
  | c :: rest =>
    if isJsSpace c then (matchLine rest).or (lazyName (c :: rest)) else lazyName (c :: rest)

structure ParsedCoupangPriceTextRowResult where
  rowNumber : Nat
  rawLine : String
  sourceRowHash : String
  parsedRow : Option ParsedCoupangPriceTextRow
  issues : List ParseIssue

/-- `parseLine`. -/
def parseLine (hashCoupangPriceTextRecord : String → String) (rawLine : String) (rowNumber : Nat) :
    ParsedCoupangPriceTextRowResult :=
  match matchLine rawLine.toList with
  | none =>
    { rowNumber, rawLine, sourceRowHash := hashCoupangPriceTextRecord rawLine,
      parsedRow := none,
      issues := [
        { columnName := "line", errorCode := "INVALID_PRICE_TEXT_LINE",
          message := "Expected a product name and price separated by '=', comma, tab, or repeated spaces.",
          rawValue := some rawLine }] }
  | some (name, price) =>
    let salePriceKrw := parseNumberValue (some (String.ofList price)) none
    let issues : List ParseIssue :=
      if salePriceKrw = none then
        [{ columnName := "price", errorCode := "INVALID_NUMBER", message := "Sale price must be numeric.",
           rawValue := some (String.ofList price) }]
      else []
    { rowNumber, rawLine, sourceRowHash := hashCoupangPriceTextRecord rawLine,
      parsedRow := if issues.length > 0 then none
        else some { itemName := trim (String.ofList name), salePriceKrw := salePriceKrw.getD 0 },
      issues }

/-! ## 2. Where a line is split -/

/-- A stretch of a line that can be its name: not blank, and of one line once the blanks in front
    are gone. -/
def CanName (before : List Char) : Prop :=
  before.dropWhile isJsSpace ≠ [] ∧ (before.dropWhile isJsSpace).any isLineTerminator = false

variable {price name l : List Char}

/-- The name is a front of the line, and no shorter one goes before a price. -/
theorem lazyName_spec (h : lazyName l = some (name, price)) :
    ∃ rest, l = name ++ rest ∧ separatedPrice rest = some price ∧
      ∀ before after, l = before ++ after → before ≠ [] → (separatedPrice after).isSome = true →
        name.length ≤ before.length := by
  induction l generalizing name with
  | nil => cases h
  | cons c l ih =>
    rw [lazyName] at h
    split at h
    · cases h
    · split at h
      · rename_i found hfound
        cases h
        refine ⟨l, rfl, hfound, ?_⟩
        intro before after _ hne _
        exact length_pos_iff.mpr hne
      · rename_i hnone
        obtain ⟨⟨name', price'⟩, hname, heq⟩ := Option.map_eq_some_iff.mp h
        cases heq
        obtain ⟨rest, rfl, hprice, hfirst⟩ := ih hname
        refine ⟨rest, rfl, hprice, ?_⟩
        intro before after heq hne hsome
        cases before with
        | nil => exact absurd rfl hne
        | cons b before =>
          rw [cons_append] at heq
          have htail := (cons.inj heq).2
          by_cases hb : before = []
          · rw [hb, nil_append] at htail
            rw [← htail, hnone] at hsome
            cases hsome
          · exact Nat.succ_le_succ (hfirst before after htail hb hsome)

theorem lazyName_isSome {before after : List Char} (hne : before ≠ [])
    (hline : before.any isLineTerminator = false) (hprice : (separatedPrice after).isSome = true) :
    (lazyName (before ++ after)).isSome = true := by
  induction before with
  | nil => exact absurd rfl hne
  | cons c before ih =>
    obtain ⟨hc, hrest⟩ := Bool.or_eq_false_iff.mp (any_cons ▸ hline)
    rw [cons_append, lazyName, hc, if_neg (by decide)]
    cases hsep : separatedPrice (before ++ after) with
    | some price => rfl
    | none =>
      have hb : before ≠ [] := by
        rintro rfl
        rw [nil_append] at hsep
        rw [hsep] at hprice
        cases hprice
      simp only [Option.isSome_map]
      exact ih hb hrest

/-- Blanks in front are skipped when a name follows. -/
theorem matchLine_of_lazyName {r : List Char × List Char} (h : lazyName (l.dropWhile isJsSpace) = some r) :
    matchLine l = some r := by
  induction l with
  | nil => exact absurd h nofun
  | cons c l ih =>
    rw [matchLine]
    cases hc : isJsSpace c with
    | true =>
      rw [dropWhile_cons_of_pos hc] at h
      rw [ih h]
      rfl
    | false =>
      rw [dropWhile_cons_of_neg (by rw [hc]; decide)] at h
      rw [if_neg (by decide), h]

theorem matchLine_sound (h : matchLine l = some (name, price)) :
    ∃ lead body, l = lead ++ body ∧ (∀ c ∈ lead, isJsSpace c = true) ∧
      lazyName body = some (name, price) := by
  induction l with
  | nil => cases h
  | cons c l ih =>
    rw [matchLine] at h
    split at h
    · rename_i hc
      rcases Option.or_eq_some_iff.mp h with h | ⟨-, h⟩
      · obtain ⟨lead, body, rfl, hlead, hname⟩ := ih h
        refine ⟨c :: lead, body, rfl, ?_, hname⟩
        intro d hd
        rcases mem_cons.mp hd with rfl | hd
        · exact hc
        · exact hlead d hd
      · exact ⟨[], c :: l, rfl, nofun, h⟩
    · exact ⟨[], c :: l, rfl, nofun, h⟩

theorem dropWhile_append_of_ne_nil {p : Char → Bool} {a : List Char} (h : a.dropWhile p ≠ []) (b : List Char) :
    (a ++ b).dropWhile p = a.dropWhile p ++ b := by
  rw [dropWhile_append, if_neg]
  rwa [List.isEmpty_iff]

/-- **The name of an accepted line ends at the first place** after which a separator and a price
    follow. -/
theorem matchLine_spec {line : List Char} (h : matchLine line = some (name, price)) :
    ∃ lead rest, line = lead ++ name ++ rest ∧ (∀ c ∈ lead, isJsSpace c = true) ∧
      separatedPrice rest = some price ∧
      ∀ before after, line = before ++ after → CanName before → (separatedPrice after).isSome = true →
        (lead ++ name).length ≤ before.length := by
  cases hgreedy : lazyName (line.dropWhile isJsSpace) with
  | some r =>
    have hr := matchLine_of_lazyName hgreedy
    rw [h] at hr
    cases hr
    obtain ⟨rest, hrest, hprice, hfirst⟩ := lazyName_spec hgreedy
    refine ⟨line.takeWhile isJsSpace, rest, ?_, fun c hc => mem_takeWhile_imp hc, hprice, ?_⟩
    · rw [append_assoc, ← hrest, takeWhile_append_dropWhile]
    · rintro before after rfl ⟨hne, -⟩ hsome
      have hbody := dropWhile_append_of_ne_nil hne after
      have hle := hfirst _ _ hbody hne hsome
      have htotal := congrArg length
        (takeWhile_append_dropWhile (p := isJsSpace) (l := before ++ after))
      rw [hbody] at htotal
      simp only [length_append] at htotal ⊢
      omega
  | none =>
    obtain ⟨lead, body, rfl, hlead, hname⟩ := matchLine_sound h
    obtain ⟨rest, rfl, hprice, -⟩ := lazyName_spec hname
    refine ⟨lead, rest, (append_assoc _ _ _).symm, hlead, hprice, ?_⟩
    rintro before after heq ⟨hne, hline⟩ hsome
    have hsomeName := lazyName_isSome hne hline hsome
    rw [← dropWhile_append_of_ne_nil hne, ← heq, hgreedy] at hsomeName
    cases hsomeName

/-! ## 3. What is written -/

/-- A product name: not blank, without separators, and of one line once it is trimmed. -/
structure IsProductName (name : List Char) : Prop where
  nonblank : trimChars name ≠ []
  noSeparator : ∀ c ∈ name, c ≠ '=' ∧ c ≠ ',' ∧ c ≠ '\t'
  noBlanks : name.IsChain fun a b => ¬ (isJsSpace a = true ∧ isJsSpace b = true)
  oneLine : (trimChars name).any isLineTerminator = false

/-- An equals sign, a comma, a tab, or two blanks and more. -/
def IsSeparator (sep : List Char) : Prop :=
  sep = ['='] ∨ sep = [','] ∨ sep = ['\t'] ∨ (2 ≤ sep.length ∧ ∀ c ∈ sep, isJsSpace c = true)

/-- A comma before every third digit but the first; the lowest digit stands in front. -/
def groupDigits : List Char → List Char
  | a :: b :: c :: rest => if rest = [] then [a, b, c] else a :: b :: c :: ',' :: groupDigits rest
  | l => l

/-- `n` with commas between its thousands. -/
def thousandsText (n : Nat) : List Char := (groupDigits (natText n).reverse).reverse

def IsPriceOf (n : Nat) (price : List Char) : Prop := price = natText n ∨ price = thousandsText n

/-! ## 4. Reading a price -/

theorem mem_groupDigits {c : Char} (h : c ∈ groupDigits l) : c ∈ l ∨ c = ',' := by
  fun_induction groupDigits l with
  | case1 a b d => exact .inl h
  | case2 a b d rest hne ih =>
    simp only [mem_cons] at h ⊢
    rcases h with h | h | h | h | h
    · exact .inl (.inl h)
    · exact .inl (.inr (.inl h))
    · exact .inl (.inr (.inr (.inl h)))
    · exact .inr h
    · rcases ih h with h | h
      · exact .inl (.inr (.inr (.inr h)))
      · exact .inr h
  | case3 l _ => exact .inl h

/-- The commas go, the digits stay. -/
theorem filter_groupDigits {p : Char → Bool} (hcomma : p ',' = false) (hl : ∀ c ∈ l, p c = true) :
    (groupDigits l).filter p = l := by
  fun_induction groupDigits l with
  | case1 a b c => exact filter_eq_self.mpr hl
  | case2 a b c rest hne ih =>
    have hrest := ih fun x hx => hl x (by simp [hx])
    rw [filter_cons_of_pos (hl a (by simp)), filter_cons_of_pos (hl b (by simp)),
      filter_cons_of_pos (hl c (by simp)), filter_cons_of_neg (by simp [hcomma]), hrest]
  | case3 l _ => exact filter_eq_self.mpr hl

theorem getLast?_groupDigits (l : List Char) : (groupDigits l).getLast? = l.getLast? := by
  fun_induction groupDigits l with
  | case1 a b c => rfl
  | case2 a b c rest hne ih =>
    obtain ⟨d, rest, rfl⟩ := exists_cons_of_ne_nil hne
    have hgroup : groupDigits (d :: rest) ≠ [] := by
      intro e
      rw [e] at ih
      cases hlast : (d :: rest).getLast? with
      | none => exact absurd (getLast?_eq_none_iff.mp hlast) (cons_ne_nil _ _)
      | some x =>
        cases ih
    obtain ⟨e, tail, htail⟩ := exists_cons_of_ne_nil hgroup
    rw [htail] at ih ⊢
    exact ih
  | case3 l _ => rfl

variable {n : Nat}

theorem digit?_isSome_of_mem_natText {c : Char} (hc : c ∈ natText n) :
    (digit? c).isSome = true := by
  by_contra h
  exact not_mem_natText (Option.not_isSome_iff_eq_none.mp h) n hc

theorem isAmountMark_of_digit {c : Char} (h : (digit? c).isSome = true) : isAmountMark c = false := by
  obtain ⟨d, hd⟩ := Option.isSome_iff_exists.mp h
  obtain ⟨hlt, rfl⟩ := digitChar_of_digit? hd
  interval_cases d <;> decide

/-- A written price: digits and commas, a digit in front, and the digits are those of `n`. -/
theorem priceOf_spec (h : IsPriceOf n price) :
    (∀ c ∈ price, (digit? c).isSome = true ∨ c = ',') ∧
    (∃ c rest, price = c :: rest ∧ (digit? c).isSome = true) ∧
    price.filter (fun c => !isAmountMark c) = natText n := by
  have hdigits : ∀ c ∈ natText n, (digit? c).isSome = true := fun c hc => digit?_isSome_of_mem_natText hc
  have hhead : ∃ c rest, natText n = c :: rest := by
    refine exists_cons_of_ne_nil ?_
    obtain ⟨ds, hds, -, e⟩ := readDigits_natText n
    intro hnil
    rw [hnil] at hds
    cases hds
  have hkeep : ∀ c ∈ natText n, (!isAmountMark c) = true := fun c hc => by
    rw [isAmountMark_of_digit (hdigits c hc)]
    rfl
  obtain ⟨c, rest, hcons⟩ := hhead
  have hc : (digit? c).isSome = true := hdigits c (by rw [hcons]; exact mem_cons_self)
  rcases h with rfl | rfl
  · exact ⟨fun x hx => .inl (hdigits x hx), ⟨c, rest, hcons, hc⟩, filter_eq_self.mpr hkeep⟩
  · refine ⟨?_, ?_, ?_⟩
    · intro x hx
      rcases mem_groupDigits (mem_reverse.mp hx) with hx | hx
      · exact .inl (hdigits x (mem_reverse.mp hx))
      · exact .inr hx
    · have hfirst : (thousandsText n).head? = some c := by
        unfold thousandsText
        rw [head?_reverse, getLast?_groupDigits, getLast?_reverse, hcons]
        rfl
      obtain ⟨tail, htail⟩ := head?_eq_some_iff.mp hfirst
      exact ⟨c, tail, htail, hc⟩
    · unfold thousandsText
      rw [filter_reverse, filter_groupDigits (by decide), reverse_reverse]
      intro x hx
      exact hkeep x (mem_reverse.mp hx)

theorem isJsSpace_of_digit {c : Char} (h : (digit? c).isSome = true) : isJsSpace c = false :=
  isJsSpace_of_digitOrDot (.inl h)

theorem parseNumberValue_priceOf (h : IsPriceOf n price) (hfin : isFiniteNumber n = true)
    (emptyAs : Option ℚ) :
    parseNumberValue (some (String.ofList price)) emptyAs = some (n : ℚ) := by
  obtain ⟨hall, ⟨c, rest, hcons, hc⟩, hfilter⟩ := priceOf_spec h
  have hspace : ∀ x ∈ price, isJsSpace x = false := by
    intro x hx
    rcases hall x hx with hd | rfl
    · exact isJsSpace_of_digit hd
    · decide
  have htrim : trimChars price = price :=
    trimChars_of_ends (fun x hx => hspace x (mem_of_mem_head? hx))
      fun x hx => hspace x (mem_of_mem_getLast? hx)
  have hne : ¬ (price = [] ∨ price = ['-']) := by
    rintro (e | e)
    · rw [e] at hcons
      cases hcons
    · rw [e] at hcons
      cases hcons
      cases hc
  have hdigits : natText n ≠ [] := by
    obtain ⟨ds, hds, -, -⟩ := readDigits_natText n
    intro e
    rw [e] at hds
    cases hds
  unfold parseNumberValue
  simp only
  rw [String.toList_ofList, htrim, if_neg hne, hfilter, if_neg hdigits, textNumber_natText]
  simp [hfin]

theorem pricePart_priceOf (h : IsPriceOf n price) : pricePart price = some price := by
  obtain ⟨hall, ⟨c, rest, rfl, hc⟩, -⟩ := priceOf_spec h
  obtain ⟨d, hd⟩ := Option.isSome_iff_exists.mp hc
  have hspace := isJsSpace_of_digit hc
  have hkrw : skipKrw (c :: rest) = c :: rest := by
    unfold skipKrw
    split
    · rename_i heq
      cases heq
      rw [if_neg]
      rintro ⟨rfl | rfl, -⟩ <;> cases hd
    · rfl
  have hcurrency : skipCurrency (c :: rest) = c :: rest := by
    show (if c = '₩' ∨ c = '￦' ∨ c = '$' then rest else c :: rest) = c :: rest
    rw [if_neg]
    rintro (rfl | rfl | rfl) <;> cases hd
  have hrest : ∀ x ∈ rest, isPriceChar x = true := by
    intro x hx
    unfold isPriceChar
    rcases hall x (mem_cons_of_mem _ hx) with h | rfl
    · rw [h]
      rfl
    · decide
  unfold pricePart
  rw [dropWhile_cons_of_neg (by rw [hspace]; decide), hkrw, hcurrency,
    dropWhile_cons_of_neg (by rw [hspace]; decide), priceText, if_pos hc,
    dropWhile_eq_nil_iff.mpr hrest, takeWhile_eq_self_iff.mpr hrest]
  rfl

/-- Blanks, a separator and a price. -/
theorem separatedPrice_written {blanks sep price : List Char} {n : Nat}
    (hblanks : ∀ c ∈ blanks, isJsSpace c = true) (hsep : IsSeparator sep) (hprice : IsPriceOf n price) :
    separatedPrice (blanks ++ sep ++ price) = some price := by
  obtain ⟨-, ⟨c, rest, hcons, hc⟩, -⟩ := priceOf_spec hprice
  have hread := pricePart_priceOf hprice
  -- a mark that is no blank ends the blanks
  have hmark : ∀ mark, (mark = '=' ∨ mark = ',') → separatedPrice (blanks ++ [mark] ++ price) = some price := by
    intro mark hmark
    have hspace : isJsSpace mark = false := by rcases hmark with rfl | rfl <;> decide
    have hdrop : (blanks ++ [mark] ++ price).dropWhile isJsSpace = mark :: price := by
      rw [append_assoc, dropWhile_append_of_pos hblanks]
      exact dropWhile_cons_of_neg (by rw [hspace]; decide)
    unfold separatedPrice
    simp only [hdrop, if_pos hmark, hread]
  -- blanks are all in front of the price
  have hspaces : (∀ c ∈ sep, isJsSpace c = true) → ('\t' ∈ blanks ++ sep ∨ 2 ≤ (blanks ++ sep).length) →
      separatedPrice (blanks ++ sep ++ price) = some price := by
    intro hall hlong
    have hfront : ∀ c ∈ blanks ++ sep, isJsSpace c = true := fun x hx =>
      (mem_append.mp hx).elim (hblanks x) (hall x)
    have hspace := isJsSpace_of_digit hc
    have hdigit : ¬ (c = '=' ∨ c = ',') := by
      rintro (rfl | rfl) <;> cases hc
    have hdrop : (blanks ++ sep ++ price).dropWhile isJsSpace = c :: rest := by
      rw [dropWhile_append_of_pos hfront, hcons]
      exact dropWhile_cons_of_neg (by rw [hspace]; decide)
    have htake : (blanks ++ sep ++ price).takeWhile isJsSpace = blanks ++ sep := by
      rw [takeWhile_append_of_pos hfront, hcons,
        takeWhile_cons_of_neg (by rw [hspace]; decide), append_nil]
    unfold separatedPrice
    simp only [hdrop, htake, if_neg hdigit, if_pos hlong]
    rw [← hcons, hread]
  rcases hsep with rfl | rfl | rfl | ⟨hlen, hall⟩
  · exact hmark '=' (.inl rfl)
  · exact hmark ',' (.inr rfl)
  · exact hspaces (all_eq_true.mp (by decide)) (.inl (mem_append_right _ mem_cons_self))
  · exact hspaces hall (.inr (by rw [length_append]; omega))

/-! ## 5. Lines -/

/-- Inside a name no separator is found. -/
theorem separatedPrice_inside (hne : name ≠ []) (hlast : ∀ c ∈ name.getLast?, isJsSpace c = false)
    (hsep : ∀ c ∈ name, c ≠ '=' ∧ c ≠ ',' ∧ c ≠ '\t')
    (hblanks : name.IsChain fun a b => ¬ (isJsSpace a = true ∧ isJsSpace b = true)) (after : List Char) :
    separatedPrice (name ++ after) = none := by
  obtain ⟨x, rest, rfl⟩ := exists_cons_of_ne_nil hne
  obtain ⟨hequal, hcomma, htab⟩ := hsep x mem_cons_self
  cases hx : isJsSpace x with
  | false =>
    unfold separatedPrice
    rw [cons_append, takeWhile_cons_of_neg (by rw [hx]; decide),
      dropWhile_cons_of_neg (by rw [hx]; decide)]
    simp [hequal, hcomma]
  | true =>
    -- one blank, and then a character of a word
    cases rest with
    | nil =>
      have := hlast x rfl
      rw [hx] at this
      cases this
    | cons y rest =>
      have hy : isJsSpace y = false := by
        have hpair := (isChain_cons_cons.mp hblanks).1
        by_contra h
        exact hpair ⟨hx, by simpa using h⟩
      obtain ⟨hequal', hcomma', -⟩ := hsep y (mem_cons_of_mem _ mem_cons_self)
      unfold separatedPrice
      rw [cons_append, cons_append, takeWhile_cons_of_pos hx,
        takeWhile_cons_of_neg (by rw [hy]; decide), dropWhile_cons_of_pos hx,
        dropWhile_cons_of_neg (by rw [hy]; decide)]
      simp [hequal', hcomma', htab.symm]

theorem lazyName_name {after : List Char} (hne : name ≠ [])
    (hlast : ∀ c ∈ name.getLast?, isJsSpace c = false) (hsep : ∀ c ∈ name, c ≠ '=' ∧ c ≠ ',' ∧ c ≠ '\t')
    (hblanks : name.IsChain fun a b => ¬ (isJsSpace a = true ∧ isJsSpace b = true))
    (hline : name.any isLineTerminator = false) (hprice : separatedPrice after = some price) :
    lazyName (name ++ after) = some (name, price) := by
  induction name with
  | nil => exact absurd rfl hne
  | cons c name ih =>
    obtain ⟨hc, hrest⟩ := Bool.or_eq_false_iff.mp (any_cons ▸ hline)
    rw [cons_append, lazyName, hc, if_neg (by decide)]
    cases name with
    | nil =>
      rw [nil_append, hprice]
    | cons d name =>
      have hlast' : ∀ x ∈ (d :: name).getLast?, isJsSpace x = false := by
        rwa [getLast?_cons_cons] at hlast
      have hsep' : ∀ x ∈ d :: name, x ≠ '=' ∧ x ≠ ',' ∧ x ≠ '\t' := fun x hx =>
        hsep x (mem_cons_of_mem _ hx)
      have hblanks' := (isChain_cons_cons.mp hblanks).2
      rw [separatedPrice_inside (cons_ne_nil d name) hlast' hsep' hblanks' after,
        ih (cons_ne_nil d name) hlast' hsep' hblanks' hrest]
      rfl

/-- **What is written is matched**: the name without the blanks around it, and the price. -/
theorem matchLine_written {sep : List Char} (hname : IsProductName name) (hsep : IsSeparator sep)
    (hprice : IsPriceOf n price) :
    matchLine (name ++ sep ++ price) = some (trimChars name, price) := by
  obtain ⟨front, back, hsplit, hfront, hback⟩ := trimChars_split name
  have hmem : ∀ c ∈ trimChars name, c ∈ name := fun c hc => by
    rw [hsplit]
    simp [hc]
  have hchain : (trimChars name).IsChain fun a b => ¬ (isJsSpace a = true ∧ isJsSpace b = true) := by
    have h := hname.noBlanks
    rw [hsplit, append_assoc] at h
    exact h.right_of_append.left_of_append
  have hread := lazyName_name hname.nonblank (getLast?_trimChars name)
    (fun c hc => hname.noSeparator c (hmem c hc)) hchain hname.oneLine
    (separatedPrice_written hback hsep hprice)
  refine matchLine_of_lazyName ?_
  have hline : name ++ sep ++ price = front ++ (trimChars name ++ (back ++ sep ++ price)) := by
    conv_lhs => rw [hsplit]
    simp only [append_assoc]
  rw [hline, dropWhile_append_of_pos hfront, dropWhile_of_head, hread]
  intro c hc
  obtain ⟨d, rest, hd⟩ := exists_cons_of_ne_nil hname.nonblank
  rw [hd] at hc
  exact head?_trimChars name c (by rw [hd]; exact hc)

/-- The name is the trimmed name of the line, the price its number. -/
theorem parseLine_of_match {line : String} {q : ℚ} (h : matchLine line.toList = some (name, price))
    (hq : parseNumberValue (some (String.ofList price)) none = some q) (hash : String → String)
    (rowNumber : Nat) :
    (parseLine hash line rowNumber).parsedRow =
      some { itemName := trim (String.ofList name), salePriceKrw := q } := by
  unfold parseLine
  rw [h]
  simp [hq]

theorem match_of_parsedRow {hash : String → String} {line : String} {rowNumber : Nat}
    {row : ParsedCoupangPriceTextRow} (h : (parseLine hash line rowNumber).parsedRow = some row) :
    ∃ name price, matchLine line.toList = some (name, price) ∧ row.itemName = trim (String.ofList name) ∧
      parseNumberValue (some (String.ofList price)) none = some row.salePriceKrw := by
  unfold parseLine at h
  cases hm : matchLine line.toList with
  | none =>
    rw [hm] at h
    cases h
  | some found =>
    obtain ⟨name, price⟩ := found
    rw [hm] at h
    cases hq : parseNumberValue (some (String.ofList price)) none with
    | none => simp [hq] at h
    | some q =>
      simp [hq] at h
      subst h
      exact ⟨name, price, rfl, rfl, hq⟩

/-- The split after `before` stands at a comma between the thousands of a number: one to three
    digits before it, three after it. -/
def SplitsThousands (before after : List Char) : Prop :=
  ∃ front high low back, before = front ++ high ∧ after = ',' :: (low ++ back) ∧
    1 ≤ high.length ∧ high.length ≤ 3 ∧ low.length = 3 ∧
    (∀ c ∈ high ++ low, (digit? c).isSome = true) ∧
    (∀ c ∈ front.getLast?, digit? c = none) ∧ (∀ c ∈ back.head?, digit? c = none)

/-- **A written line is read back, and an accepted line is split at the first place after which a
    separator and a price follow**, so never behind a separator that its price stands after. -/
theorem price_text_lines :
    (∀ (hash : String → String) (rowNumber n : Nat) (name sep price : List Char), IsProductName name →
      IsSeparator sep → IsPriceOf n price → isFiniteNumber n = true →
      (parseLine hash (String.ofList (name ++ sep ++ price)) rowNumber).parsedRow =
        some { itemName := trim (String.ofList name), salePriceKrw := n }) ∧
    (∀ (hash : String → String) (rowNumber : Nat) (line : String) (row : ParsedCoupangPriceTextRow),
      (parseLine hash line rowNumber).parsedRow = some row →
      ∃ lead name rest, line.toList = lead ++ name ++ rest ∧ (∀ c ∈ lead, isJsSpace c = true) ∧
        row.itemName = trim (String.ofList name) ∧ (separatedPrice rest).isSome = true ∧
        (∀ before after, line.toList = before ++ after → CanName before →
          (separatedPrice after).isSome = true → (lead ++ name).length ≤ before.length) ∧
        (∀ before sep price n, line.toList = before ++ sep ++ price → CanName before → IsSeparator sep →
          IsPriceOf n price → (lead ++ name).length ≤ before.length)) := by
  constructor
  · intro hash rowNumber n name sep price hname hsep hprice hfin
    have hmatch : matchLine (String.ofList (name ++ sep ++ price)).toList = some (trimChars name, price) := by
      rw [String.toList_ofList]
      exact matchLine_written hname hsep hprice
    rw [parseLine_of_match hmatch (parseNumberValue_priceOf hprice hfin none)]
    unfold trim
    rw [String.toList_ofList, String.toList_ofList, trimChars_trimChars]
  · intro hash rowNumber line row h
    obtain ⟨name, price, hmatch, hitem, -⟩ := match_of_parsedRow h
    obtain ⟨lead, rest, hline, hlead, hrest, hfirst⟩ := matchLine_spec hmatch
    refine ⟨lead, name, rest, hline, hlead, hitem, by rw [hrest]; rfl, hfirst, ?_⟩
    intro before sep number n hnumber hbefore hsep hprice
    rw [append_assoc] at hnumber
    have hwritten := @separatedPrice_written [] sep number n nofun hsep hprice
    rw [nil_append] at hwritten
    exact hfirst before (sep ++ number) hnumber hbefore (by rw [hwritten]; rfl)

/-- A name, a tab and a price with a comma between its thousands. -/
theorem price_text_lines_tea :
    (parseLine id "Tea 1\t1,500" 1).parsedRow = some { itemName := "Tea 1", salePriceKrw := 1500 } := by
  have h := price_text_lines.1 id 1 1500 "Tea 1".toList ['\t'] "1,500".toList
    ⟨by decide +kernel, all_iff_forall_prop.mp (by decide +kernel), by decide +kernel, by decide +kernel⟩
    (.inr (.inr (.inl rfl))) (.inr (by decide +kernel)) (by decide +kernel)
  exact h

/-- In `Tea 1,500` the comma between the thousands is the only separator: the name `Tea 1` goes
    with the price 500, as it does for the name `Tea 1`, a comma and 500. A price below nothing is
    no price. -/
theorem price_text_split_thousands :
    (parseLine id "Tea 1,500" 1).parsedRow = some { itemName := "Tea 1", salePriceKrw := 500 } ∧
      IsProductName "Tea 1".toList ∧ SplitsThousands "Tea 1".toList ",500".toList ∧
      (parseLine id "Tea=-500" 1).parsedRow = none ∧
      ¬ ∀ line lead name rest price, matchLine line = some (name, price) → line = lead ++ name ++ rest →
        separatedPrice rest = some price → ¬ SplitsThousands (lead ++ name) rest := by
  have hsplit : SplitsThousands "Tea 1".toList ",500".toList :=
    ⟨['T', 'e', 'a', ' '], ['1'], "500".toList, [], by decide +kernel, by decide +kernel, by decide, by decide,
      by decide, all_iff_forall_prop.mp (by decide +kernel), fun c hc => by cases hc; rfl, nofun⟩
  refine ⟨by decide +kernel,
    ⟨by decide +kernel, all_iff_forall_prop.mp (by decide +kernel), by decide +kernel, by decide +kernel⟩, hsplit,
    by decide +kernel, ?_⟩
  intro h
  exact h "Tea 1,500".toList [] "Tea 1".toList ",500".toList "500".toList (by decide +kernel)
    (by decide +kernel) (by decide +kernel) hsplit

end AdsManagement.Coupang
