/-
  File:      Common/Json.lean
  Subject:   JSON VALUES as request bodies and stored columns hold them, and the conversions
             `String(value)` and `Number(value)` that the services apply to body fields.

  Numbers are exact. `String` of a number is its plain decimal notation; the exponent notation
  of very large and very small numbers is left out.

  * `ApiError` -- the exceptions the services throw;
  * `textNumber_text` -- `Number` reads a stored decimal back from its text;
  * `requiredDateFromBody_eq_ok` -- a date a body may carry is one that reads back.
-/
import AdsManagement.Common.Decimal

namespace AdsManagement.Common

open List

/-- A JSON value. -/
inductive Json where
  | null
  | bool (b : Bool)
  | num (q : ℚ)
  | str (s : String)
  | arr (items : List Json)
  | obj (fields : List (String × Json))

/-- A request body, or the fields of an object. -/
abbrev Body := List (String × Json)

/-- `body[field]`; a missing field is `undefined`. -/
def Body.get (body : Body) (field : String) : Option Json :=
  (body.find? fun entry => entry.1 = field).map (·.2)

/-- `Object.prototype.hasOwnProperty.call(body, field)`. -/
def Body.has (body : Body) (field : String) : Bool := (body.get field).isSome

theorem Body.get_cons (field : String) (entry : String × Json) (body : Body) :
    Body.get (entry :: body) field = if entry.1 = field then some entry.2 else Body.get body field := by
  unfold Body.get
  rw [find?_cons]
  by_cases h : entry.1 = field
  · rw [if_pos h, decide_eq_true h]; rfl
  · rw [if_neg h, decide_eq_false h]

theorem Body.get_append (a b : Body) (field : String) :
    Body.get (a ++ b) field = (Body.get a field).or (Body.get b field) := by
  unfold Body.get
  rw [find?_append, Option.map_or]

/-- An entry is found under its field. -/
theorem Body.has_of_mem {body : Body} {entry : String × Json} (h : entry ∈ body) :
    body.has entry.1 = true := by
  unfold Body.has Body.get
  rw [Option.isSome_map, find?_isSome]
  exact ⟨entry, h, decide_eq_true rfl⟩

/-! ## 1. `String(value)` -/

/-- Up to twenty digits after the point. -/
def numberText (q : ℚ) : String := (Scaled.ofRat 20 q).text

mutual
def jsText : Json → String
  | .null => "null"
  | .bool b => if b then "true" else "false"
  | .num q => numberText q
  | .str s => s
  | .arr items => String.intercalate "," (jsTexts items)
  | .obj _ => "[object Object]"

/-- The elements of an array as `join` writes them: `null` as the empty text. -/
def jsTexts : List Json → List String
  | [] => []
  | .null :: rest => "" :: jsTexts rest
  | item :: rest => jsText item :: jsTexts rest
end

/-! ## 2. `Number(value)` -/

/-- `\d*` at the front of a text, with what follows. -/
def spanDigits : List Char → List Nat × List Char
  | [] => ([], [])
  | c :: rest =>
    match digit? c with
    | some d => let (ds, tail) := spanDigits rest; (d :: ds, tail)
    | none => ([], c :: rest)

/-- The exponent of a decimal literal: `([eE][+-]?\d+)?` to the end of the text. -/
def readExponent : List Char → Option Int
  | [] => some 0
  | c :: rest =>
    if c = 'e' ∨ c = 'E' then
      let (negative, body) := match rest with
        | '-' :: body => (true, body)
        | '+' :: body => (false, body)
        | body => (false, body)
      (readDigits body).map fun ds => if negative then -(natValue ds : Int) else natValue ds
    else none

/-- An unsigned decimal literal of ECMAScript: digits before or after the point, an exponent. -/
def readDecimalLiteral (l : List Char) : Option ℚ :=
  let (whole, rest) := spanDigits l
  let (fraction, rest) := match rest with
    | '.' :: tail => spanDigits tail
    | tail => ([], tail)
  if whole = [] ∧ fraction = [] then none
  else (readExponent rest).map fun e => (natValue whole + fracValue fraction) * (10 : ℚ) ^ e

/-- The value of a digit of base 2, 8 or 16. -/
def baseDigit? (base : Nat) (c : Char) : Option Nat :=
  let n := c.toNat
  let value := if 48 ≤ n ∧ n ≤ 57 then n - 48 else if 97 ≤ n ∧ n ≤ 102 then n - 87
    else if 65 ≤ n ∧ n ≤ 70 then n - 55 else base
  if value < base then some value else none

def readBase (base : Nat) (l : List Char) : Option ℚ :=
  if l = [] then none
  else (l.mapM (baseDigit? base)).map fun ds => (Nat.ofDigits base ds.reverse : ℚ)

/-- `Number(text)` where it is finite. -/
def textNumber (text : String) : Option ℚ :=
  match trimChars text.toList with
  | [] => some 0
  | '0' :: 'x' :: rest => readBase 16 rest
  | '0' :: 'X' :: rest => readBase 16 rest
  | '0' :: 'o' :: rest => readBase 8 rest
  | '0' :: 'O' :: rest => readBase 8 rest
  | '0' :: 'b' :: rest => readBase 2 rest
  | '0' :: 'B' :: rest => readBase 2 rest
  | '-' :: rest => (readDecimalLiteral rest).map (- ·)
  | '+' :: rest => readDecimalLiteral rest
  | l => readDecimalLiteral l

variable {l : List Char} {ds : List Nat}

theorem spanDigits_of_mapM (h : l.mapM digit? = some ds) :
    spanDigits l = (ds, []) := by
  induction l generalizing ds with
  | nil =>
    cases h
    rfl
  | cons c l ih =>
    rw [mapM_cons] at h
    cases hc : digit? c with
    | none =>
      rw [hc] at h
      cases h
    | some d =>
      rw [hc] at h
      cases hl : l.mapM digit? with
      | none =>
        rw [hl] at h
        cases h
      | some tail =>
        rw [hl] at h
        cases h
        unfold spanDigits
        rw [hc, ih hl]

variable {c : Char}

/-- Digits with something behind them that is no digit. -/
theorem spanDigits_append (h : l.mapM digit? = some ds) (hc : digit? c = none) (rest : List Char) :
    spanDigits (l ++ c :: rest) = (ds, c :: rest) := by
  induction l generalizing ds with
  | nil =>
    cases h
    show spanDigits (c :: rest) = ([], c :: rest)
    unfold spanDigits
    rw [hc]
  | cons a l ih =>
    rw [mapM_cons] at h
    cases ha : digit? a with
    | none =>
      rw [ha] at h
      cases h
    | some d =>
      rw [ha] at h
      cases hl : l.mapM digit? with
      | none =>
        rw [hl] at h
        cases h
      | some tail =>
        rw [hl] at h
        cases h
        rw [cons_append]
        unfold spanDigits
        rw [ha, ih hl]

/-- A digit or a point. -/
def IsDigitOrDot (c : Char) : Prop := (digit? c).isSome ∨ c = '.'

theorem isJsSpace_of_digitOrDot (h : IsDigitOrDot c) : isJsSpace c = false := by
  rcases h with h | rfl
  · by_contra hs
    rw [Bool.not_eq_false] at hs
    simp only [digit?, isJsSpace] at h hs
    split at h
    · simp only [Bool.or_eq_true, Bool.and_eq_true, decide_eq_true_eq, beq_iff_eq] at hs
      omega
    · cases h
  · decide

theorem digitOrDot_of_mem_natText {n : Nat} (hc : c ∈ natText n) : IsDigitOrDot c := by
  refine .inl ?_
  by_contra h
  exact not_mem_natText (Option.not_isSome_iff_eq_none.mp h) n hc

/-- Digits and points are read as a decimal literal, with a sign or without. -/
theorem textNumber_of_digits (hne : l ≠ []) (hl : ∀ c ∈ l, IsDigitOrDot c) :
    textNumber (String.ofList l) = readDecimalLiteral l ∧
      textNumber (String.ofList ('-' :: l)) = (readDecimalLiteral l).map (- ·) := by
  have hlast : ∀ c ∈ l.getLast?, isJsSpace c = false := fun c hc =>
    isJsSpace_of_digitOrDot (hl c (mem_of_mem_getLast? hc))
  constructor
  · have htrim : trimChars l = l :=
      trimChars_of_ends (fun c hc => isJsSpace_of_digitOrDot (hl c (mem_of_mem_head? hc))) hlast
    have hsecond : ∀ a c t, l = a :: c :: t → ¬ IsDigitOrDot c → False :=
      fun a c t h hc => hc (hl c (by rw [h]; simp))
    have hfirst : ∀ c t, l = c :: t → ¬ IsDigitOrDot c → False :=
      fun c t h hc => hc (hl c (by rw [h]; simp))
    unfold textNumber
    rw [String.toList_ofList, htrim]
    split
    case h_1 => exact absurd rfl hne
    case h_2 => exact (hsecond _ _ _ rfl (by unfold IsDigitOrDot; decide)).elim
    case h_3 => exact (hsecond _ _ _ rfl (by unfold IsDigitOrDot; decide)).elim
    case h_4 => exact (hsecond _ _ _ rfl (by unfold IsDigitOrDot; decide)).elim
    case h_5 => exact (hsecond _ _ _ rfl (by unfold IsDigitOrDot; decide)).elim
    case h_6 => exact (hsecond _ _ _ rfl (by unfold IsDigitOrDot; decide)).elim
    case h_7 => exact (hsecond _ _ _ rfl (by unfold IsDigitOrDot; decide)).elim
    case h_8 => exact (hfirst _ _ rfl (by unfold IsDigitOrDot; decide)).elim
    case h_9 => exact (hfirst _ _ rfl (by unfold IsDigitOrDot; decide)).elim
    case h_10 => rfl
  · have htrim : trimChars ('-' :: l) = '-' :: l := by
      refine trimChars_of_ends (fun c hc => ?_) fun c hc => ?_
      · cases hc
        decide
      · cases l with
        | nil => exact absurd rfl hne
        | cons a t =>
          exact hlast c hc
    unfold textNumber
    rw [String.toList_ofList, htrim]
    rfl

/-- **A whole number is read back from its own text.** -/
theorem textNumber_natText (n : Nat) : textNumber (String.ofList (natText n)) = some (n : ℚ) := by
  obtain ⟨ds, hds, hv, htext⟩ := readDigits_natText n
  unfold readDigits at hds
  split at hds
  · cases hds
  · next hne =>
    have hdsne : ds ≠ [] := by
      rintro rfl
      exact hne htext
    rw [(textNumber_of_digits hne fun c hc => digitOrDot_of_mem_natText hc).1]
    unfold readDecimalLiteral
    rw [spanDigits_of_mapM hds]
    simp [hdsne, readExponent, hv, fracValue]

/-- **A stored value is read back from its own text.** -/
theorem textNumber_text {s : Nat} (x : Scaled s) : textNumber x.text = some x.value := by
  obtain ⟨ds, hds, hv, htext⟩ := readDigits_natText (x.units.natAbs / 10 ^ s)
  let fs := stripZeros (padDigits s (x.units.natAbs % 10 ^ s))
  let l := natText (x.units.natAbs / 10 ^ s) ++ (if fs = [] then [] else '.' :: fs.map digitChar)
  have hfs : ∀ d ∈ fs, d < 10 := fun d hd => lt_of_mem_padDigits (stripZeros_subset hd)
  unfold readDigits at hds
  split at hds
  · cases hds
  · next hne =>
    have hl : ∀ c ∈ l, IsDigitOrDot c := by
      intro c hc
      rcases mem_append.mp hc with hc | hc
      · exact digitOrDot_of_mem_natText hc
      · split at hc
        · cases hc
        · rcases mem_cons.mp hc with rfl | hc
          · exact .inr rfl
          · obtain ⟨d, -, rfl⟩ := mem_map.mp hc
            refine .inl ?_
            rw [digit?_digitChar]
            rfl
    have hlne : l ≠ [] := fun h => hne (append_eq_nil_iff.mp h).1
    -- the literal is what `readUnsigned` reads
    have hread : readDecimalLiteral l = some ((x.units.natAbs : ℚ) / 10 ^ s) := by
      have hfrac : fracValue fs = ((x.units.natAbs % 10 ^ s : Nat) : ℚ) / 10 ^ s := by
        rw [fracValue_stripZeros, fracValue_padDigits (Nat.mod_lt _ (by positivity))]
      have hsum : ((x.units.natAbs / 10 ^ s : Nat) : ℚ) + ((x.units.natAbs % 10 ^ s : Nat) : ℚ) / 10 ^ s =
          (x.units.natAbs : ℚ) / 10 ^ s := by
        have hn : (x.units.natAbs : ℚ) = 10 ^ s * ((x.units.natAbs / 10 ^ s : Nat) : ℚ) +
            ((x.units.natAbs % 10 ^ s : Nat) : ℚ) := by
          exact_mod_cast (Nat.div_add_mod x.units.natAbs (10 ^ s)).symm
        rw [hn]
        field_simp
      have hdsne : ds ≠ [] := by
        rintro rfl
        exact hne htext
      unfold readDecimalLiteral
      by_cases hf : fs = []
      · have hle : l = natText (x.units.natAbs / 10 ^ s) := by
          show natText _ ++ (if fs = [] then [] else _) = _
          rw [if_pos hf, append_nil]
        rw [hle, spanDigits_of_mapM hds]
        rw [hf] at hfrac
        rw [← hsum, ← hfrac]
        simp [hdsne, readExponent, hv]
      · have hle : l = natText (x.units.natAbs / 10 ^ s) ++ '.' :: fs.map digitChar := by
          show natText _ ++ (if fs = [] then [] else _) = _
          rw [if_neg hf]
        rw [hle, spanDigits_append hds (by decide)]
        simp only [spanDigits_of_mapM (mapM_digit? hfs)]
        rw [if_neg fun h => hdsne h.1]
        simp only [readExponent, Option.map_some, hv, hfrac, hsum, zpow_zero, mul_one]
    have htwo := textNumber_of_digits hlne hl
    unfold Scaled.text
    simp only
    by_cases h : x.units < 0
    · have hq : ((x.units.natAbs : Nat) : ℚ) = -(x.units : ℚ) := by
        rw [Nat.cast_natAbs, Int.cast_abs, abs_of_neg (by exact_mod_cast h)]
      rw [if_pos h]
      have e := htwo.2
      rw [hread, hq, Option.map_some, neg_div, neg_neg] at e
      exact e
    · have hq : ((x.units.natAbs : Nat) : ℚ) = (x.units : ℚ) := by
        rw [Nat.cast_natAbs, abs_of_nonneg (by exact_mod_cast not_lt.mp h)]
      rw [if_neg h]
      have e := htwo.1
      rw [hread, hq] at e
      exact e

/-- `Number(value)` where it is finite; arrays are converted through their text. -/
def jsNumber : Json → Option ℚ
  | .null => some 0
  | .bool b => some (if b then 1 else 0)
  | .num q => some q
  | .str s => textNumber s
  | .arr items => textNumber (jsText (.arr items))
  | .obj _ => none

/-! ## 3. Errors and body fields -/

/-- `BadRequestException`, `NotFoundException` and the errors of the database. -/
structure ApiError where
  code : String
  message : String
deriving DecidableEq

/-- The states of an upload batch. -/
inductive UploadStatus where
  | PENDING
  | VALIDATING
  | VALIDATED
  | IMPORTED
  | PARTIAL
  | FAILED
  | CANCELLED
deriving DecidableEq

/-- A range of days; its texts are those of its ends. -/
structure DateRange where
  fromDate : Int
  toDate : Int

def parseDateRange (start stop : Option String) : Except ApiError DateRange :=
  if !isTruthy start || !isTruthy stop then
    .error { code := "DATE_RANGE_REQUIRED", message := "from과 to 날짜가 필요합니다." }
  else
    match toDateOnly start, toDateOnly stop with
    | some fromDate, some toDate =>
      if toDate < fromDate then
        .error { code := "INVALID_DATE_RANGE", message := "날짜 범위가 올바르지 않습니다." }
      else .ok ⟨fromDate, toDate⟩
    | _, _ => .error { code := "INVALID_DATE_RANGE", message := "날짜 범위가 올바르지 않습니다." }

/-- `{ gte: range.fromDate, lte: range.toDate }`. -/
def DateRange.holds (range : DateRange) (date : Int) : Bool :=
  range.fromDate ≤ date && date ≤ range.toDate

/-- `value === undefined || value === null || String(value).trim() === ""`. -/
def isBlankValue (value : Option Json) : Bool :=
  match value with
  | none => true
  | some .null => true
  | some v => trim (jsText v) == ""

/-- `!value`. -/
def isFalsyValue : Option Json → Bool
  | none => true
  | some .null => true
  | some (.bool b) => !b
  | some (.num q) => q = 0
  | some (.str s) => s == ""
  | some _ => false

/-- `String(value).trim()`, nothing when it is empty. -/
def optionalString (value : Option Json) : Option String :=
  match value with
  | none => none
  | some .null => none
  | some v => if trim (jsText v) = "" then none else some (trim (jsText v))

/-- `typeof value === "string" ? value.trim() : ""`. -/
def trimmedText : Option Json → String
  | some (.str s) => trim s
  | _ => ""

/-- `requiredString` of the services: a text that is not blank, trimmed. -/
def requiredString (value : Option Json) (field : String) : Except ApiError String :=
  if trimmedText value = "" then .error ⟨"FIELD_REQUIRED", field ++ " 값이 필요합니다."⟩
  else .ok (trimmedText value)

/-- `asDateOnly` of common/date-range.ts. -/
def asDateOnly (value : String) : Except ApiError Int :=
  match toDateOnly (some value) with
  | some date => .ok date
  | none => .error ⟨"INVALID_DATE", value ++ " 날짜 형식이 올바르지 않습니다."⟩

variable {d : Int}

theorem readsBack_of_asDateOnly {value : String} (h : asDateOnly value = .ok d) : ReadsBack d := by
  unfold asDateOnly at h
  split at h
  · rename_i date e
    cases h
    exact readsBack_of_toDateOnly e
  · cases h

def requiredDateFromBody (value : Option Json) (field : String) : Except ApiError Int :=
  let text := trimmedText value
  match if isIsoShape text then toDateOnly (some text) else none with
  | some d => .ok d
  | none => .error { code := "INVALID_DATE", message := field ++ " must be YYYY-MM-DD." }

/-- A date from a body reads back from its text. -/
theorem readsBack_of_requiredDateFromBody {value : Option Json} {field : String}
    (h : requiredDateFromBody value field = .ok d) : ReadsBack d := by
  unfold requiredDateFromBody at h
  simp only at h
  split at h
  · rename_i hd
    cases h
    split at hd
    · exact readsBack_of_toDateOnly hd
    · cases hd
  · cases h

/-- The text of a date that reads back is accepted. -/
theorem requiredDateFromBody_eq_ok (h : ReadsBack d) (field : String) :
    requiredDateFromBody (some (.str (formatDateOnly d))) field = .ok d := by
  unfold requiredDateFromBody trimmedText
  simp only [trim_formatDateOnly h, isIsoShape_formatDateOnly h, if_true,
    toDateOnly_formatDateOnly h]

end AdsManagement.Common
