/-
  File:      Cafe24/Csv.lean
  Subject:   CAFE24 ORDER ROWS: the columns of the export, the row parser and the logical key
             of an order line (domain/cafe24-csv.ts).

  A CSV record is the list of its columns. Numbers are exact; time stamps count seconds, days
  count from the same origin as everywhere else. The decoding of the file and the CSV reader
  are left out.

  * `parseRow_parsedRow_iff` -- a row is parsed exactly when it has no issue;
  * `isClean_effectiveCafe24OrderLineKey` -- every key is its own `trim` and not empty.
-/
import AdsManagement.Common.Number
import AdsManagement.Coupang.Rows

namespace AdsManagement.Cafe24

open Common Coupang

/-! ## 1. Columns -/

/-- The keys of `CAFE24_ORDER_COLUMN_ALIASES`, in its order. -/
inductive Cafe24OrderColumnKey where
  | totalOrderKrw
  | orderNo
  | lineOrderNo
  | totalPaidKrw
  | productNo
  | productName
  | optionName
  | quantity
  | salePriceKrw
  | paymentMethod
  | orderedAt
deriving DecidableEq

def Cafe24OrderColumnKey.all : List Cafe24OrderColumnKey :=
  [totalOrderKrw, orderNo, lineOrderNo, totalPaidKrw, productNo, productName, optionName, quantity,
    salePriceKrw, paymentMethod, orderedAt]

/-- The first alias of a column, its name in messages. -/
def Cafe24OrderColumnKey.name : Cafe24OrderColumnKey → String
  | totalOrderKrw => "총 주문금액"
  | orderNo => "주문번호"
  | lineOrderNo => "품목별 주문번호"
  | totalPaidKrw => "총 결제금액"
  | productNo => "상품번호"
  | productName => "주문상품명"
  | optionName => "주문상품명(옵션포함)"
  | quantity => "수량"
  | salePriceKrw => "판매가"
  | paymentMethod => "결제수단"
  | orderedAt => "발주일"

def Cafe24OrderColumnKey.aliases : Cafe24OrderColumnKey → List String
  | totalOrderKrw => ["총 주문금액", "총주문금액", "총 주문 금액"]
  | orderNo => ["주문번호", "주문 번호"]
  | lineOrderNo => ["품목별 주문번호", "품목별주문번호", "품목 주문번호"]
  | totalPaidKrw => ["총 결제금액", "총결제금액", "총 결제 금액"]
  | productNo => ["상품번호", "상품 번호"]
  | productName => ["주문상품명", "주문 상품명", "상품명"]
  | optionName => ["주문상품명(옵션포함)", "주문상품명 (옵션포함)", "주문 상품명(옵션포함)", "옵션포함명"]
  | quantity => ["수량", "주문수량", "주문 수량"]
  | salePriceKrw => ["판매가", "상품 판매가", "판매가(원)"]
  | paymentMethod => ["결제수단", "결제 수단"]
  | orderedAt => ["발주일", "발주일시", "주문일시", "주문일"]

def CAFE24_ORDER_REQUIRED_KEYS : List Cafe24OrderColumnKey :=
  [.orderNo, .lineOrderNo, .totalPaidKrw, .productNo, .productName, .optionName, .quantity,
    .salePriceKrw, .paymentMethod, .orderedAt]

def stripBom : List Char → List Char
  | [] => []
  | c :: rest => if c.toNat = 0xFEFF then rest else c :: rest

def normalizeHeader (value : String) : List Char :=
  trimChars ((stripBom value.toList).filter fun c => !isJsSpace c)

/-- The headers go into a `Map` under their normal form: of two with the same one the later
    stays. -/
def findHeader (headers : List String) (aliases : List String) : Option String :=
  aliases.findSome? fun name =>
    (headers.reverse.find? fun header => normalizeHeader header = normalizeHeader name).filter
      (· != "")

/-- `Cafe24CsvHeaderValidator.validate`: the columns that are missing. -/
def missingColumns (headers : List String) : List String :=
  (CAFE24_ORDER_REQUIRED_KEYS.filter fun key => (findHeader headers key.aliases).isNone).map (·.name)

/-- `rawRow[header]`. -/
def cell (rawRow : RawRow) (header : String) : Option String :=
  (rawRow.find? fun column => column.1 = header).map (·.2)

def readColumn (rawRow : RawRow) (key : Cafe24OrderColumnKey) : Option String :=
  (findHeader (rawRow.map (·.1)) key.aliases).bind (cell rawRow)

def sanitizeCafe24RawRow (rawRow : RawRow) : RawRow :=
  Cafe24OrderColumnKey.all.filterMap fun key =>
    (readColumn rawRow key).map fun value => (key.name, value)

def rawString (rawRow : RawRow) (key : Cafe24OrderColumnKey) : String :=
  ((readColumn rawRow key).map trim).getD ""

/-! ## 2. Cells -/

def textValue (value : Option String) : Option String :=
  (value.map trim).filter (· != "")

def normalizeCafe24ProductNoText (value : String) : String :=
  let trimmed := trimChars value.toList
  if ['.', '0'].isSuffixOf trimmed then String.ofList (trimmed.dropLast.dropLast)
  else String.ofList trimmed

/-- `/^\((.+)\)$/`: what stands between the brackets. -/
def bracketed (input : List Char) : Option (List Char) :=
  match input with
  | '(' :: rest =>
    let inner := rest.dropLast
    if rest.getLast? = some ')' ∧ inner ≠ [] ∧ !inner.any isLineTerminator then some inner else none
  | _ => none

/-- `/[,\s₩원$]/`. -/
def isNumberMark (c : Char) : Bool := c = ',' || isJsSpace c || c = '₩' || c = '원' || c = '$'

/-- `parseCafe24Number(value, { emptyAs })`. -/
def parseCafe24Number (value : Option String) (emptyAs : Option ℚ) : Option ℚ :=
  match value with
  | none => emptyAs
  | some text =>
    let input := trimChars text.toList
    if input = [] ∨ input = ['-'] then emptyAs
    else
      let cleaned := input.filter fun c => !isNumberMark c
      let inner := (bracketed cleaned).getD cleaned
      ((readDecimal inner).filter isFiniteNumber).map fun parsed =>
        if (bracketed input).isSome then -parsed else parsed

/-- A dot, dash or slash, blanks, and a number of one or two digits. -/
def datePart : List Char → Option (Nat × List Char)
  | c :: rest =>
    if c = '.' ∨ c = '-' ∨ c = '/' then number12 (rest.dropWhile isJsSpace) else none
  | [] => none

/-- `\.?\s*(?:T|\s)\s*` before the time of day. -/
def timeMark (input : List Char) : Option (List Char) :=
  let rest := match input with
    | '.' :: rest => rest
    | rest => rest
  match rest.dropWhile isJsSpace with
  | 'T' :: tail => some (tail.dropWhile isJsSpace)
  | tail => if tail.length < rest.length then some tail else none

/-- `(\d{1,2}):(\d{2})(?::(\d{2}))?$`. -/
def timeOfDay (input : List Char) : Option (Nat × Nat × Nat) := do
  let (hour, rest) ← number12 input
  let rest ← skipChar ':' rest
  let (minute, rest) ← number2 rest
  match rest with
  | [] => some (hour, minute, 0)
  | _ =>
    let rest ← skipChar ':' rest
    let (second, rest) ← number2 rest
    if rest = [] then some (hour, minute, second) else none

/-- `parseCafe24DateTime`: seconds since the origin of the days. -/
def parseCafe24DateTime (value : Option String) : Option Int := do
  let text ← value
  let (year, rest) ← number4 (trimChars text.toList)
  let (month, rest) ← datePart rest
  let (day, rest) ← datePart rest
  let (hour, minute, second) ← if rest = [] then some (0, 0, 0) else (timeMark rest).bind timeOfDay
  let date := dateUTC year (month - 1) day
  -- a field that overflows reads back as another value
  if civilFromDays date = ⟨year, month, day⟩ ∧ hour < 24 ∧ minute < 60 ∧ second < 60 then
    some (86400 * date + 3600 * hour + 60 * minute + second)
  else none

/-! ## 3. The row parser -/

structure ParsedCafe24OrderRow where
  orderNo : String
  lineOrderNo : String
  productNo : String
  productName : String
  optionName : String
  quantity : ℚ
  salePriceKrw : ℚ
  totalOrderKrw : Option ℚ
  totalPaidKrw : ℚ
  paymentMethod : Option String
  orderedAt : Option Int
  orderDate : Option Int

structure ParsedCafe24Row where
  parsedRow : Option ParsedCafe24OrderRow
  issues : List ParseIssue

section

variable (rawRow : RawRow) (key : Cafe24OrderColumnKey)

/-- The issue a column check reports. -/
def columnIssue (errorCode message : String) : ParseIssue where
  columnName := key.name
  errorCode := errorCode
  message := message
  rawValue := readColumn rawRow key

def requiredText : String × List ParseIssue :=
  match textValue (readColumn rawRow key) with
  | some value => (value, [])
  | none => ("", [columnIssue rawRow key "REQUIRED" (key.name ++ " is required.")])

def requiredNumber (emptyAs : Option ℚ) : ℚ × List ParseIssue :=
  match parseCafe24Number (readColumn rawRow key) emptyAs with
  | some value => (value, [])
  | none => (0, [columnIssue rawRow key "INVALID_NUMBER" (key.name ++ " must be numeric.")])

def optionalNumber : Option ℚ × List ParseIssue :=
  match readColumn rawRow key with
  | none => (none, [])
  | some rawValue =>
    if trim rawValue = "" ∨ trim rawValue = "-" then (none, [])
    else
      match parseCafe24Number (some rawValue) none with
      | some value => (some value, [])
      | none => (none, [columnIssue rawRow key "INVALID_NUMBER" (key.name ++ " must be numeric.")])

def requiredDateTime : Option Int × List ParseIssue :=
  match parseCafe24DateTime (readColumn rawRow key) with
  | some value => (some value, [])
  | none =>
    (none, [columnIssue rawRow key "INVALID_DATE" (key.name ++ " must be a valid date or datetime.")])

end

/-- The issues `parseRow` collects, in the order of its checks. -/
def parseIssues (rawRow : RawRow) : List ParseIssue :=
  let quantity := requiredNumber rawRow .quantity (some 0)
  let totalOrderKrw := optionalNumber rawRow .totalOrderKrw
  (requiredText rawRow .orderNo).2 ++ (requiredText rawRow .lineOrderNo).2 ++
    (requiredText rawRow .productNo).2 ++ (requiredText rawRow .productName).2 ++
    (requiredText rawRow .optionName).2 ++ quantity.2 ++
    (requiredNumber rawRow .salePriceKrw (some 0)).2 ++ totalOrderKrw.2 ++
    (requiredNumber rawRow .totalPaidKrw none).2 ++ (requiredDateTime rawRow .orderedAt).2 ++
    (if quantity.1 < 0 then
      [columnIssue rawRow .quantity "NEGATIVE_QUANTITY" "Cafe24 quantity cannot be negative."]
    else []) ++
    (if totalOrderKrw.1.any (· < 0) then
      [columnIssue rawRow .totalOrderKrw "NEGATIVE_TOTAL_ORDER"
        "Cafe24 total order amount cannot be negative."]
    else [])

/-- `Cafe24CsvParser.parseRow`. -/
def parseRow (rawRow : RawRow) : ParsedCafe24Row :=
  let orderedAt := (requiredDateTime rawRow .orderedAt).1
  { parsedRow :=
      if parseIssues rawRow = [] then
        some
          { orderNo := (requiredText rawRow .orderNo).1
            lineOrderNo := (requiredText rawRow .lineOrderNo).1
            productNo := normalizeCafe24ProductNoText (requiredText rawRow .productNo).1
            productName := (requiredText rawRow .productName).1
            optionName := (requiredText rawRow .optionName).1
            quantity := (requiredNumber rawRow .quantity (some 0)).1
            salePriceKrw := (requiredNumber rawRow .salePriceKrw (some 0)).1
            totalOrderKrw := (optionalNumber rawRow .totalOrderKrw).1
            totalPaidKrw := (requiredNumber rawRow .totalPaidKrw none).1
            paymentMethod := textValue (readColumn rawRow .paymentMethod)
            orderedAt
            orderDate := orderedAt.bind fun time => toDateOnly (some (formatDateOnly (time / 86400))) }
      else none
    issues := parseIssues rawRow }

/-- **A row is parsed exactly when it has no issue.** -/
theorem parseRow_parsedRow_iff (rawRow : RawRow) :
    (parseRow rawRow).parsedRow.isSome = true ↔ (parseRow rawRow).issues = [] := by
  unfold parseRow
  by_cases h : parseIssues rawRow = []
  · simp only [h, if_true, Option.isSome_some]
  · simp only [h, if_false, Option.isSome_none, Bool.false_eq_true]

/-! ## 4. Keys -/

def cafe24OrderLineKey (row : ParsedCafe24OrderRow) : String :=
  String.ofList (joinTrimmed [row.orderNo, row.lineOrderNo, row.productNo, row.optionName])

def fallbackOrderLineKey (rawRow : RawRow) : String :=
  String.ofList (joinTrimmed [rawString rawRow .orderNo, rawString rawRow .lineOrderNo,
    rawString rawRow .productNo, rawString rawRow .optionName])

def effectiveCafe24OrderLineKey (parsedRow : Option ParsedCafe24OrderRow) (rawRow : RawRow) : String :=
  match parsedRow with
  | some row => cafe24OrderLineKey row
  | none => fallbackOrderLineKey rawRow

theorem isClean_effectiveCafe24OrderLineKey (parsedRow : Option ParsedCafe24OrderRow)
    (rawRow : RawRow) : IsClean (effectiveCafe24OrderLineKey parsedRow rawRow) := by
  cases parsedRow with
  | some row | none => exact isClean_joinTrimmed _ _ _

end AdsManagement.Cafe24
