/-
  File:      Common/Dates.lean
  Subject:   CALENDAR DATES (domain/date-number.ts): `formatDateOnly`, `parseDateString`,
             `toDateOnly`, and `requiredDateFromBody` / `previousDate` of coupang.service.ts.

  Every `Date` the services keep is a UTC midnight, so a date is an `Int`: the number of days
  since 1970-01-01. A text is read and written through the proleptic Gregorian calendar
  (`civilFromDays`, `daysFromCivil`).

  * `daysFromCivil_civilFromDays` -- the calendar reading of a day denotes that day;
  * `toDateOnly_formatDateOnly` -- between the years 100 and 9999 a date is read back from its
    own text. Below 100 it is not: `Date.UTC` moves the years 0 to 99 to 1900 to 1999, so
    `parseDateString` refuses them;
  * `readsBack_of_toDateOnly` -- every date a request names lies in that span;
  * `formatDateOnly_lt` -- the texts stand in the order of the dates.
-/
import AdsManagement.Common.Text
import Mathlib.Tactic.IntervalCases

namespace AdsManagement.Common

open List

/-! ## 1. The calendar -/

/-- A calendar day: year, month 1 to 12, day of the month. -/
structure Civil where
  year : Int
  month : Int
  day : Int
deriving DecidableEq

/-- Days before the year `y`, the year counted from March so that the leap day comes last. -/
def daysBeforeYear (y : Int) : Int := 365 * y + y / 4 - y / 100 + y / 400

/-- The day number of a calendar day: `(153 * mp + 2) / 5` days of a year that starts in March
    precede its month `mp`; day 719468 of that count is 1970-01-01. -/
def daysFromCivil (year month day : Int) : Int :=
  if month ≤ 2 then daysBeforeYear (year - 1) + (153 * (month + 9) + 2) / 5 + day - 1 - 719468
  else daysBeforeYear year + (153 * (month - 3) + 2) / 5 + day - 1 - 719468

section

variable (d : Int)

/-- The year, counted from March, of a day: 400-year eras of 146097 days, then centuries,
    four-year groups and years. -/
def marchYear : Int :=
  let doe := (d + 719468) % 146097
  let century := min (doe / 36524) 3
  let quad := (doe - century * 36524) / 1461
  let year := min ((doe - century * 36524 - quad * 1461) / 365) 3
  (d + 719468) / 146097 * 400 + century * 100 + quad * 4 + year

def dayOfYear : Int := d + 719468 - daysBeforeYear (marchYear d)

def monthIndex : Int := (5 * dayOfYear d + 2) / 153

/-- `getUTCFullYear`, `getUTCMonth() + 1` and `getUTCDate` of a day. -/
def civilFromDays : Civil where
  year := if monthIndex d < 10 then marchYear d else marchYear d + 1
  month := if monthIndex d < 10 then monthIndex d + 3 else monthIndex d - 9
  day := dayOfYear d - (153 * monthIndex d + 2) / 5 + 1

/-- A year starts no later than each of its days, and the next one after them. -/
theorem dayOfYear_lt : 0 ≤ dayOfYear d ∧
    dayOfYear d < daysBeforeYear (marchYear d + 1) - daysBeforeYear (marchYear d) := by
  unfold dayOfYear marchYear
  simp only
  generalize he : (d + 719468) / 146097 = era
  generalize hd : (d + 719468) % 146097 = doe
  generalize hc : min (doe / 36524) 3 = century
  generalize hq : (doe - century * 36524) / 1461 = quad
  generalize hy : min ((doe - century * 36524 - quad * 1461) / 365) 3 = year
  have e4 : (era * 400 + century * 100 + quad * 4 + year) / 4 = era * 100 + century * 25 + quad := by
    omega
  have e100 : (era * 400 + century * 100 + quad * 4 + year) / 100 = era * 4 + century := by omega
  have e400 : (era * 400 + century * 100 + quad * 4 + year) / 400 = era := by omega
  have f4 : (era * 400 + century * 100 + quad * 4 + year + 1) / 4 =
      era * 100 + century * 25 + quad + (year + 1) / 4 := by omega
  have f100 : (era * 400 + century * 100 + quad * 4 + year + 1) / 100 =
      era * 4 + century + (quad * 4 + year + 1) / 100 := by omega
  have f400 : (era * 400 + century * 100 + quad * 4 + year + 1) / 400 =
      era + (century * 100 + quad * 4 + year + 1) / 400 := by omega
  unfold daysBeforeYear
  rw [e4, e100, e400, f4, f100, f400]
  refine ⟨by omega, ?_⟩
  -- the last year of a group, of a century and of an era is the one that may be longer
  by_cases hlast : year = 3
  · by_cases hquad : quad = 24
    · by_cases hcentury : century = 3 <;> omega
    · omega
  · have h4 : (year + 1) / 4 = 0 := by omega
    have h100 : (quad * 4 + year + 1) / 100 = 0 := by omega
    have h400 : (century * 100 + quad * 4 + year + 1) / 400 = 0 := by omega
    rw [h4, h100, h400]
    omega

/-- A year has at most 366 days. -/
theorem dayOfYear_bounds : 0 ≤ dayOfYear d ∧ dayOfYear d ≤ 365 := by
  have h := dayOfYear_lt d
  unfold daysBeforeYear at h
  omega

theorem monthIndex_bounds : 0 ≤ monthIndex d ∧ monthIndex d ≤ 11 := by
  have h := dayOfYear_bounds d
  unfold monthIndex
  omega

theorem civilFromDays_month : 1 ≤ (civilFromDays d).month ∧ (civilFromDays d).month ≤ 12 := by
  have h := monthIndex_bounds d
  show 1 ≤ (if monthIndex d < 10 then _ else _) ∧ (if monthIndex d < 10 then _ else _) ≤ (12 : Int)
  by_cases hm : monthIndex d < 10
  · simp only [if_pos hm]; omega
  · simp only [if_neg hm]; omega

theorem civilFromDays_day : 1 ≤ (civilFromDays d).day ∧ (civilFromDays d).day ≤ 31 := by
  show 1 ≤ dayOfYear d - (153 * monthIndex d + 2) / 5 + 1 ∧
    dayOfYear d - (153 * monthIndex d + 2) / 5 + 1 ≤ 31
  unfold monthIndex
  omega

end

theorem bounds_of_civilFromDays {d y m n : Int} (h : civilFromDays d = ⟨y, m, n⟩) :
    (1 ≤ m ∧ m ≤ 12) ∧ 1 ≤ n ∧ n ≤ 31 := by
  have hm := civilFromDays_month d
  have hn := civilFromDays_day d
  rw [h] at hm hn
  exact ⟨hm, hn⟩

/-- **The calendar reading of a day denotes that day.** -/
theorem daysFromCivil_civilFromDays (d : Int) :
    daysFromCivil (civilFromDays d).year (civilFromDays d).month (civilFromDays d).day = d := by
  have h := monthIndex_bounds d
  have hd : dayOfYear d = d + 719468 - daysBeforeYear (marchYear d) := rfl
  unfold daysFromCivil
  simp only [civilFromDays]
  by_cases hm : monthIndex d < 10
  · have hm' : ¬ monthIndex d + 3 ≤ 2 := by omega
    simp only [if_pos hm]
    omega
  · have hm' : monthIndex d - 9 ≤ 2 := by omega
    simp only [if_neg hm, Int.add_sub_cancel]
    omega

/-- `previousDate`: the day before. -/
def previousDate (d : Int) : Int := d - 1

/-- `Date.UTC(year, month, day)` with the month counted from 0: an overflowing month moves the
    year, and the years 0 to 99 stand for 1900 to 1999. -/
def dateUTC (year month day : Int) : Int :=
  let y := if 0 ≤ year ∧ year ≤ 99 then 1900 + year else year
  daysFromCivil (y + month / 12) (month % 12 + 1) 1 + day - 1

variable {d : Int}

theorem dateUTC_civilFromDays (h : 100 ≤ (civilFromDays d).year) :
    dateUTC (civilFromDays d).year ((civilFromDays d).month - 1) (civilFromDays d).day = d := by
  have hm := civilFromDays_month d
  have e := daysFromCivil_civilFromDays d
  have h1 : ((civilFromDays d).month - 1) / 12 = 0 := by omega
  have h2 : ((civilFromDays d).month - 1) % 12 + 1 = (civilFromDays d).month := by omega
  have h3 : ¬ (0 ≤ (civilFromDays d).year ∧ (civilFromDays d).year ≤ 99) := by omega
  unfold dateUTC
  simp only [if_neg h3, h1, h2, Int.add_zero]
  unfold daysFromCivil at e ⊢
  by_cases hc : (civilFromDays d).month ≤ 2
  · rw [if_pos hc] at e ⊢; omega
  · rw [if_neg hc] at e ⊢; omega

/-- The dates whose text `parseDateString` reads: years 100 to 9999. -/
def ReadsBack (d : Int) : Prop := 100 ≤ (civilFromDays d).year ∧ (civilFromDays d).year ≤ 9999

variable {e : Int}

/-- The year of a day does not fall as the days pass. -/
theorem civilFromDays_year_mono (h : d ≤ e) : (civilFromDays d).year ≤ (civilFromDays e).year := by
  have hd := daysFromCivil_civilFromDays d
  have he := daysFromCivil_civilFromDays e
  have md := civilFromDays_month d
  have me := civilFromDays_month e
  have dd := civilFromDays_day d
  have de := civilFromDays_day e
  unfold daysFromCivil daysBeforeYear at hd he
  split at hd <;> split at he <;> omega

theorem ReadsBack.between {a b : Int} (ha : ReadsBack a) (hb : ReadsBack b) (h1 : a ≤ d) (h2 : d ≤ b) :
    ReadsBack d :=
  ⟨ha.1.trans (civilFromDays_year_mono h1), (civilFromDays_year_mono h2).trans hb.2⟩

/-! ## 2. Digits -/

def digitChar (n : Nat) : Char := Char.ofNat (48 + n % 10)

def digit? (c : Char) : Option Nat :=
  if 48 ≤ c.toNat ∧ c.toNat ≤ 57 then some (c.toNat - 48) else none

theorem digit?_digitChar (n : Nat) : digit? (digitChar n) = some (n % 10) := by
  unfold digitChar
  have h : n % 10 < 10 := Nat.mod_lt _ (by decide)
  interval_cases n % 10 <;> rfl

theorem isJsSpace_digitChar (n : Nat) : isJsSpace (digitChar n) = false := by
  unfold digitChar
  have h : n % 10 < 10 := Nat.mod_lt _ (by decide)
  interval_cases n % 10 <;> rfl

/-- `padStart(2, "0")` and `padStart(4, "0")` on numbers that fit. -/
def pad2 (n : Nat) : List Char := [digitChar (n / 10), digitChar n]

def pad4 (n : Nat) : List Char := pad2 (n / 100) ++ pad2 n

/-- `(\d{4})`: four digits and what follows them. -/
def number4 : List Char → Option (Nat × List Char)
  | a :: b :: c :: d :: rest =>
    match digit? a, digit? b, digit? c, digit? d with
    | some a, some b, some c, some d => some (1000 * a + 100 * b + 10 * c + d, rest)
    | _, _, _, _ => none
  | _ => none

/-- `(\d{2})`. -/
def number2 : List Char → Option (Nat × List Char)
  | a :: b :: rest =>
    match digit? a, digit? b with
    | some a, some b => some (10 * a + b, rest)
    | _, _ => none
  | _ => none

/-- `(\d{1,2})`: two digits where there are two, else one. A separator follows in every
    pattern, so the shorter reading of two digits never matches. -/
def number12 : List Char → Option (Nat × List Char)
  | [] => none
  | a :: rest =>
    match number2 (a :: rest) with
    | some r => some r
    | none => (digit? a).map fun x => (x, rest)

/-- `n` characters of `\d`, and what follows them. -/
def digitsOf (n : Nat) (l : List Char) : Option (List Char × List Char) :=
  if (l.take n).length = n ∧ (l.take n).all (fun c => (digit? c).isSome) = true then
    some (l.take n, l.drop n)
  else none

variable {n : Nat} {l ds : List Char}

theorem digitsOf_eq_some {rest : List Char} (h : digitsOf n l = some (ds, rest)) :
    l = ds ++ rest ∧ ds.length = n ∧ ∀ c ∈ ds, (digit? c).isSome = true := by
  unfold digitsOf at h
  split at h
  · rename_i hd
    cases h
    exact ⟨(take_append_drop n l).symm, hd.1, all_eq_true.mp hd.2⟩
  · cases h

/-- A digit is the digit of its value. -/
theorem digitChar_of_digit? {c : Char} (h : digit? c = some n) : n < 10 ∧ c = digitChar n := by
  unfold digit? at h
  split at h
  · rename_i hc
    cases h
    refine ⟨by omega, ?_⟩
    unfold digitChar
    rw [show 48 + (c.toNat - 48) % 10 = c.toNat by omega, Char.ofNat_toNat]
  · cases h

theorem pad2_of_digits (hlen : ds.length = 2) (hd : ∀ c ∈ ds, (digit? c).isSome = true) :
    ∃ n, n < 100 ∧ ds = pad2 n := by
  obtain ⟨a, b, rfl⟩ := length_eq_two.mp hlen
  obtain ⟨x, hx⟩ := Option.isSome_iff_exists.mp (hd a (by simp))
  obtain ⟨y, hy⟩ := Option.isSome_iff_exists.mp (hd b (by simp))
  obtain ⟨hx10, rfl⟩ := digitChar_of_digit? hx
  obtain ⟨hy10, rfl⟩ := digitChar_of_digit? hy
  refine ⟨10 * x + y, by omega, ?_⟩
  unfold pad2 digitChar
  rw [show (10 * x + y) / 10 = x by omega, show (10 * x + y) % 10 = y % 10 by omega]

theorem pad4_of_digits (hlen : ds.length = 4) (hd : ∀ c ∈ ds, (digit? c).isSome = true) :
    ∃ n, n < 10000 ∧ ds = pad4 n := by
  obtain ⟨m, hm, hfront⟩ := pad2_of_digits (show (ds.take 2).length = 2 by simp [hlen])
    fun c hc => hd c (mem_of_mem_take hc)
  obtain ⟨n, hn, hback⟩ := pad2_of_digits (show (ds.drop 2).length = 2 by simp [hlen])
    fun c hc => hd c (mem_of_mem_drop hc)
  refine ⟨100 * m + n, by omega, ?_⟩
  rw [← take_append_drop 2 ds, hfront, hback]
  unfold pad4 pad2 digitChar
  rw [show (100 * m + n) / 100 = m by omega, show (100 * m + n) / 10 % 10 = n / 10 % 10 by omega,
    show (100 * m + n) % 10 = n % 10 by omega]

theorem number2_pad2 (h : n < 100) (rest : List Char) :
    number2 (pad2 n ++ rest) = some (n, rest) := by
  show (match digit? (digitChar (n / 10)), digit? (digitChar n) with
    | some a, some b => some (10 * a + b, rest)
    | _, _ => none) = _
  rw [digit?_digitChar, digit?_digitChar]
  show some (10 * (n / 10 % 10) + n % 10, rest) = some (n, rest)
  have e : 10 * (n / 10 % 10) + n % 10 = n := by omega
  rw [e]

theorem number12_pad2 (h : n < 100) (rest : List Char) :
    number12 (pad2 n ++ rest) = some (n, rest) := by
  have e := number2_pad2 h rest
  show (match number2 (pad2 n ++ rest) with
    | some r => some r
    | none => _) = _
  rw [e]

theorem number2_pad2_nil (h : n < 100) : number2 (pad2 n) = some (n, []) := by
  have := number2_pad2 h []
  rwa [append_nil] at this

theorem number4_pad4 (h : n < 10000) (rest : List Char) :
    number4 (pad4 n ++ rest) = some (n, rest) := by
  show (match digit? (digitChar (n / 100 / 10)), digit? (digitChar (n / 100)),
      digit? (digitChar (n / 10)), digit? (digitChar n) with
    | some a, some b, some c, some d => some (1000 * a + 100 * b + 10 * c + d, rest)
    | _, _, _, _ => none) = _
  rw [digit?_digitChar, digit?_digitChar, digit?_digitChar, digit?_digitChar]
  show some (1000 * (n / 100 / 10 % 10) + 100 * (n / 100 % 10) + 10 * (n / 10 % 10) + n % 10, rest) =
    some (n, rest)
  have e : 1000 * (n / 100 / 10 % 10) + 100 * (n / 100 % 10) + 10 * (n / 10 % 10) + n % 10 = n := by
    omega
  rw [e]

/-! ## 3. Texts -/

def isoChars (year month day : Nat) : List Char := pad4 year ++ '-' :: (pad2 month ++ '-' :: pad2 day)

/-- `date.toISOString().slice(0, 10)`. A year outside 0 to 9999 is written with a sign and six
    digits, so the cut falls after the month. -/
def formatDateOnly (d : Int) : String :=
  let c := civilFromDays d
  if 0 ≤ c.year ∧ c.year ≤ 9999 then
    String.ofList (isoChars c.year.toNat c.month.toNat c.day.toNat)
  else
    let y := c.year.natAbs
    String.ofList ((if c.year < 0 then '-' else '+') ::
      (pad2 (y / 10000) ++ pad4 y ++ '-' :: pad2 c.month.toNat))

/-- `^(\d{4})(\d{2})(\d{2})$`. -/
def matchCompact (input : List Char) : Option (Nat × Nat × Nat) := do
  let (year, rest) ← number4 input
  let (month, rest) ← number2 rest
  let (day, rest) ← number2 rest
  if rest = [] then some (year, month, day) else none

def skipChar (c : Char) : List Char → Option (List Char)
  | a :: rest => if a = c then some rest else none
  | [] => none

/-- `^(\d{4})SEP(\d{1,2})SEP(\d{1,2})$`; the dotted spelling allows blanks after a dot and one
    dot at the end. -/
def matchSeparated (sep : Char) (dotted : Bool) (input : List Char) : Option (Nat × Nat × Nat) := do
  let blanks := fun l : List Char => if dotted then l.dropWhile isJsSpace else l
  let (year, rest) ← number4 input
  let rest ← skipChar sep rest
  let (month, rest) ← number12 (blanks rest)
  let rest ← skipChar sep rest
  let (day, rest) ← number12 (blanks rest)
  if rest = [] ∨ (dotted = true ∧ rest = ['.']) then some (year, month, day) else none

def matchDate (input : List Char) : Option (Nat × Nat × Nat) :=
  match matchCompact input with
  | some r => some r
  | none =>
    match matchSeparated '-' false input with
    | some r => some r
    | none =>
      match matchSeparated '/' false input with
      | some r => some r
      | none => matchSeparated '.' true input

/-- The year, month and day a text names: `parseDateString` before it writes them again. -/
def parseDateParts (value : Option String) : Option (Nat × Nat × Nat) := do
  let text ← value
  if text = "" then none else
    let (year, month, day) ← matchDate (trimChars text.toList)
    let date := dateUTC year (month - 1) day
    if civilFromDays date = ⟨year, month, day⟩ then some (year, month, day) else none

def parseDateString (value : Option String) : Option String :=
  (parseDateParts value).map fun (year, month, day) => String.ofList (isoChars year month day)

/-- `new Date(...T00:00:00.000Z)` of the normalized text is the day it names. -/
def toDateOnly (value : Option String) : Option Int :=
  (parseDateParts value).map fun (year, month, day) => daysFromCivil year month day

/-! ## 4. Writing and reading back -/

variable {y m : Nat}

theorem matchDate_isoChars {d : Nat} (hy : y < 10000) (hm : m < 100) (hd : d < 100) :
    matchDate (isoChars y m d) = some (y, m, d) := by
  have h4 : number4 (isoChars y m d) = some (y, '-' :: (pad2 m ++ '-' :: pad2 d)) :=
    number4_pad4 hy _
  have h2 : number12 (pad2 m ++ '-' :: pad2 d) = some (m, '-' :: pad2 d) := number12_pad2 hm _
  have h1 : number12 (pad2 d) = some (d, []) := by
    have := number12_pad2 hd []
    rwa [append_nil] at this
  have hc : number2 ('-' :: (pad2 m ++ '-' :: pad2 d)) = none := by
    show (match digit? '-', digit? (digitChar (m / 10)) with
      | some a, some b => some (10 * a + b, digitChar m :: '-' :: pad2 d)
      | _, _ => none) = none
    have : digit? '-' = none := rfl
    rw [this]
  have e1 : matchCompact (isoChars y m d) = none := by
    simp only [matchCompact, h4, hc, Option.bind_eq_bind, Option.bind_some, Option.bind_none]
  have e2 : matchSeparated '-' false (isoChars y m d) = some (y, m, d) := by
    simp [matchSeparated, h4, skipChar, h2, h1]
  unfold matchDate
  rw [e1, e2]

theorem trimChars_isoChars (y m d : Nat) : trimChars (isoChars y m d) = isoChars y m d := by
  refine trimChars_of_ends ?_ ?_
  · intro c hc
    have : c = digitChar (y / 100 / 10) := by
      simpa [isoChars, pad4, pad2] using hc.symm
    rw [this]
    exact isJsSpace_digitChar _
  · intro c hc
    have : c = digitChar d := by
      simpa [isoChars, pad2] using hc.symm
    rw [this]
    exact isJsSpace_digitChar _

/-- The text of a date that reads back. -/
theorem formatDateOnly_eq (h : ReadsBack d) : ∃ y m n : Nat,
    civilFromDays d = ⟨y, m, n⟩ ∧ y < 10000 ∧ m < 100 ∧ n < 100 ∧
      formatDateOnly d = String.ofList (isoChars y m n) := by
  have hm := civilFromDays_month d
  have hd := civilFromDays_day d
  have h1 := h.1
  have h2 := h.2
  obtain ⟨y, ey⟩ := Int.eq_ofNat_of_zero_le (a := (civilFromDays d).year) (by omega)
  obtain ⟨m, em⟩ := Int.eq_ofNat_of_zero_le (a := (civilFromDays d).month) (by omega)
  obtain ⟨n, en⟩ := Int.eq_ofNat_of_zero_le (a := (civilFromDays d).day) (by omega)
  refine ⟨y, m, n, by rw [← ey, ← em, ← en], by omega, by omega, by omega, ?_⟩
  unfold formatDateOnly
  simp only [ey, em, en, Int.toNat_natCast]
  rw [if_pos (by omega)]

/-- **A date is read back from its own text**: `toDateOnly` undoes `formatDateOnly` on every
    date from the year 100 to the year 9999. -/
theorem toDateOnly_formatDateOnly (h : ReadsBack d) :
    toDateOnly (some (formatDateOnly d)) = some d := by
  obtain ⟨y, m, n, ec, hy, hm, hn, ef⟩ := formatDateOnly_eq h
  have eu : dateUTC y (m - 1) n = d := by
    have := dateUTC_civilFromDays h.1
    rwa [ec] at this
  have ne : String.ofList (isoChars y m n) ≠ "" := by
    intro e
    have := congrArg String.toList e
    simp [isoChars] at this
  have ep : parseDateParts (some (formatDateOnly d)) = some (y, m, n) := by
    rw [ef]
    unfold parseDateParts
    simp only [Option.bind_eq_bind, Option.bind_some]
    rw [if_neg ne, String.toList_ofList, trimChars_isoChars, matchDate_isoChars hy hm hn]
    simp only [Option.bind_some, eu, ec, if_true]
  unfold toDateOnly
  rw [ep]
  have e := daysFromCivil_civilFromDays d
  rw [ec] at e
  simp only [Option.map_some, e]

theorem formatDateOnly_inj (hd : ReadsBack d) (he : ReadsBack e) (h : formatDateOnly d = formatDateOnly e) :
    d = e := by
  have h1 := toDateOnly_formatDateOnly hd
  rw [h, toDateOnly_formatDateOnly he] at h1
  exact (Option.some.inj h1).symm

theorem parseDateParts_inv {value : Option String} {d : Nat} (h : parseDateParts value = some (y, m, d)) :
    ∃ text, value = some text ∧ matchDate (trimChars text.toList) = some (y, m, d) ∧
      civilFromDays (dateUTC y (m - 1) d) = ⟨y, m, d⟩ := by
  cases value with
  | none => simp [parseDateParts] at h
  | some text =>
    refine ⟨text, rfl, ?_⟩
    unfold parseDateParts at h
    simp only [Option.bind_eq_bind, Option.bind_some] at h
    split at h
    · cases h
    · cases hm : matchDate (trimChars text.toList) with
      | none => rw [hm] at h; cases h
      | some r =>
        rw [hm] at h
        simp only [Option.bind_some] at h
        split at h
        · next hc => cases h; exact ⟨rfl, hc⟩
        · cases h

/-- The text of a day is read as that day. -/
theorem parseDateParts_isoChars {d : Nat} (hy : y < 10000) (hm : m < 100) (hd : d < 100)
    (hday : civilFromDays (dateUTC y (m - 1) d) = ⟨y, m, d⟩) :
    parseDateParts (some (String.ofList (isoChars y m d))) = some (y, m, d) := by
  have hne : String.ofList (isoChars y m d) ≠ "" := by
    intro e
    have hlist := congrArg String.toList e
    simp [isoChars] at hlist
  unfold parseDateParts
  simp only [Option.bind_eq_bind, Option.bind_some]
  rw [if_neg hne, String.toList_ofList, trimChars_isoChars, matchDate_isoChars hy hm hd]
  simp only [Option.bind_some, hday, if_true]

theorem digit?_le {c : Char} (h : digit? c = some n) : n ≤ 9 := by
  unfold digit? at h
  split at h
  · next hc => cases h; omega
  · cases h

theorem number4_lt {rest : List Char} (h : number4 l = some (n, rest)) : n < 10000 := by
  unfold number4 at h
  split at h
  · split at h
    · rename_i ha hb hc hd
      have := digit?_le ha
      have := digit?_le hb
      have := digit?_le hc
      have := digit?_le hd
      cases h
      omega
    · cases h
  · cases h

theorem matchCompact_year_lt {d : Nat} (h : matchCompact l = some (y, m, d)) : y < 10000 := by
  simp only [matchCompact, Option.bind_eq_bind, Option.bind_eq_some_iff] at h
  obtain ⟨⟨y', r⟩, h4, ⟨m', r'⟩, -, ⟨d', r''⟩, -, h⟩ := h
  split at h
  · cases h; exact number4_lt h4
  · cases h

theorem matchSeparated_year_lt {sep : Char} {dotted : Bool} {d : Nat}
    (h : matchSeparated sep dotted l = some (y, m, d)) : y < 10000 := by
  simp only [matchSeparated, Option.bind_eq_bind, Option.bind_eq_some_iff] at h
  obtain ⟨⟨y', r⟩, h4, -, -, ⟨m', r'⟩, -, -, -, ⟨d', r''⟩, -, h⟩ := h
  split at h
  · cases h; exact number4_lt h4
  · cases h

theorem matchDate_year_lt {d : Nat} (h : matchDate l = some (y, m, d)) : y < 10000 := by
  unfold matchDate at h
  split at h
  · next hc => cases h; exact matchCompact_year_lt hc
  · split at h
    · next hc => cases h; exact matchSeparated_year_lt hc
    · split at h
      · next hc => cases h; exact matchSeparated_year_lt hc
      · exact matchSeparated_year_lt h

/-- **Every date the services read can be written and read again**: the two-digit years that
    `Date.UTC` moves to the twentieth century are refused by the comparison of the parts. -/
theorem readsBack_of_toDateOnly {value : Option String} (h : toDateOnly value = some d) : ReadsBack d := by
  obtain ⟨⟨y, m, n⟩, hp, rfl⟩ := Option.map_eq_some_iff.mp h
  obtain ⟨text, -, hmatch, hc⟩ := parseDateParts_inv hp
  have hlt := matchDate_year_lt hmatch
  have hm := civilFromDays_month (dateUTC y (m - 1) n)
  have hd := civilFromDays_day (dateUTC y (m - 1) n)
  have e := daysFromCivil_civilFromDays (dateUTC y (m - 1) n)
  rw [hc] at hm hd e
  simp only at hm hd e
  show 100 ≤ (civilFromDays (daysFromCivil y m n)).year ∧
    (civilFromDays (daysFromCivil y m n)).year ≤ 9999
  rw [e, hc]
  refine ⟨?_, by simp only; omega⟩
  by_contra hy
  have h1 : ((m : Int) - 1) / 12 = 0 := by omega
  have h2 : ((m : Int) - 1) % 12 + 1 = m := by omega
  have h3 : (0 : Int) ≤ y ∧ (y : Int) ≤ 99 := by simp only at hy; omega
  unfold dateUTC at e
  simp only [h2] at e
  unfold daysFromCivil daysBeforeYear at e
  split at e <;> omega

/-- `/^\d{4}-\d{2}-\d{2}$/.test(text)`. -/
def isIsoShape (text : String) : Bool :=
  match number4 text.toList with
  | some (_, '-' :: rest) =>
    match number2 rest with
    | some (_, '-' :: rest) => (number2 rest).any fun r => r.2.isEmpty
    | _ => false
  | _ => false

theorem isIsoShape_formatDateOnly (h : ReadsBack d) : isIsoShape (formatDateOnly d) = true := by
  obtain ⟨y, m, n, -, hy, hm, hn, ef⟩ := formatDateOnly_eq h
  have h4 : number4 (isoChars y m n) = some (y, '-' :: (pad2 m ++ '-' :: pad2 n)) :=
    number4_pad4 hy _
  unfold isIsoShape
  rw [ef, String.toList_ofList, h4]
  simp only [number2_pad2 hm, number2_pad2_nil hn]
  rfl

theorem trim_formatDateOnly (h : ReadsBack d) : trim (formatDateOnly d) = formatDateOnly d := by
  obtain ⟨y, m, n, -, -, -, -, ef⟩ := formatDateOnly_eq h
  unfold trim
  rw [ef, String.toList_ofList, trimChars_isoChars]

/-! ## 5. The order of the texts -/

theorem digitChar_lt_iff (a b : Nat) : digitChar a < digitChar b ↔ a % 10 < b % 10 := by
  unfold digitChar
  have ha : a % 10 < 10 := Nat.mod_lt _ (by decide)
  have hb : b % 10 < 10 := Nat.mod_lt _ (by decide)
  interval_cases a % 10 <;> interval_cases b % 10 <;> decide

theorem digitChar_eq_iff (a b : Nat) : digitChar a = digitChar b ↔ a % 10 = b % 10 := by
  refine ⟨fun h => ?_, fun h => by unfold digitChar; rw [h]⟩
  have e := congrArg digit? h
  rw [digit?_digitChar, digit?_digitChar] at e
  exact Option.some.inj e

/-- Texts of dates stand in the order of their parts. -/
theorem isoChars_lt {y' m' n' : Nat} (hy : y < 10000) (hm : m < 100) (hn : n < 100) (hy' : y' < 10000)
    (hm' : m' < 100) (hn' : n' < 100) (h : y < y' ∨ y = y' ∧ (m < m' ∨ m = m' ∧ n < n')) :
    isoChars y m n < isoChars y' m' n' := by
  simp only [isoChars, pad4, pad2, cons_append, nil_append, cons_lt_cons_iff,
    digitChar_lt_iff, digitChar_eq_iff, true_and]
  omega

/-- January and February end the year that starts in March. -/
theorem civilFromDays_winter (h : (civilFromDays d).month ≤ 2) :
    (153 * ((civilFromDays d).month + 9) + 2) / 5 + (civilFromDays d).day ≤ 366 := by
  have hb := dayOfYear_bounds d
  have hm := monthIndex_bounds d
  have hday : (civilFromDays d).day = dayOfYear d - (153 * monthIndex d + 2) / 5 + 1 := rfl
  have hmonth : (civilFromDays d).month =
      if monthIndex d < 10 then monthIndex d + 3 else monthIndex d - 9 := rfl
  split at hmonth <;> omega

/-- The calendar reading follows the days. -/
theorem civilFromDays_lt (h : d < e) :
    (civilFromDays d).year < (civilFromDays e).year ∨
    (civilFromDays d).year = (civilFromDays e).year ∧
      ((civilFromDays d).month < (civilFromDays e).month ∨
        (civilFromDays d).month = (civilFromDays e).month ∧
          (civilFromDays d).day < (civilFromDays e).day) := by
  have hd := daysFromCivil_civilFromDays d
  have he := daysFromCivil_civilFromDays e
  have hy := civilFromDays_year_mono h.le
  have dd := civilFromDays_day d
  have de := civilFromDays_day e
  have hw := civilFromDays_winter (d := e)
  by_contra hn
  have hyear : (civilFromDays d).year = (civilFromDays e).year := by omega
  unfold daysFromCivil daysBeforeYear at hd he
  split at hd <;> split at he <;> omega

/-- **Texts of dates stand in the order of the dates**, while the year has four digits. -/
theorem formatDateOnly_lt (h : d < e) (hd : 0 ≤ (civilFromDays d).year) (he : (civilFromDays e).year ≤ 9999) :
    formatDateOnly d < formatDateOnly e := by
  have hlt := civilFromDays_lt h
  have md := civilFromDays_month d
  have me := civilFromDays_month e
  have dd := civilFromDays_day d
  have de := civilFromDays_day e
  unfold formatDateOnly
  rw [if_pos (by omega), if_pos (by omega), String.lt_iff, String.toList_ofList, String.toList_ofList]
  exact isoChars_lt (by omega) (by omega) (by omega) (by omega) (by omega) (by omega) (by omega)

theorem formatDateOnly_ne_empty (h : ReadsBack d) : formatDateOnly d ≠ "" := by
  intro e
  have hshape := isIsoShape_formatDateOnly h
  rw [e] at hshape
  exact absurd hshape (by decide)

theorem formatDateOnly_lt_iff (hd : ReadsBack d) (he : ReadsBack e) :
    formatDateOnly d < formatDateOnly e ↔ d < e := by
  have hd0 := hd.1
  have he0 := he.1
  constructor
  · intro h
    rcases lt_trichotomy d e with hlt | heq | hgt
    · exact hlt
    · rw [heq] at h
      exact absurd h (String.lt_irrefl _)
    · exact absurd (formatDateOnly_lt hgt (by omega) hd.2) (String.lt_asymm h)
  · intro h
    exact formatDateOnly_lt h (by omega) he.2

theorem length_formatDateOnly (h : ReadsBack d) : (formatDateOnly d).toList.length = 10 := by
  obtain ⟨y, m, n, -, -, -, -, ef⟩ := formatDateOnly_eq h
  rw [ef, String.toList_ofList]
  rfl

/-- A day in front of a text is read back, and so is the text. -/
theorem formatDateOnly_append_inj {l l' : List Char} (hd : ReadsBack d) (he : ReadsBack e)
    (h : (formatDateOnly d).toList ++ l = (formatDateOnly e).toList ++ l') : d = e ∧ l = l' := by
  obtain ⟨h1, h2⟩ := List.append_inj h ((length_formatDateOnly hd).trans (length_formatDateOnly he).symm)
  exact ⟨formatDateOnly_inj hd he (String.toList_inj.mp h1), h2⟩

end AdsManagement.Common
