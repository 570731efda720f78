/-
  File:      Coupang/FilenameDates.lean
  Subject:   THE DATE IN A FILE NAME: `extractDateFromFilename` of domain/coupang-sales-xlsx.ts.

  Three patterns are searched one after the other. The last two hand what they find to
  `parseDateString`; the first, `20` and six more digits, writes it down as it stands.

  * `parseDateString_fixed` -- what `parseDateString` returns, it accepts and keeps;
  * `filename_date_valid_iff` -- the names whose date is one of the calendar;
  * `filename_thirteenth_month` -- a name with the date `2099-13-99`.
-/
import AdsManagement.Common.Patterns
import AdsManagement.Common.Dates

namespace AdsManagement.Coupang

open Common

/-! ## 1. The patterns -/

/-- `(20\d{2})`. -/
def year20 (l : List Char) : Option (List Char × List Char) :=
  (digitsOf 4 l).filter fun year => ['2', '0'].isPrefixOf year.1

/-- `(20\d{2})(\d{2})(\d{2})`. -/
def compactDate (l : List Char) : Option (List Char × List Char × List Char) := do
  let (year, rest) ← year20 l
  let (month, rest) ← digitsOf 2 rest
  let (day, _) ← digitsOf 2 rest
  some (year, month, day)

/-- `(\d{2})(\d{2})(\d{2})(?:[^\d]|$)`. -/
def shortDate (l : List Char) : Option (List Char × List Char × List Char) := do
  let (year, rest) ← digitsOf 2 l
  let (month, rest) ← digitsOf 2 rest
  let (day, rest) ← digitsOf 2 rest
  if rest.head?.all fun c => (digit? c).isNone then some (year, month, day) else none

/-- The short date after a character that is no digit. -/
def shortDateAfter (l : List Char) : Option (List Char × List Char × List Char) :=
  match l with
  | c :: rest => if (digit? c).isNone then shortDate rest else none
  | [] => none

/-- `(\d{1,2})`. -/
def digits12 (l : List Char) : Option (List Char × List Char) := (digitsOf 2 l).or (digitsOf 1 l)

/-- `[-_.]`. -/
def skipSeparator : List Char → Option (List Char)
  | c :: rest => if c = '-' ∨ c = '_' ∨ c = '.' then some rest else none
  | [] => none

/-- `(20\d{2})[-_.](\d{1,2})[-_.](\d{1,2})`. -/
def separatedDate (l : List Char) : Option (List Char × List Char × List Char) := do
  let (year, rest) ← year20 l
  let rest ← skipSeparator rest
  let (month, rest) ← digits12 rest
  let rest ← skipSeparator rest
  let (day, _) ← digits12 rest
  some (year, month, day)

def dashed (year month day : List Char) : String := String.ofList (year ++ '-' :: (month ++ '-' :: day))

/-- `extractDateFromFilename`. -/
def extractDateFromFilename (filename : String) : Option String :=
  match firstMatch compactDate filename.toList with
  | some (year, month, day) => some (dashed year month day)
  | none =>
    -- `(?:^|[^\d])`: at the start of the name nothing has to stand before
    match (shortDate filename.toList).or (firstMatch shortDateAfter filename.toList) with
    | some (year, month, day) => parseDateString (some (dashed ('2' :: '0' :: year) month day))
    | none =>
      match firstMatch separatedDate filename.toList with
      | some (year, month, day) => parseDateString (some (dashed year month day))
      | none => none

/-! ## 2. What is found -/

theorem year20_eq_some {l year rest : List Char} (h : year20 l = some (year, rest)) :
    ∃ y : Nat, 2000 ≤ y ∧ y < 10000 ∧ year = pad4 y := by
  obtain ⟨hyear, hprefix⟩ := Option.filter_eq_some_iff.mp h
  obtain ⟨-, hlen, hdigits⟩ := digitsOf_eq_some hyear
  obtain ⟨y, hy, rfl⟩ := pad4_of_digits hlen hdigits
  refine ⟨y, ?_, hy, rfl⟩
  have htwo : '2' = digitChar (y / 100 / 10) := by
    simp [pad4, pad2] at hprefix
    exact hprefix.1
  have hvalue : some 2 = some (y / 100 / 10 % 10) := by
    rw [← digit?_digitChar, ← htwo]
    rfl
  have := Option.some.inj hvalue
  omega

/-- The first pattern finds a year from 2000 on and four more digits. -/
theorem compactDate_eq_some {l year month day : List Char}
    (h : compactDate l = some (year, month, day)) :
    ∃ y m d : Nat, 2000 ≤ y ∧ y < 10000 ∧ m < 100 ∧ d < 100 ∧
      year = pad4 y ∧ month = pad2 m ∧ day = pad2 d := by
  obtain ⟨⟨year', rest⟩, hyear, h⟩ := Option.bind_eq_some_iff.mp h
  obtain ⟨⟨month', rest'⟩, hmonth, h⟩ := Option.bind_eq_some_iff.mp h
  obtain ⟨⟨day', rest''⟩, hday, h⟩ := Option.bind_eq_some_iff.mp h
  cases h
  obtain ⟨y, hlow, hy, rfl⟩ := year20_eq_some hyear
  obtain ⟨-, hlen, hdigits⟩ := digitsOf_eq_some hmonth
  obtain ⟨m, hm, rfl⟩ := pad2_of_digits hlen hdigits
  obtain ⟨-, hlen', hdigits'⟩ := digitsOf_eq_some hday
  obtain ⟨d, hd, rfl⟩ := pad2_of_digits hlen' hdigits'
  exact ⟨y, m, d, hlow, hy, hm, hd, rfl, rfl, rfl⟩

/-! ## 3. What is accepted -/

/-- **What `parseDateString` returns, it accepts and keeps.** -/
theorem parseDateString_fixed {value : Option String} {s : String}
    (h : parseDateString value = some s) : parseDateString (some s) = some s := by
  obtain ⟨⟨y, m, d⟩, hp, rfl⟩ := Option.map_eq_some_iff.mp h
  obtain ⟨text, -, hmatch, hday⟩ := parseDateParts_inv hp
  have hy := matchDate_year_lt hmatch
  obtain ⟨hm, hd⟩ := bounds_of_civilFromDays hday
  unfold parseDateString
  rw [parseDateParts_isoChars hy (by omega) (by omega) hday]
  rfl

/-- Digits written as a date and kept name a day of the calendar. -/
theorem day_of_parseDateString {y m d : Nat} (hy : y < 10000) (hm : m < 100) (hd : d < 100) {s : String}
    (h : parseDateString (some (String.ofList (isoChars y m d))) = some s) :
    ∃ date, civilFromDays date = ⟨y, m, d⟩ := by
  obtain ⟨⟨y', m', d'⟩, hp, -⟩ := Option.map_eq_some_iff.mp h
  obtain ⟨text, htext, hmatch, hday⟩ := parseDateParts_inv hp
  cases htext
  rw [String.toList_ofList, trimChars_isoChars, matchDate_isoChars hy hm hd] at hmatch
  cases hmatch
  exact ⟨_, hday⟩

/-- A day of the calendar is kept as it is written, from the year 100 on. -/
theorem parseDateString_of_day {y m d : Nat} (hlow : 100 ≤ y) (hy : y < 10000) (hm : m < 100)
    (hd : d < 100) {date : Int} (hdate : civilFromDays date = ⟨y, m, d⟩) :
    parseDateString (some (String.ofList (isoChars y m d))) =
      some (String.ofList (isoChars y m d)) := by
  have hyear : 100 ≤ (civilFromDays date).year := by
    rw [hdate]
    simp only
    omega
  have hutc := dateUTC_civilFromDays hyear
  rw [hdate] at hutc
  unfold parseDateString
  rw [parseDateParts_isoChars hy hm hd (by rw [hutc, hdate])]
  rfl

/-- **The date of a file name is one of the calendar exactly when the first eight digits `20……` of
    the name, if it has such digits, are**: what the other patterns find is checked. -/
theorem filename_date_valid_iff (filename : String) :
    (∀ s, extractDateFromFilename filename = some s → parseDateString (some s) = some s) ↔
      ∀ y m d : Nat, y < 10000 → m < 100 → d < 100 →
        firstMatch compactDate filename.toList = some (pad4 y, pad2 m, pad2 d) →
        ∃ date, civilFromDays date = ⟨y, m, d⟩ := by
  unfold extractDateFromFilename
  cases hfound : firstMatch compactDate filename.toList with
  | some parts =>
    obtain ⟨year, month, day⟩ := parts
    obtain ⟨before, rest, -, hmatch⟩ := firstMatch_eq_some hfound
    obtain ⟨y, m, d, hlow, hy, hm, hd, rfl, rfl, rfl⟩ := compactDate_eq_some hmatch
    constructor
    · intro h y' m' d' hy' hm' hd' heq
      have hkept := h _ rfl
      obtain ⟨hyear, hmonth, hday⟩ : pad4 y = pad4 y' ∧ pad2 m = pad2 m' ∧ pad2 d = pad2 d' := by
        simpa only [Option.some.injEq, Prod.mk.injEq] using heq
      rw [hyear, hmonth, hday] at hkept
      exact day_of_parseDateString hy' hm' hd' hkept
    · intro h s hs
      cases hs
      obtain ⟨date, hdate⟩ := h y m d hy hm hd rfl
      exact parseDateString_of_day (by omega) hy hm hd hdate
  | none =>
    simp only
    constructor
    · intro _ y m d _ _ _ heq
      cases heq
    · intro _ s hs
      split at hs
      · exact parseDateString_fixed hs
      · split at hs
        · exact parseDateString_fixed hs
        · cases hs

/-- The thirteenth month and its ninety-ninth day: no calendar has them, the name gives them. -/
theorem filename_thirteenth_month :
    extractDateFromFilename "coupang_20991399.xlsx" = some "2099-13-99" ∧
      parseDateString (some "2099-13-99") = none ∧
      ¬ ∀ filename s, extractDateFromFilename filename = some s → parseDateString (some s) = some s := by
  have hname : extractDateFromFilename "coupang_20991399.xlsx" = some "2099-13-99" := by decide +kernel
  have hrefused : parseDateString (some "2099-13-99") = none := by decide +kernel
  refine ⟨hname, hrefused, ?_⟩
  intro h
  have := h _ _ hname
  cases this

end AdsManagement.Coupang
