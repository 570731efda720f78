/-
  File:      Common/DateStrings.lean
  Subject:   THE DATES `parseDateString` ACCEPTS (domain/date-number.ts), against the months and
             leap years of the Gregorian calendar.

  * `ExistingDay` -- the days of the calendar, month by month;
  * `civilFromDays_daysFromCivil`, `existingDay_civilFromDays` -- they are the readings of the
    day numbers;
  * `parseDateParts_iff` -- the comparison of the parts accepts the existing days from the year
    100 on;
  * `parseDateString_exact_iff` -- texts that name no earlier year are read as they should.
-/
import AdsManagement.Common.Dates

namespace AdsManagement.Common

open List

/-! ## 1. Months and leap years -/

def IsLeap (year : Int) : Prop := year % 4 = 0 ∧ (year % 100 ≠ 0 ∨ year % 400 = 0)

instance (year : Int) : Decidable (IsLeap year) :=
  inferInstanceAs (Decidable (year % 4 = 0 ∧ (year % 100 ≠ 0 ∨ year % 400 = 0)))

def monthLength (year month : Int) : Int :=
  if month = 2 then if IsLeap year then 29 else 28
  else if month = 4 ∨ month = 6 ∨ month = 9 ∨ month = 11 then 30
  else 31

/-- A day of the proleptic Gregorian calendar. -/
def ExistingDay (c : Civil) : Prop :=
  1 ≤ c.month ∧ c.month ≤ 12 ∧ 1 ≤ c.day ∧ c.day ≤ monthLength c.year c.month

instance (c : Civil) : Decidable (ExistingDay c) :=
  inferInstanceAs (Decidable (1 ≤ c.month ∧ c.month ≤ 12 ∧ 1 ≤ c.day ∧ c.day ≤ monthLength c.year c.month))

/-- A year that starts in March is a day longer when the year after it is a leap year. -/
theorem daysBeforeYear_succ (y : Int) :
    daysBeforeYear (y + 1) = daysBeforeYear y + if IsLeap (y + 1) then 366 else 365 := by
  unfold daysBeforeYear
  by_cases h : IsLeap (y + 1)
  · rw [if_pos h]
    unfold IsLeap at h
    omega
  · rw [if_neg h]
    unfold IsLeap at h
    omega

/-- From March on the lengths of the months do not depend on the year. -/
theorem monthLength_eq (year : Int) {month : Int} (h3 : 3 ≤ month) (h12 : month ≤ 12) :
    monthLength year month = (153 * (month - 2) + 2) / 5 - (153 * (month - 3) + 2) / 5 := by
  unfold monthLength
  interval_cases month <;> rfl

theorem daysBeforeYear_mono {y y' : Int} (h : y ≤ y') : daysBeforeYear y ≤ daysBeforeYear y' := by
  unfold daysBeforeYear
  omega

variable {d : Int} {c : Civil}

/-- The parts of an existing day, with the year counted from March: its month index and its day
    of the year. -/
theorem ExistingDay.march (h : ExistingDay c) : ∃ year index day : Int, 0 ≤ index ∧ index ≤ 11 ∧
    day = (153 * index + 2) / 5 + c.day - 1 ∧ (5 * day + 2) / 153 = index ∧ 0 ≤ day ∧
    day < daysBeforeYear (year + 1) - daysBeforeYear year ∧
    daysFromCivil c.year c.month c.day + 719468 = daysBeforeYear year + day ∧
    c.year = (if index < 10 then year else year + 1) ∧
    c.month = if index < 10 then index + 3 else index - 9 := by
  obtain ⟨y, m, n⟩ := c
  obtain ⟨h1, h12, hn, hlen⟩ := h
  simp only at h1 h12 hn hlen ⊢
  unfold daysFromCivil
  by_cases hm : m ≤ 2
  · have hyear := daysBeforeYear_succ (y - 1)
    rw [Int.sub_add_cancel] at hyear
    refine ⟨y - 1, m + 9, (153 * (m + 9) + 2) / 5 + n - 1, by omega, by omega, rfl, ?_⟩
    rw [if_pos hm, Int.sub_add_cancel, hyear]
    unfold monthLength at hlen
    by_cases hl : IsLeap y
    · simp only [if_pos hl] at hlen ⊢
      interval_cases m <;> omega
    · simp only [if_neg hl] at hlen ⊢
      interval_cases m <;> omega
  · have hyear := daysBeforeYear_succ y
    have hlong : 365 ≤ if IsLeap (y + 1) then 366 else (365 : Int) := by split <;> omega
    rw [monthLength_eq y (by omega) h12] at hlen
    refine ⟨y, m - 3, (153 * (m - 3) + 2) / 5 + n - 1, by omega, by omega, rfl, ?_⟩
    rw [if_neg hm]
    omega

/-- **The number of an existing day is read as that day.** -/
theorem civilFromDays_daysFromCivil (h : ExistingDay c) :
    civilFromDays (daysFromCivil c.year c.month c.day) = c := by
  obtain ⟨year, index, day, h0, h11, hday, hindex, hday0, hdaylt, hnumber, hy, hm⟩ := h.march
  generalize daysFromCivil c.year c.month c.day = d at hnumber
  obtain ⟨hlow, hhigh⟩ := dayOfYear_lt d
  have hsum : dayOfYear d = d + 719468 - daysBeforeYear (marchYear d) := rfl
  have hyear : marchYear d = year := by
    rcases lt_trichotomy (marchYear d) year with hlt | heq | hgt
    · have := daysBeforeYear_mono (Int.add_one_le_of_lt hlt)
      omega
    · exact heq
    · have := daysBeforeYear_mono (Int.add_one_le_of_lt hgt)
      omega
  have hdoy : dayOfYear d = day := by
    rw [hsum, hyear]
    omega
  have hidx : monthIndex d = index := by
    unfold monthIndex
    rw [hdoy, hindex]
  unfold civilFromDays
  rw [hidx, hyear, hdoy, ← hy, ← hm]
  obtain ⟨y, m, n⟩ := c
  simp only [Civil.mk.injEq, true_and]
  simp only at hday
  omega

/-- **Every reading of a day number exists.** -/
theorem existingDay_civilFromDays (d : Int) : ExistingDay (civilFromDays d) := by
  have hm := civilFromDays_month d
  refine ⟨hm.1, hm.2, (civilFromDays_day d).1, ?_⟩
  obtain ⟨h0, hlt⟩ := dayOfYear_lt d
  rw [daysBeforeYear_succ] at hlt
  have hb := monthIndex_bounds d
  have hindex : monthIndex d = (5 * dayOfYear d + 2) / 153 := rfl
  unfold civilFromDays
  simp only
  by_cases h10 : monthIndex d < 10
  · rw [if_pos h10, if_pos h10, monthLength_eq _ (by omega) (by omega), Int.add_sub_cancel,
      show monthIndex d + 3 - 2 = monthIndex d + 1 by omega]
    omega
  · rw [if_neg h10, if_neg h10]
    unfold monthLength
    by_cases hl : IsLeap (marchYear d + 1)
    · rw [if_pos hl] at hlt ⊢
      split <;> omega
    · rw [if_neg hl] at hlt ⊢
      split <;> omega

/-! ## 2. What the comparison of the parts accepts -/

variable {y m n : Nat} {value : Option String}

/-- **The parts read back exactly when the day exists and `Date.UTC` leaves its year alone.** -/
theorem civilFromDays_dateUTC_iff : civilFromDays (dateUTC y (m - 1) n) = ⟨y, m, n⟩ ↔
    100 ≤ y ∧ ExistingDay ⟨y, m, n⟩ := by
  constructor
  · intro h
    have hday := existingDay_civilFromDays (dateUTC y (m - 1) n)
    have hnumber := daysFromCivil_civilFromDays (dateUTC y (m - 1) n)
    rw [h] at hday hnumber
    refine ⟨?_, hday⟩
    obtain ⟨h1, h12, -, -⟩ := hday
    simp only at h1 h12 hnumber
    by_contra hy
    have hmonth : ((m : Int) - 1) % 12 + 1 = m := by omega
    have hshift : ((m : Int) - 1) / 12 = 0 := by omega
    have hmoved : (0 : Int) ≤ y ∧ (y : Int) ≤ 99 := by omega
    unfold dateUTC at hnumber
    simp only [if_pos hmoved, hmonth, hshift] at hnumber
    unfold daysFromCivil daysBeforeYear at hnumber
    split at hnumber <;> omega
  · intro ⟨hy, hday⟩
    have hread := civilFromDays_daysFromCivil hday
    have hnumber : dateUTC y (m - 1) n = daysFromCivil y m n := by
      have h := dateUTC_civilFromDays (d := daysFromCivil y m n) (by simp only [hread]; omega)
      rwa [hread] at h
    rw [hnumber, hread]

/-- The trimmed text has one of the four spellings and names an existing day. -/
def NamesDay (value : Option String) (y m n : Nat) : Prop :=
  ∃ text, value = some text ∧ matchDate (trimChars text.toList) = some (y, m, n) ∧ ExistingDay ⟨y, m, n⟩

theorem parseDateParts_iff : parseDateParts value = some (y, m, n) ↔ NamesDay value y m n ∧ 100 ≤ y := by
  constructor
  · intro h
    obtain ⟨text, hvalue, hmatch, hread⟩ := parseDateParts_inv h
    obtain ⟨hy, hday⟩ := civilFromDays_dateUTC_iff.mp hread
    exact ⟨⟨text, hvalue, hmatch, hday⟩, hy⟩
  · rintro ⟨⟨text, rfl, hmatch, hday⟩, hy⟩
    have hne : text ≠ "" := by
      rintro rfl
      exact nomatch hmatch
    unfold parseDateParts
    simp only [Option.bind_eq_bind, Option.bind_some]
    rw [if_neg hne, hmatch]
    simp only [Option.bind_some]
    rw [if_pos (civilFromDays_dateUTC_iff.mpr ⟨hy, hday⟩)]

/-- What a result is: the text of the day it is read as. -/
theorem parseDateString_eq {r : String} (h : parseDateString value = some r) : ∃ y m n d,
    NamesDay value y m n ∧ r = String.ofList (isoChars y m n) ∧ parseDateString (some r) = some r ∧
      toDateOnly (some r) = some d ∧ formatDateOnly d = r ∧ ReadsBack d := by
  obtain ⟨⟨y, m, n⟩, hparts, rfl⟩ := Option.map_eq_some_iff.mp h
  obtain ⟨⟨text, hvalue, hmatch, hday⟩, hy⟩ := parseDateParts_iff.mp hparts
  have hlt := matchDate_year_lt hmatch
  have hread := civilFromDays_daysFromCivil hday
  have h31 := (civilFromDays_day (daysFromCivil y m n)).2
  rw [hread] at h31
  have h12 := hday.2.1
  simp only at h31 h12 hread
  have hagain : parseDateParts (some (String.ofList (isoChars y m n))) = some (y, m, n) :=
    parseDateParts_isoChars hlt (by omega) (by omega) (civilFromDays_dateUTC_iff.mpr ⟨hy, hday⟩)
  have hto : toDateOnly (some (String.ofList (isoChars y m n))) = some (daysFromCivil y m n) := by
    unfold toDateOnly
    rw [hagain]
    rfl
  refine ⟨y, m, n, daysFromCivil y m n, ⟨text, hvalue, hmatch, hday⟩, rfl, ?_, hto, ?_, readsBack_of_toDateOnly hto⟩
  · unfold parseDateString
    rw [hagain]
    rfl
  · unfold formatDateOnly
    rw [hread]
    exact if_pos (by simp only; omega)

/-! ## 3. The result -/

/-- What is asked of a value: it is read exactly when it names a day, as the padded text of that
    day, which is read as itself, denotes the day it came from and stands in the order of time. -/
structure ReadsDate (value : Option String) : Prop where
  accepts : (parseDateString value).isSome = true ↔ ∃ y m n, NamesDay value y m n
  canonical : ∀ r ∈ parseDateString value, ∃ y m n, NamesDay value y m n ∧
    r = String.ofList (isoChars y m n)
  reparsed : ∀ r ∈ parseDateString value, parseDateString (some r) = some r
  formatted : ∀ r ∈ parseDateString value, (toDateOnly (some r)).map formatDateOnly = some r
  ordered : ∀ r ∈ parseDateString value, ∀ other, ∀ r' ∈ parseDateString other,
    ∃ d ∈ toDateOnly (some r), ∃ d' ∈ toDateOnly (some r'), r < r' ↔ d < d'

/-- **A value is read as it should exactly when it names no day before the year 100.** -/
theorem parseDateString_exact_iff (value : Option String) :
    ReadsDate value ↔ ∀ y m n, NamesDay value y m n → 100 ≤ y := by
  constructor
  · intro h y m n hnames
    obtain ⟨r, hr⟩ := Option.isSome_iff_exists.mp (h.accepts.mpr ⟨y, m, n, hnames⟩)
    obtain ⟨⟨y', m', n'⟩, hparts, -⟩ := Option.map_eq_some_iff.mp hr
    obtain ⟨⟨text, hvalue, hmatch, -⟩, hy⟩ := parseDateParts_iff.mp hparts
    obtain ⟨text', hvalue', hmatch', -⟩ := hnames
    cases hvalue.symm.trans hvalue'
    cases hmatch.symm.trans hmatch'
    exact hy
  · intro h
    refine ⟨⟨fun hsome => ?_, fun ⟨y, m, n, hnames⟩ => ?_⟩, fun r hr => ?_, fun r hr => ?_, fun r hr => ?_,
      fun r hr other r' hr' => ?_⟩
    · obtain ⟨r, hr⟩ := Option.isSome_iff_exists.mp hsome
      obtain ⟨y, m, n, -, hnames, -⟩ := parseDateString_eq hr
      exact ⟨y, m, n, hnames⟩
    · unfold parseDateString
      rw [parseDateParts_iff.mpr ⟨hnames, h y m n hnames⟩]
      rfl
    · obtain ⟨y, m, n, -, hnames, he, -⟩ := parseDateString_eq hr
      exact ⟨y, m, n, hnames, he⟩
    · obtain ⟨-, -, -, -, -, -, hagain, -⟩ := parseDateString_eq hr
      exact hagain
    · obtain ⟨-, -, -, d, -, -, -, hd, hf, -⟩ := parseDateString_eq hr
      rw [hd, Option.map_some, hf]
    · obtain ⟨-, -, -, d, -, -, -, hd, hf, hb⟩ := parseDateString_eq hr
      obtain ⟨-, -, -, d', -, -, -, hd', hf', hb'⟩ := parseDateString_eq hr'
      refine ⟨d, hd, d', hd', ?_⟩
      rw [← hf, ← hf']
      exact formatDateOnly_lt_iff hb hb'

/-- The last day of the year 99. -/
theorem year_ninetyNine_refused : ¬ ReadsDate (some "0099-12-31") := by
  intro h
  have hnames : NamesDay (some "0099-12-31") 99 12 31 := ⟨_, rfl, by decide, by decide⟩
  exact absurd ((parseDateString_exact_iff _).mp h 99 12 31 hnames) (by decide)

end AdsManagement.Common
