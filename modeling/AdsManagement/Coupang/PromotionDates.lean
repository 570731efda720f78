/-
  File:      Coupang/PromotionDates.lean
  Subject:   PROMOTION DATES: `parsePromotionDate` of domain/coupang-promotion-xlsx.ts against the
             common reader `toDateOnly`.

  A cell that is a number above 20000 is an Excel serial: days since 1899-12-30. The test for it
  comes first, and the eight digits of a compact date are such a number; so `20260719`, which
  `toDateOnly` reads as a day of 2026, names a day of the year 57371 here.

  * `toDateOnly_eq_of_separated` -- a date with separators is read alike by both;
  * `serial_of_compact` -- a compact date is read as a serial, and not as its day;
  * `promotion_dates_agree_iff` -- the texts on which the two readers agree.
-/
import AdsManagement.Common.Decimal

namespace AdsManagement.Coupang

open Common List

/-! ## 1. The reader -/

/-- `.replace(/\([^)]*\)/g, "")`; `pending` holds what follows an open parenthesis, last first. -/
def dropParenthesized : Option (List Char) → List Char → List Char
  | none, [] => []
  | none, c :: rest => if c = '(' then dropParenthesized (some []) rest else c :: dropParenthesized none rest
  | some pending, [] => '(' :: pending.reverse
  | some pending, c :: rest =>
    if c = ')' then dropParenthesized none rest else dropParenthesized (some (c :: pending)) rest

/-- `^\d{1,2}:\d{2}(?::\d{2})?$`. -/
def isClockTime (l : List Char) : Bool :=
  match number12 l with
  | some (_, ':' :: rest) =>
    match number2 rest with
    | some (_, []) => true
    | some (_, ':' :: rest) => (number2 rest).any fun r => r.2.isEmpty
    | _ => false
  | _ => false

/-- `.replace(/\s+\d{1,2}:\d{2}(?::\d{2})?$/, "")`. -/
def dropClockTime : List Char → List Char
  | [] => []
  | c :: rest =>
    if isJsSpace c && isClockTime (rest.dropWhile isJsSpace) then [] else c :: dropClockTime rest

/-- A number that the reader takes for an Excel serial. -/
def excelSerial (input : List Char) : Option ℚ := (readUnsigned input).filter (20000 < ·)

/-- The day of a serial. A `Date` reaches 10^8 days from 1970 both ways; beyond it is invalid. -/
def excelSerialDate (serial : ℚ) : Option Int :=
  let day := dateUTC 1899 11 30 + ⌊serial⌋
  if day.natAbs ≤ 100000000 then some day else none

/-- `none` is `null`, `some none` an invalid `Date`. -/
def parsePromotionDate (value : Option String) : Option (Option Int) :=
  match value with
  | none => none
  | some text =>
    if text = "" then none
    else
      let input := trimChars text.toList
      match excelSerial input with
      | some serial => some (excelSerialDate serial)
      | none =>
        let normalized := String.ofList (trimChars (dropClockTime (dropParenthesized none input)))
        (toDateOnly (some ((parseDateString (some normalized)).getD normalized))).map some

/-! ## 2. Dates with separators -/

theorem dropParenthesized_of_notMem {l : List Char} (h : '(' ∉ l) : dropParenthesized none l = l := by
  induction l with
  | nil => rfl
  | cons c rest ih =>
    have hc : c ≠ '(' := fun e => h (e ▸ mem_cons_self)
    have hrest : '(' ∉ rest := fun hmem => h (mem_cons_of_mem c hmem)
    unfold dropParenthesized
    rw [if_neg hc, ih hrest]

variable {l rest : List Char}
variable {n : Nat}

theorem number2_eq_some (h : number2 l = some (n, rest)) :
    ∃ a b x y, l = a :: b :: rest ∧ digit? a = some x ∧ digit? b = some y ∧ n = 10 * x + y := by
  unfold number2 at h
  split at h
  · split at h
    · next ha hb => cases h; exact ⟨_, _, _, _, rfl, ha, hb, rfl⟩
    · cases h
  · cases h

theorem number4_eq_some (h : number4 l = some (n, rest)) :
    ∃ a b c d x y z w, l = a :: b :: c :: d :: rest ∧ digit? a = some x ∧ digit? b = some y ∧
      digit? c = some z ∧ digit? d = some w ∧ n = 1000 * x + 100 * y + 10 * z + w := by
  unfold number4 at h
  split at h
  · split at h
    · next ha hb hc hd => cases h; exact ⟨_, _, _, _, _, _, _, _, rfl, ha, hb, hc, hd, rfl⟩
    · cases h
  · cases h

/-- The digits of a short number, and what follows them. -/
theorem number12_eq_some (h : number12 l = some (n, rest)) :
    ∃ digits, l = digits ++ rest ∧ ∀ c ∈ digits, digit? c ≠ none := by
  unfold number12 at h
  split at h
  · cases h
  · split at h
    · rename_i r hr
      cases h
      obtain ⟨a, b, x, y, hl, ha, hb, -⟩ := number2_eq_some hr
      refine ⟨[a, b], hl, ?_⟩
      simp [ha, hb]
    · obtain ⟨x, hx, he⟩ := Option.map_eq_some_iff.mp h
      cases he
      exact ⟨[_], rfl, by simp [hx]⟩

theorem skipChar_eq_some {c : Char} (h : skipChar c l = some rest) : l = c :: rest := by
  unfold skipChar at h
  split at h
  · split at h
    · next hc => cases h; rw [hc]
    · cases h
  · cases h

/-- The characters of a date. -/
def IsDateChar (c : Char) : Prop := digit? c ≠ none ∨ c = '-' ∨ c = '/' ∨ c = '.' ∨ isJsSpace c = true

theorem not_isDateChar_paren : ¬ IsDateChar '(' := by unfold IsDateChar; decide

theorem not_isDateChar_colon : ¬ IsDateChar ':' := by unfold IsDateChar; decide

variable {y m d : Nat}
variable {sep : Char}

/-- A date with separators: four digits, the separator, and the separator again further on. -/
theorem matchSeparated_eq_some {dotted : Bool} (hsep : IsDateChar sep)
    (h : matchSeparated sep dotted l = some (y, m, d)) :
    (∀ c ∈ l, IsDateChar c) ∧ ∃ year rest, l = year ++ sep :: rest ∧ (∀ c ∈ year, digit? c ≠ none) ∧
      sep ∈ rest := by
  simp only [matchSeparated, Option.bind_eq_bind, Option.bind_eq_some_iff] at h
  obtain ⟨⟨y', r1⟩, h4, r2, hs1, ⟨m', r3⟩, hm, r4, hs2, ⟨d', r5⟩, hd, hend⟩ := h
  obtain ⟨a, b, c, e, x1, x2, x3, x4, hl, ha, hb, hc, he, -⟩ := number4_eq_some h4
  obtain ⟨month, hmonth, hmonthDigits⟩ := number12_eq_some hm
  obtain ⟨day, hday, hdayDigits⟩ := number12_eq_some hd
  -- the blanks of the dotted spelling
  have hblanks : ∀ l : List Char, ∃ blanks, l = blanks ++ (if dotted then l.dropWhile isJsSpace else l) ∧
      ∀ c ∈ blanks, isJsSpace c = true := by
    intro l
    cases dotted with
    | false => exact ⟨[], rfl, by simp⟩
    | true => exact ⟨l.takeWhile isJsSpace, (takeWhile_append_dropWhile).symm,
        fun c hc => mem_takeWhile_imp hc⟩
  obtain ⟨blanks1, hblanks1, hspace1⟩ := hblanks r2
  obtain ⟨blanks2, hblanks2, hspace2⟩ := hblanks r4
  have htail : ∀ c ∈ r5, IsDateChar c := by
    split at hend
    · rename_i hr
      have hr5 : r5 = [] ∨ r5 = ['.'] := hr.imp id And.right
      rcases hr5 with rfl | rfl
      · simp
      · simp [IsDateChar]
    · cases hend
  have hr1 : r1 = sep :: r2 := skipChar_eq_some hs1
  have hr3 : r3 = sep :: r4 := skipChar_eq_some hs2
  have hr4 : r4 = blanks2 ++ (day ++ r5) := by rw [← hday]; exact hblanks2
  have hr2 : r2 = blanks1 ++ (month ++ sep :: r4) := by rw [← hr3, ← hmonth]; exact hblanks1
  have hdigit : ∀ {digits : List Char}, (∀ c ∈ digits, digit? c ≠ none) → ∀ c ∈ digits, IsDateChar c :=
    fun hall c hc => .inl (hall c hc)
  have hblank : ∀ {blanks : List Char}, (∀ c ∈ blanks, isJsSpace c = true) → ∀ c ∈ blanks, IsDateChar c :=
    fun hall c hc => .inr (.inr (.inr (.inr (hall c hc))))
  have hyear : ∀ ch ∈ [a, b, c, e], digit? ch ≠ none := by simp [ha, hb, hc, he]
  have hl' : l = [a, b, c, e] ++ sep :: r2 := by rw [hl, hr1]; rfl
  refine ⟨?_, [a, b, c, e], r2, hl', hyear, ?_⟩
  · rw [hl', hr2, hr4]
    intro ch hch
    simp only [mem_append, mem_cons] at hch
    rcases hch with hch | rfl | hch | hch | rfl | hch | hch | hch
    · exact hdigit hyear ch (by simpa using hch)
    · exact hsep
    · exact hblank hspace1 ch hch
    · exact hdigit hmonthDigits ch hch
    · exact hsep
    · exact hblank hspace2 ch hch
    · exact hdigit hdayDigits ch hch
    · exact htail ch hch
  · rw [hr2]
    simp

/-- A date with separators is no number: the separator stands among the digits, or twice. -/
theorem readUnsigned_of_separated {year : List Char} (hsep : digit? sep = none)
    (hyear : ∀ c ∈ year, digit? c ≠ none) (hrest : sep ∈ rest) :
    readUnsigned (year ++ sep :: rest) = none := by
  have hdot : ∀ c ∈ year, c ≠ '.' := fun c hc e => hyear c hc (by rw [e]; rfl)
  unfold readUnsigned
  by_cases h : sep = '.'
  · subst h
    obtain ⟨htake, hdrop⟩ := takeWhile_append_dot hdot rest
    simp only [htake, hdrop]
    rw [readDigits_eq_none hrest hsep]
    cases readDigits year <;> rfl
  · have hmem : sep ∈ (year ++ sep :: rest).takeWhile (· ≠ '.') := by
      rw [takeWhile_append_of_pos (fun c hc => decide_eq_true (hdot c hc)),
        takeWhile_cons_of_pos (by simpa using h)]
      simp
    simp only [readDigits_eq_none hmem hsep]
    split <;> rfl

/-- What `parseDateString` accepts beside the eight digits. -/
theorem separated_of_matchDate {input : List Char} (h : matchDate input = some (y, m, d))
    (hcompact : matchCompact input = none) : (∀ c ∈ input, IsDateChar c) ∧ readUnsigned input = none := by
  unfold matchDate at h
  rw [hcompact] at h
  have hread : ∀ {sep : Char} {dotted : Bool}, digit? sep = none → IsDateChar sep →
      matchSeparated sep dotted input = some (y, m, d) →
      (∀ c ∈ input, IsDateChar c) ∧ readUnsigned input = none := by
    intro sep dotted hsep hchar hmatch
    obtain ⟨hall, year, rest, rfl, hyear, hrest⟩ := matchSeparated_eq_some hchar hmatch
    exact ⟨hall, readUnsigned_of_separated hsep hyear hrest⟩
  simp only at h
  split at h
  · next r hr => cases h; exact hread rfl (by simp [IsDateChar]) hr
  · split at h
    · next r hr => cases h; exact hread rfl (by simp [IsDateChar]) hr
    · exact hread rfl (by simp [IsDateChar]) h

theorem isClockTime_of_notMem (h : ':' ∉ l) : isClockTime l = false := by
  unfold isClockTime
  split
  · rename_i n rest hn
    obtain ⟨digits, hl, -⟩ := number12_eq_some hn
    exact absurd (by rw [hl]; simp) h
  · rfl

theorem dropClockTime_of_notMem (h : ':' ∉ l) : dropClockTime l = l := by
  induction l with
  | nil => rfl
  | cons c rest ih =>
    have hrest : ':' ∉ rest := fun hmem => h (mem_cons_of_mem c hmem)
    have hclock : isClockTime (rest.dropWhile isJsSpace) = false :=
      isClockTime_of_notMem fun hmem => hrest ((dropWhile_sublist _).subset hmem)
    unfold dropClockTime
    rw [hclock, Bool.and_false, ih hrest]
    rfl

variable {text : String}

/-- **A date with separators is read alike by both.** -/
theorem toDateOnly_eq_of_separated (h : parseDateParts (some text) = some (y, m, d))
    (hcompact : matchCompact (trimChars text.toList) = none) :
    parsePromotionDate (some text) = some (toDateOnly (some text)) := by
  obtain ⟨text', htext, hmatch, hday⟩ := parseDateParts_inv h
  cases htext
  obtain ⟨hchars, hnumber⟩ := separated_of_matchDate hmatch hcompact
  have hne : text ≠ "" := by
    rintro rfl
    cases hmatch
  have hkeep : trimChars (dropClockTime (dropParenthesized none (trimChars text.toList))) =
      trimChars text.toList := by
    rw [dropParenthesized_of_notMem fun hmem => not_isDateChar_paren (hchars _ hmem),
      dropClockTime_of_notMem fun hmem => not_isDateChar_colon (hchars _ hmem), trimChars_trimChars]
  have hnormalized : parseDateParts (some (String.ofList (trimChars text.toList))) = some (y, m, d) := by
    have hne' : String.ofList (trimChars text.toList) ≠ "" := by
      intro e
      have hlist := congrArg String.toList e
      rw [String.toList_ofList] at hlist
      rw [hlist] at hmatch
      cases hmatch
    unfold parseDateParts
    simp only [Option.bind_eq_bind, Option.bind_some]
    rw [if_neg hne', String.toList_ofList, trimChars_trimChars, hmatch]
    simp only [Option.bind_some, hday, if_true]
  obtain ⟨hm, hd⟩ := bounds_of_civilFromDays hday
  have hiso := parseDateParts_isoChars (matchDate_year_lt hmatch) (show m < 100 by omega)
    (show d < 100 by omega) hday
  unfold parsePromotionDate
  simp only
  rw [if_neg hne]
  unfold excelSerial
  rw [hnumber]
  simp only [hkeep]
  unfold parseDateString toDateOnly
  rw [hnormalized]
  simp only [Option.map_some, Option.getD_some]
  rw [hiso, h]
  rfl

/-! ## 3. Compact dates -/

theorem natValue_eight (x1 x2 x3 x4 y1 y2 z1 z2 : Nat) :
    natValue [x1, x2, x3, x4, y1, y2, z1, z2] =
      (1000 * x1 + 100 * x2 + 10 * x3 + x4) * 10000 + (10 * y1 + y2) * 100 + (10 * z1 + z2) := by
  simp only [natValue, reverse_cons, reverse_nil, nil_append, cons_append,
    Nat.ofDigits_cons, Nat.ofDigits_nil]
  ring

/-- The number that a compact date is. -/
theorem matchCompact_eq_some (h : matchCompact l = some (y, m, d)) :
    readUnsigned l = some ((y * 10000 + m * 100 + d : Nat) : ℚ) := by
  simp only [matchCompact, Option.bind_eq_bind, Option.bind_eq_some_iff] at h
  obtain ⟨⟨y', r1⟩, h4, ⟨m', r2⟩, hm, ⟨d', r3⟩, hd, hend⟩ := h
  obtain ⟨a, b, c, e, x1, x2, x3, x4, hl, ha, hb, hc, he, hy⟩ := number4_eq_some h4
  obtain ⟨m1, m2, y1, y2, hr1, hm1, hm2, hmv⟩ := number2_eq_some hm
  obtain ⟨d1, d2, z1, z2, hr2, hd1, hd2, hdv⟩ := number2_eq_some hd
  simp only at hr1 hr2 hend
  split at hend
  · rename_i hr3
    cases hend
    have hl' : l = [a, b, c, e, m1, m2, d1, d2] := by rw [hl, hr1, hr2, hr3]
    have hdigits : ∀ ch ∈ [a, b, c, e, m1, m2, d1, d2], ch ≠ '.' := by
      intro ch hch hdot
      subst hdot
      simp only [mem_cons, not_mem_nil, or_false] at hch
      rcases hch with rfl | rfl | rfl | rfl | rfl | rfl | rfl | rfl <;> contradiction
    obtain ⟨htake, hdrop⟩ := takeWhile_no_dot hdigits
    have hread : readDigits [a, b, c, e, m1, m2, d1, d2] = some [x1, x2, x3, x4, y1, y2, z1, z2] := by
      simp [readDigits, ha, hb, hc, he, hm1, hm2, hd1, hd2]
    unfold readUnsigned
    rw [hl']
    simp only [htake, hdrop, hread, Option.map_some]
    rw [natValue_eight, hy, hmv, hdv]
  · cases hend

theorem parsePromotionDate_of_serial {serial : ℚ} (h : excelSerial (trimChars text.toList) = some serial) :
    parsePromotionDate (some text) = some (excelSerialDate serial) := by
  have hne : text ≠ "" := by
    rintro rfl
    cases h
  unfold parsePromotionDate
  simp only
  rw [if_neg hne, h]

/-- A serial of eight digits lies far behind the day that the digits name. -/
theorem excelSerialDate_ne (hy : 100 ≤ y) (hm : 1 ≤ m ∧ m ≤ 12) :
    excelSerialDate ((y * 10000 + m * 100 + d : Nat) : ℚ) ≠ some (daysFromCivil y m d) := by
  have hepoch : dateUTC 1899 11 30 = -25569 := by decide
  unfold excelSerialDate
  simp only [Int.floor_natCast]
  split
  · intro e
    have hdays := Option.some.inj e
    unfold daysFromCivil daysBeforeYear at hdays
    split at hdays <;> omega
  · exact nofun

/-- **A compact date is read as a serial**, and not as its day. -/
theorem serial_of_compact (h : parseDateParts (some text) = some (y, m, d))
    (hcompact : matchCompact (trimChars text.toList) ≠ none) :
    excelSerial (trimChars text.toList) = some ((y * 10000 + m * 100 + d : Nat) : ℚ) ∧
      parsePromotionDate (some text) ≠ some (toDateOnly (some text)) := by
  obtain ⟨text', htext, hmatch, hday⟩ := parseDateParts_inv h
  cases htext
  obtain ⟨⟨y', m', d'⟩, hsome⟩ := Option.ne_none_iff_exists'.mp hcompact
  have hsame : (y', m', d') = (y, m, d) := by
    unfold matchDate at hmatch
    rw [hsome] at hmatch
    exact Option.some.inj hmatch
  cases hsame
  have hyear : 100 ≤ y := by
    have hreads := (readsBack_of_toDateOnly (show toDateOnly (some text) = some (daysFromCivil y m d) by
      unfold toDateOnly
      rw [h]
      rfl)).1
    have hdays := daysFromCivil_civilFromDays (dateUTC y (m - 1) d)
    rw [hday] at hdays
    rw [hdays, hday] at hreads
    simp only at hreads
    omega
  obtain ⟨hm, hd⟩ := bounds_of_civilFromDays hday
  have hserial : excelSerial (trimChars text.toList) = some ((y * 10000 + m * 100 + d : Nat) : ℚ) := by
    have hlarge : (20000 : ℚ) < ((y * 10000 + m * 100 + d : Nat) : ℚ) := by
      exact_mod_cast (show 20000 < y * 10000 + m * 100 + d by omega)
    unfold excelSerial
    rw [matchCompact_eq_some hsome, Option.filter_some, if_pos (decide_eq_true hlarge)]
  refine ⟨hserial, fun e => ?_⟩
  rw [parsePromotionDate_of_serial hserial] at e
  have hnamed : toDateOnly (some text) = some (daysFromCivil y m d) := by
    unfold toDateOnly
    rw [h]
    rfl
  rw [hnamed] at e
  exact excelSerialDate_ne hyear ⟨by omega, by omega⟩ (Option.some.inj e)

/-! ## 4. Agreement -/

/-- An accepted date of eight digits. -/
def IsCompactDate (text : String) : Prop :=
  parseDateString (some text) ≠ none ∧ matchCompact (trimChars text.toList) ≠ none

instance (text : String) : Decidable (IsCompactDate text) :=
  inferInstanceAs (Decidable (parseDateString (some text) ≠ none ∧ matchCompact (trimChars text.toList) ≠ none))

/-- The two readers agree on a text. -/
structure ReadersAgree (text : String) : Prop where
  date : parseDateString (some text) ≠ none → parsePromotionDate (some text) = some (toDateOnly (some text))
  serial : excelSerial (trimChars text.toList) ≠ none → parseDateString (some text) = none

/-- **The texts on which the readers agree**: all but the accepted dates of eight digits. -/
theorem promotion_dates_agree_iff (text : String) : ReadersAgree text ↔ ¬ IsCompactDate text := by
  have hparts : ∀ {text : String}, parseDateString (some text) ≠ none →
      ∃ y m d, parseDateParts (some text) = some (y, m, d) := by
    intro text haccepted
    unfold parseDateString at haccepted
    cases h : parseDateParts (some text) with
    | none => rw [h] at haccepted; exact absurd rfl haccepted
    | some parts => exact ⟨parts.1, parts.2.1, parts.2.2, rfl⟩
  refine ⟨fun h hcompact => ?_, fun hcompact => ⟨fun haccepted => ?_, fun hserial => ?_⟩⟩
  · obtain ⟨y, m, d, hdate⟩ := hparts hcompact.1
    exact (serial_of_compact hdate hcompact.2).2 (h.date hcompact.1)
  · obtain ⟨y, m, d, hdate⟩ := hparts haccepted
    exact toDateOnly_eq_of_separated hdate (Classical.byContradiction fun hc => hcompact ⟨haccepted, hc⟩)
  · refine Classical.byContradiction fun haccepted => ?_
    obtain ⟨y, m, d, hdate⟩ := hparts haccepted
    obtain ⟨text', htext, hmatch, -⟩ := parseDateParts_inv hdate
    cases htext
    have hnone : matchCompact (trimChars text.toList) = none :=
      Classical.byContradiction fun hc => hcompact ⟨haccepted, hc⟩
    have hnumber := (separated_of_matchDate hmatch hnone).2
    unfold excelSerial at hserial
    rw [hnumber] at hserial
    exact hserial rfl

/-- The eight digits of 19 July 2026. -/
theorem promotion_date_in_another_age :
    ¬ ReadersAgree "20260719" ∧ toDateOnly (some "20260719") = some 20653 ∧
      parsePromotionDate (some "20260719") = some (some 20235150) ∧
      civilFromDays 20235150 = ⟨57371, 12, 17⟩ := by
  refine ⟨fun h => absurd (h.serial (by decide +kernel)) (by decide +kernel), by decide +kernel,
    by decide +kernel, by decide +kernel⟩

end AdsManagement.Coupang
