/-
  File:      Cafe24/AmountSigns.lean
  Subject:   THE SIGN OF AN AMOUNT: `parseCafe24Number` of domain/cafe24-csv.ts on the ways a
             cell spells a number.

  The marks (separators, white space, currencies) may stand anywhere. The brackets of the
  accounting form are looked for twice: for the sign in the trimmed text with its marks, for
  the digits in the text without them. The two searches agree only when no mark stands
  outside the brackets.

  * `parseCafe24Number_of_spells` -- the number that each spelling gives;
  * `cafe24_sign_correct_iff` -- the cells whose sign is kept;
  * `cafe24_refund_with_currency` -- a refund that becomes a payment.
-/
import AdsManagement.Cafe24.Csv

namespace AdsManagement.Cafe24

open Common List

/-! ## 1. Spellings -/

/-- The text of a cell without its marks. -/
def unmarked (text : String) : List Char := text.toList.filter fun c => !isNumberMark c

/-- What the marks leave of an amount. -/
inductive AmountForm where
  | plain
  | minus
  | accounting
  | minusInBrackets
deriving DecidableEq

def AmountForm.write (numeral : List Char) : AmountForm → List Char
  | plain => numeral
  | minus => '-' :: numeral
  | accounting => '(' :: (numeral ++ [')'])
  | minusInBrackets => '(' :: '-' :: (numeral ++ [')'])

/-- A cell spells the number `n` in a form, wherever its marks stand. -/
def Spells (form : AmountForm) (n : ℚ) (text : String) : Prop :=
  ∃ numeral, readUnsigned numeral = some n ∧ unmarked text = form.write numeral

/-- The trimmed text, marks and all, stands in brackets. -/
def InBrackets (text : String) : Prop := (bracketed (trimChars text.toList)).isSome = true

instance (text : String) : Decidable (InBrackets text) := inferInstanceAs (Decidable (_ = true))

/-- A minus or a bracket marks an amount as negative. -/
def MarkedNegative (text : String) : Prop := '-' ∈ text.toList ∨ '(' ∈ text.toList

/-- The sign of what a cell spells is the sign of what is read. -/
structure SignCorrect (text : String) (emptyAs : Option ℚ) : Prop where
  plain : ∀ n, Spells .plain n text → parseCafe24Number (some text) emptyAs = some n
  minus : ∀ n, Spells .minus n text → parseCafe24Number (some text) emptyAs = some (-n)
  accounting : ∀ n, Spells .accounting n text → parseCafe24Number (some text) emptyAs = some (-n)
  negative : MarkedNegative text → ∀ v, parseCafe24Number (some text) emptyAs = some v → v ≤ 0
  nonnegative : ¬ MarkedNegative text → ∀ v, parseCafe24Number (some text) emptyAs = some v → 0 ≤ v

/-! ## 2. Marks and brackets -/

theorem isNumberMark_of_space {c : Char} (h : isJsSpace c = true) : (!isNumberMark c) = false := by
  unfold isNumberMark
  rw [h]
  simp

theorem unmarked_trim (text : String) :
    (trimChars text.toList).filter (fun c => !isNumberMark c) = unmarked text :=
  filter_trimChars (fun _ hc => isNumberMark_of_space hc) text.toList

variable {text : String}

theorem mem_of_mem_unmarked {c : Char} (h : c ∈ unmarked text) : c ∈ text.toList :=
  mem_of_mem_filter h

theorem mem_unmarked {c : Char} (hmark : isNumberMark c = false) (h : c ∈ text.toList) :
    c ∈ unmarked text :=
  mem_filter.mpr ⟨h, by rw [hmark]; rfl⟩

variable {numeral : List Char} {n : ℚ}

theorem numeral_ne_nil (h : readUnsigned numeral = some n) : numeral ≠ [] := by
  rintro rfl
  cases h

theorem not_mem_numeral (h : readUnsigned numeral = some n) {c : Char} (hdot : c ≠ '.')
    (hdigit : digit? c = none) : c ∉ numeral := by
  intro hc
  rcases mem_readUnsigned h hc with hc | ⟨d, hc⟩
  · exact hdot hc
  · rw [hdigit] at hc
    cases hc

theorem numeral_no_terminator (h : readUnsigned numeral = some n) :
    numeral.any isLineTerminator = false := by
  rw [any_eq_false]
  intro c hc
  rcases mem_readUnsigned h hc with rfl | ⟨d, hd⟩
  · decide
  · obtain ⟨hlt, rfl⟩ := digitChar_of_digit? hd
    interval_cases d <;> decide

theorem bracketed_eq_none {l : List Char} (h : l.head? ≠ some '(') : bracketed l = none := by
  unfold bracketed
  split
  · exact absurd rfl h
  · rfl

theorem bracketed_brackets {inner : List Char} (hne : inner ≠ [])
    (hline : inner.any isLineTerminator = false) : bracketed ('(' :: (inner ++ [')'])) = some inner := by
  unfold bracketed
  simp [hne, hline]

/-- What stands between the brackets, and the brackets. -/
theorem bracketed_eq_some {l inner : List Char} (h : bracketed l = some inner) :
    l = '(' :: (inner ++ [')']) := by
  unfold bracketed at h
  split at h
  · rename_i rest
    simp only at h
    split at h
    · rename_i hc
      cases h
      congr 1
      exact (dropLast_append_getLast? _ hc.1).symm
    · cases h
  · cases h

/-- A text in brackets keeps them when the marks go. -/
theorem mem_unmarked_of_inBrackets (h : InBrackets text) : '(' ∈ unmarked text := by
  obtain ⟨inner, hinner⟩ := Option.isSome_iff_exists.mp h
  rw [← unmarked_trim, bracketed_eq_some hinner]
  exact mem_filter.mpr ⟨mem_cons_self, by decide⟩

/-! ## 3. What is read -/

/-- The number a form stands for, given what the trimmed text shows. -/
def AmountForm.read (inBrackets : Prop) [Decidable inBrackets] (n : ℚ) : AmountForm → ℚ
  | plain => n
  | minus => -n
  | accounting => if inBrackets then -n else n
  | minusInBrackets => if inBrackets then n else -n

/-- The text between the brackets, or the text. -/
theorem inner_write (h : readUnsigned numeral = some n) (form : AmountForm) :
    (bracketed (form.write numeral)).getD (form.write numeral) = match form with
      | .plain | .accounting => numeral
      | .minus | .minusInBrackets => '-' :: numeral := by
  have hnumeral : numeral.head? ≠ some '(' := fun e =>
    not_mem_numeral h (by decide) (by decide) (mem_of_mem_head? e)
  have hline := numeral_no_terminator h
  cases form with
  | plain =>
    show (bracketed numeral).getD numeral = numeral
    rw [bracketed_eq_none hnumeral]
    rfl
  | minus => rfl
  | accounting =>
    show (bracketed ('(' :: (numeral ++ [')']))).getD _ = numeral
    rw [bracketed_brackets (numeral_ne_nil h) hline]
    rfl
  | minusInBrackets =>
    show (bracketed ('(' :: ('-' :: numeral ++ [')']))).getD _ = '-' :: numeral
    rw [bracketed_brackets (cons_ne_nil _ _) (by rw [any_cons, hline]; decide)]
    rfl

theorem readDecimal_numeral (h : readUnsigned numeral = some n) :
    readDecimal numeral = some n ∧ readDecimal ('-' :: numeral) = some (-n) := by
  constructor
  · unfold readDecimal
    split
    · rename_i rest
      exact absurd mem_cons_self (not_mem_numeral h (by decide) (by decide))
    · exact h
  · show (readUnsigned numeral).map (- ·) = some (-n)
    rw [h]
    rfl

/-- A cell that is not empty is read without its marks. -/
theorem parseCafe24Number_of_ne (h : unmarked text ≠ []) (hminus : unmarked text ≠ ['-'])
    (emptyAs : Option ℚ) : parseCafe24Number (some text) emptyAs =
      ((readDecimal ((bracketed (unmarked text)).getD (unmarked text))).filter isFiniteNumber).map
        fun parsed => if InBrackets text then -parsed else parsed := by
  have hne : ¬ (trimChars text.toList = [] ∨ trimChars text.toList = ['-']) := by
    rintro (e | e)
    · exact h (by rw [← unmarked_trim, e]; rfl)
    · exact hminus (by rw [← unmarked_trim, e]; rfl)
  unfold parseCafe24Number
  simp only
  rw [if_neg hne, unmarked_trim]
  rfl

theorem isFiniteNumber_neg (q : ℚ) : isFiniteNumber (-q) = isFiniteNumber q := by
  unfold isFiniteNumber
  generalize (2 ^ 1024 - 2 ^ 970 : ℚ) = bound
  rw [Bool.eq_iff_iff]
  simp only [Bool.and_eq_true, decide_eq_true_eq]
  constructor
  · intro h
    constructor <;> linarith [h.1, h.2]
  · intro h
    constructor <;> linarith [h.1, h.2]

theorem write_ne (h : readUnsigned numeral = some n) (form : AmountForm) :
    form.write numeral ≠ [] ∧ form.write numeral ≠ ['-'] := by
  have hne := numeral_ne_nil h
  cases form with
  | plain =>
    refine ⟨hne, fun e => ?_⟩
    have hmem : '-' ∈ numeral := by
      rw [show numeral = ['-'] from e]
      exact mem_cons_self
    exact not_mem_numeral h (by decide) (by decide) hmem
  | minus => exact ⟨cons_ne_nil _ _, fun e => hne (cons.inj e).2⟩
  | accounting | minusInBrackets =>
    exact ⟨cons_ne_nil _ _, fun e => absurd (cons.inj e).1 (by decide)⟩

variable {form : AmountForm}

/-- **The number a spelling gives**: a minus is heard, brackets only where the trimmed text shows
    them. -/
theorem parseCafe24Number_of_spells (h : Spells form n text) (emptyAs : Option ℚ) :
    parseCafe24Number (some text) emptyAs =
      if isFiniteNumber n then some (form.read (InBrackets text) n) else none := by
  obtain ⟨numeral, hn, htext⟩ := h
  obtain ⟨hne, hdash⟩ := write_ne hn form
  have hbrackets : InBrackets text → '(' ∈ form.write numeral := fun hin =>
    htext ▸ mem_unmarked_of_inBrackets hin
  have hnot : '(' ∉ numeral := not_mem_numeral hn (by decide) (by decide)
  obtain ⟨hplain, hminus⟩ := readDecimal_numeral hn
  rw [parseCafe24Number_of_ne (by rwa [htext]) (by rwa [htext]), htext, inner_write hn]
  cases form with
  | plain =>
    have hout : ¬ InBrackets text := fun hin => hnot (hbrackets hin)
    simp only [hplain, if_neg hout, AmountForm.read]
    cases hfin : isFiniteNumber n <;> simp [hfin]
  | minus =>
    have hout : ¬ InBrackets text := fun hin => by
      rcases mem_cons.mp (hbrackets hin) with e | e
      · exact absurd e (by decide)
      · exact hnot e
    simp only [hminus, if_neg hout, AmountForm.read]
    cases hfin : isFiniteNumber n <;> simp [isFiniteNumber_neg, hfin]
  | accounting =>
    simp only [hplain, AmountForm.read]
    cases hfin : isFiniteNumber n <;> simp [hfin]
  | minusInBrackets =>
    simp only [hminus, AmountForm.read]
    cases hfin : isFiniteNumber n <;> simp [isFiniteNumber_neg, hfin]

/-- A number without brackets is one or has a minus. -/
theorem readDecimal_eq_some {l : List Char} {q : ℚ} (h : readDecimal l = some q) :
    readUnsigned l = some q ∨ ∃ numeral n, l = '-' :: numeral ∧ readUnsigned numeral = some n ∧ q = -n := by
  unfold readDecimal at h
  split at h
  · rename_i rest
    obtain ⟨n, hn, rfl⟩ := Option.map_eq_some_iff.mp h
    exact .inr ⟨rest, n, rfl, hn, rfl⟩
  · exact .inl h

/-- What is accepted is empty or one of the four spellings. -/
theorem spells_of_accepted {emptyAs : Option ℚ} {v : ℚ} (h : parseCafe24Number (some text) emptyAs = some v) :
    emptyAs = some v ∨ ∃ form n, Spells form n text := by
  by_cases hempty : trimChars text.toList = [] ∨ trimChars text.toList = ['-']
  · left
    unfold parseCafe24Number at h
    simp only at h
    rwa [if_pos hempty] at h
  · right
    unfold parseCafe24Number at h
    simp only at h
    rw [if_neg hempty, unmarked_trim] at h
    obtain ⟨q, hq, -⟩ := Option.map_eq_some_iff.mp h
    obtain ⟨hread, -⟩ := Option.filter_eq_some_iff.mp hq
    cases hin : bracketed (unmarked text) with
    | none =>
      rw [hin] at hread
      rcases readDecimal_eq_some hread with hn | ⟨numeral, n, hl, hn, -⟩
      · exact ⟨.plain, q, _, hn, rfl⟩
      · exact ⟨.minus, n, numeral, hn, hl⟩
    | some inner =>
      rw [hin] at hread
      have htext := bracketed_eq_some hin
      rcases readDecimal_eq_some hread with hn | ⟨numeral, n, hl, hn, -⟩
      · exact ⟨.accounting, q, inner, hn, htext⟩
      · rw [show inner = '-' :: numeral from hl] at htext
        exact ⟨.minusInBrackets, n, numeral, hn, htext⟩

/-! ## 4. The sign -/

theorem markedNegative_iff (h : Spells form n text) : MarkedNegative text ↔ form ≠ .plain := by
  obtain ⟨numeral, hn, htext⟩ := h
  constructor
  · rintro hmark rfl
    rcases hmark with hc | hc
    · have hmem := mem_unmarked (by decide) hc
      rw [htext] at hmem
      exact not_mem_numeral hn (by decide) (by decide) hmem
    · have hmem := mem_unmarked (by decide) hc
      rw [htext] at hmem
      exact not_mem_numeral hn (by decide) (by decide) hmem
  · intro hform
    cases form with
    | plain => exact absurd rfl hform
    | minus => exact .inl (mem_of_mem_unmarked (by rw [htext]; exact mem_cons_self))
    | accounting | minusInBrackets =>
      exact .inr (mem_of_mem_unmarked (by rw [htext]; exact mem_cons_self))

theorem nonneg_of_spells (h : Spells form n text) : 0 ≤ n :=
  readUnsigned_nonneg h.choose_spec.1

/-- **The sign of a cell is kept exactly when** the numbers it spells are finite, the brackets of a
    refund enclose the trimmed text, and no brackets enclose a minus. -/
theorem cafe24_sign_correct_iff (text : String) {emptyAs : Option ℚ}
    (hempty : emptyAs = none ∨ emptyAs = some 0) :
    SignCorrect text emptyAs ↔
      (∀ form n, form ≠ .minusInBrackets → Spells form n text → isFiniteNumber n = true) ∧
      (∀ n, 0 < n → Spells .accounting n text → InBrackets text) ∧
      (∀ n, 0 < n → isFiniteNumber n = true → Spells .minusInBrackets n text → ¬ InBrackets text) := by
  constructor
  · intro h
    have hfinite : ∀ form n, form ≠ .minusInBrackets → Spells form n text → isFiniteNumber n = true := by
      intro form n hform hs
      have hread := parseCafe24Number_of_spells hs emptyAs
      cases hfin : isFiniteNumber n with
      | true => rfl
      | false =>
        rw [hfin] at hread
        have hsome : (parseCafe24Number (some text) emptyAs).isSome = true := by
          cases form with
          | plain => rw [h.plain n hs]; rfl
          | minus => rw [h.minus n hs]; rfl
          | accounting => rw [h.accounting n hs]; rfl
          | minusInBrackets => exact absurd rfl hform
        rw [hread] at hsome
        cases hsome
    refine ⟨hfinite, ?_, ?_⟩
    · intro n hpos hs
      by_contra hout
      have hread := parseCafe24Number_of_spells hs emptyAs
      rw [if_pos (hfinite .accounting n (by decide) hs), h.accounting n hs] at hread
      simp only [AmountForm.read, if_neg hout, Option.some.injEq] at hread
      linarith
    · intro n hpos hfin hs hin
      have hread := parseCafe24Number_of_spells hs emptyAs
      rw [if_pos hfin] at hread
      simp only [AmountForm.read, if_pos hin] at hread
      have := h.negative ((markedNegative_iff hs).mpr (by decide)) n hread
      linarith
  · rintro ⟨hfinite, hbrackets, hdouble⟩
    have hplain : ∀ n, Spells .plain n text → parseCafe24Number (some text) emptyAs = some n := by
      intro n hs
      rw [parseCafe24Number_of_spells hs, if_pos (hfinite .plain n (by decide) hs)]
      rfl
    have hminus : ∀ n, Spells .minus n text → parseCafe24Number (some text) emptyAs = some (-n) := by
      intro n hs
      rw [parseCafe24Number_of_spells hs, if_pos (hfinite .minus n (by decide) hs)]
      rfl
    have haccounting : ∀ n, Spells .accounting n text →
        parseCafe24Number (some text) emptyAs = some (-n) := by
      intro n hs
      rw [parseCafe24Number_of_spells hs, if_pos (hfinite .accounting n (by decide) hs)]
      rcases (nonneg_of_spells hs).eq_or_lt with rfl | hpos
      · simp [AmountForm.read]
      · simp [AmountForm.read, hbrackets n hpos hs]
    refine ⟨hplain, hminus, haccounting, ?_, ?_⟩
    · intro hmark v hv
      rcases spells_of_accepted hv with he | ⟨form, n, hs⟩
      · rcases hempty with h0 | h0 <;> rw [h0] at he <;> cases he
        exact le_refl 0
      · have hn := nonneg_of_spells hs
        cases form with
        | plain => exact absurd rfl ((markedNegative_iff hs).mp hmark)
        | minus =>
          rw [hminus n hs] at hv
          cases hv
          linarith
        | accounting =>
          rw [haccounting n hs] at hv
          cases hv
          linarith
        | minusInBrackets =>
          rw [parseCafe24Number_of_spells hs] at hv
          split at hv
          · rename_i hfin
            cases hv
            rcases hn.eq_or_lt with rfl | hpos
            · simp [AmountForm.read]
            · simp [AmountForm.read, hdouble n hpos hfin hs, hn]
          · cases hv
    · intro hmark v hv
      rcases spells_of_accepted hv with he | ⟨form, n, hs⟩
      · rcases hempty with h0 | h0 <;> rw [h0] at he <;> cases he
        exact le_refl 0
      · have hform : form = .plain := by
          by_contra hform
          exact hmark ((markedNegative_iff hs).mpr hform)
        subst hform
        rw [hplain n hs] at hv
        cases hv
        exact nonneg_of_spells hs

/-- A dash spells no number; a refund with its currency outside the brackets loses its sign. -/
theorem cafe24_sign_correct_dash :
    SignCorrect "-" (some 0) ∧ ¬ SignCorrect "₩(1,000)" (some 0) := by
  have hnone : ∀ form n, ¬ Spells form n "-" := by
    rintro form n ⟨numeral, hn, htext⟩
    exact (write_ne hn form).2 (htext.symm.trans (by decide +kernel))
  constructor
  · refine (cafe24_sign_correct_iff "-" (.inr rfl)).mpr ⟨?_, ?_, ?_⟩
    · intro form n _ hs
      exact absurd hs (hnone form n)
    · intro n _ hs
      exact absurd hs (hnone .accounting n)
    · intro n _ _ hs
      exact absurd hs (hnone .minusInBrackets n)
  · intro h
    have hbrackets := ((cafe24_sign_correct_iff "₩(1,000)" (.inr rfl)).mp h).2.1
    have hin := hbrackets 1000 (by norm_num) ⟨['1', '0', '0', '0'], by decide +kernel, by decide +kernel⟩
    exact absurd hin (by decide +kernel)

/-- A refund of 1,000 won whose currency stands before the brackets is read as a payment. -/
theorem cafe24_refund_with_currency :
    Spells .accounting 1000 "₩(1,000)" ∧ parseCafe24Number (some "₩(1,000)") none = some 1000 ∧
      ¬ ∀ text, SignCorrect text none := by
  have hs : Spells .accounting 1000 "₩(1,000)" :=
    ⟨['1', '0', '0', '0'], by decide +kernel, by decide +kernel⟩
  have hread : parseCafe24Number (some "₩(1,000)") none = some 1000 := by decide +kernel
  refine ⟨hs, hread, ?_⟩
  intro h
  have hneg := (h "₩(1,000)").accounting 1000 hs
  exact absurd hneg (by decide +kernel)

end AdsManagement.Cafe24
