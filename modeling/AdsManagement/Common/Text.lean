/-
  File:      Common/Text.lean
  Subject:   JAVASCRIPT TEXT as the services use it: `trim`, joining with a separator, and
             `uniqueNonEmpty` (coupang.service.ts), which cleans every list of keys.

  A text is a Lean `String`; the functions work on its characters. `trim` strips the
  ECMAScript white space and line terminators, not only the ASCII blanks.

  * `trimChars_of_ends` -- a text whose first and last characters are no white space is its
    own `trim`;
  * `mem_uniqueNonEmpty` -- on values that are their own `trim`, `uniqueNonEmpty` only drops
    the empty ones and the repetitions.
-/
import Mathlib.Algebra.GroupWithZero.Nat
import Mathlib.Data.List.Nodup
import Mathlib.Data.List.TakeWhile

namespace AdsManagement.Common

open List

/-- A selection that a change of the rows keeps. -/
theorem filter_map_of_keeps {α β : Type} {f : α → β} {p : β → Bool} {q : α → Bool} {l : List α}
    (h : ∀ a ∈ l, p (f a) = q a) : (l.map f).filter p = (l.filter q).map f := by
  rw [filter_map]
  exact congrArg (List.map f) (filter_congr h)

/-! ## 1. White space and `trim` -/

/-- ECMAScript `WhiteSpace` and `LineTerminator`: what `trim` strips and `\s` matches. -/
def isJsSpace (c : Char) : Bool :=
  let n := c.toNat
  (9 ≤ n && n ≤ 13) || n == 0x20 || n == 0xA0 || n == 0x1680 || (0x2000 ≤ n && n ≤ 0x200A) ||
    n == 0x2028 || n == 0x2029 || n == 0x202F || n == 0x205F || n == 0x3000 || n == 0xFEFF

/-- The line terminators, which `.` does not match. -/
def isLineTerminator (c : Char) : Bool :=
  c.toNat = 10 || c.toNat = 13 || c.toNat = 0x2028 || c.toNat = 0x2029

/-- `toLowerCase()` as far as ASCII texts can tell: the Kelvin sign lowers to `k`. -/
def lowerChar (c : Char) : Char := if c = Char.ofNat 0x212A then 'k' else c.toLower

/-- `toUpperCase()` of an ASCII text. -/
def asciiUpperCase (s : String) : String := String.ofList (s.toList.map Char.toUpper)

/-- `Number.MAX_SAFE_INTEGER`. -/
def maxSafeInteger : Nat := 2 ^ 53 - 1

def trimChars (l : List Char) : List Char :=
  ((l.dropWhile isJsSpace).reverse.dropWhile isJsSpace).reverse

/-- `String.prototype.trim`. -/
def trim (s : String) : String := String.ofList (trimChars s.toList)

/-- `Boolean(value)` of a text that may be missing. -/
def isTruthy (value : Option String) : Bool := value.getD "" != ""

/-- `a || b`. -/
def orText (a b : Option String) : Option String := if isTruthy a then a else b

/-- The length of a text in UTF-16 units. -/
def utf16Length (l : List Char) : Nat := (l.map fun c => if c.toNat ≤ 0xffff then 1 else 2).sum

/-- `localeCompare` between texts of ASCII lower-case letters, digits and `-`. -/
def asciiCompare (a b : String) : Int := if a < b then -1 else if a = b then 0 else 1

/-- A text is clean when `trim` keeps it and it is not empty. -/
def IsClean (s : String) : Prop := trim s = s ∧ s ≠ ""

instance (s : String) : Decidable (IsClean s) := inferInstanceAs (Decidable (_ ∧ _))

variable {p : Char → Bool} {l : List Char}

theorem dropWhile_of_head (h : ∀ c ∈ l.head?, p c = false) :
    l.dropWhile p = l := by
  cases l with
  | nil => rfl
  | cons c l => rw [dropWhile_cons, h c rfl]; rfl

/-- A text whose ends are no white space is its own `trim`. -/
theorem trimChars_of_ends (hf : ∀ c ∈ l.head?, isJsSpace c = false)
    (hl : ∀ c ∈ l.getLast?, isJsSpace c = false) : trimChars l = l := by
  unfold trimChars
  rw [dropWhile_of_head hf, dropWhile_of_head, reverse_reverse]
  intro c hc
  rw [head?_reverse] at hc
  exact hl c hc

theorem head?_dropWhile_not (l : List Char) :
    ∀ c ∈ (l.dropWhile p).head?, p c = false := by
  induction l with
  | nil => intro c hc; cases hc
  | cons a l ih =>
    intro c hc
    rw [dropWhile_cons] at hc
    cases ha : p a with
    | true => rw [ha] at hc; exact ih c hc
    | false =>
      rw [ha] at hc
      cases hc
      exact ha

/-- A text with a character that is no white space does not vanish. -/
theorem trimChars_ne_nil {c : Char} (hc : c ∈ l) (hs : isJsSpace c = false) :
    trimChars l ≠ [] := by
  intro e
  have h1 : ∀ x ∈ (l.dropWhile isJsSpace).reverse, isJsSpace x = true :=
    dropWhile_eq_nil_iff.mp (reverse_eq_nil_iff.mp e)
  cases e2 : l.dropWhile isJsSpace with
  | nil =>
    rw [dropWhile_eq_nil_iff.mp e2 c hc] at hs
    cases hs
  | cons a rest =>
    have ha := head?_dropWhile_not (p := isJsSpace) l a (by rw [e2]; rfl)
    rw [h1 a (by rw [e2]; exact mem_reverse.mpr mem_cons_self)] at ha
    cases ha

theorem getLast?_dropWhile (l : List Char) :
    ∀ c ∈ (l.dropWhile p).getLast?, c ∈ l.getLast? := by
  induction l with
  | nil => intro c hc; cases hc
  | cons a l ih =>
    intro c hc
    rw [dropWhile_cons] at hc
    cases ha : p a with
    | true =>
      rw [ha] at hc
      have h := ih c hc
      cases l with
      | nil => cases h
      | cons b l => rw [getLast?_cons_cons]; exact h
    | false => rw [ha] at hc; exact hc

/-- The last character of a trimmed text is no white space. -/
theorem getLast?_trimChars (l : List Char) : ∀ c ∈ (trimChars l).getLast?, isJsSpace c = false := by
  intro c hc
  unfold trimChars at hc
  rw [getLast?_reverse] at hc
  exact head?_dropWhile_not _ c hc

/-- The first character of a trimmed text is no white space. -/
theorem head?_trimChars (l : List Char) : ∀ c ∈ (trimChars l).head?, isJsSpace c = false := by
  intro c hc
  unfold trimChars at hc
  rw [head?_reverse] at hc
  have h := getLast?_dropWhile _ c hc
  rw [getLast?_reverse] at h
  exact head?_dropWhile_not l c h

theorem trimChars_trimChars (l : List Char) : trimChars (trimChars l) = trimChars l :=
  trimChars_of_ends (head?_trimChars l) (getLast?_trimChars l)

/-- What drops the white space does not see a trim. -/
theorem filter_trimChars (hp : ∀ c, isJsSpace c = true → p c = false) (l : List Char) :
    (trimChars l).filter p = l.filter p := by
  have hdrop : ∀ l : List Char, (l.dropWhile isJsSpace).filter p = l.filter p := by
    intro l
    induction l with
    | nil => rfl
    | cons c l ih =>
      rw [dropWhile_cons]
      cases hc : isJsSpace c with
      | true => rw [if_pos rfl, ih, filter_cons_of_neg (by rw [hp c hc]; decide)]
      | false => rw [if_neg (by decide)]
  unfold trimChars
  rw [filter_reverse, hdrop, ← filter_reverse, reverse_reverse, hdrop]

theorem trimChars_split (l : List Char) : ∃ front back, l = front ++ trimChars l ++ back ∧
    (∀ c ∈ front, isJsSpace c = true) ∧ (∀ c ∈ back, isJsSpace c = true) := by
  refine ⟨l.takeWhile isJsSpace, ((l.dropWhile isJsSpace).reverse.takeWhile isJsSpace).reverse, ?_,
    fun c hc => mem_takeWhile_imp hc, fun c hc => mem_takeWhile_imp (mem_reverse.mp hc)⟩
  unfold trimChars
  rw [append_assoc, ← reverse_append, takeWhile_append_dropWhile, reverse_reverse,
    takeWhile_append_dropWhile]

/-- White space around a text does not change its `trim`. -/
theorem trimChars_surround {front back : List Char} (hfront : ∀ c ∈ front, isJsSpace c = true)
    (hback : ∀ c ∈ back, isJsSpace c = true) (l : List Char) :
    trimChars (front ++ l ++ back) = trimChars l := by
  unfold trimChars
  rw [append_assoc, dropWhile_append_of_pos hfront, dropWhile_append]
  split
  · rename_i hempty
    rw [isEmpty_iff.mp hempty, dropWhile_eq_nil_iff.mpr hback]
  · rw [reverse_append, dropWhile_append_of_pos]
    intro c hc
    exact hback c (mem_reverse.mp hc)

@[simp] theorem toList_trim (s : String) : (trim s).toList = trimChars s.toList := by
  simp [trim]

theorem trim_trim (s : String) : trim (trim s) = trim s := by
  unfold trim
  rw [String.toList_ofList, trimChars_trimChars]

/-! ## 2. Joining with `:` -/

/-- `values.map((value) => value.trim()).join(":")`, on characters. -/
def joinTrimmed : List String → List Char
  | [] => []
  | [s] => trimChars s.toList
  | s :: t :: rest => trimChars s.toList ++ ':' :: joinTrimmed (t :: rest)

theorem joinTrimmed_ne_nil (s t : String) (rest : List String) :
    joinTrimmed (s :: t :: rest) ≠ [] := by
  simp [joinTrimmed]

/-- The first character of a joined key is the first of its first part, or the colon. -/
theorem head?_joinTrimmed (s t : String) (rest : List String) :
    ∀ c ∈ (joinTrimmed (s :: t :: rest)).head?, isJsSpace c = false := by
  intro c hc
  unfold joinTrimmed at hc
  cases hs : trimChars s.toList with
  | nil =>
    rw [hs] at hc
    cases hc
    rfl
  | cons a l =>
    rw [hs] at hc
    refine head?_trimChars s.toList c ?_
    rw [hs]
    exact hc

/-- The last character of a joined key is the last of its last part, or a colon. -/
theorem getLast?_joinTrimmed : ∀ (parts : List String),
    ∀ c ∈ (joinTrimmed parts).getLast?, isJsSpace c = false
  | [], c, hc => by cases hc
  | [s], c, hc => getLast?_trimChars s.toList c hc
  | s :: t :: rest, c, hc => by
    unfold joinTrimmed at hc
    rw [getLast?_append] at hc
    cases hj : joinTrimmed (t :: rest) with
    | nil =>
      rw [hj] at hc
      cases hc
      rfl
    | cons a l =>
      refine getLast?_joinTrimmed (t :: rest) c ?_
      rw [hj] at hc ⊢
      rw [getLast?_cons_cons] at hc
      cases hx : (a :: l).getLast? with
      | none => rw [getLast?_eq_none_iff] at hx; cases hx
      | some x => rw [hx] at hc; exact hc

/-- **A joined key of two or more parts is clean.** -/
theorem isClean_joinTrimmed (s t : String) (rest : List String) :
    IsClean (String.ofList (joinTrimmed (s :: t :: rest))) := by
  constructor
  · unfold trim
    rw [String.toList_ofList, trimChars_of_ends (head?_joinTrimmed s t rest)
      (getLast?_joinTrimmed (s :: t :: rest))]
  · intro h
    have h' := congrArg String.toList h
    rw [String.toList_ofList] at h'
    exact joinTrimmed_ne_nil s t rest h'

/-! ## 3. `uniqueNonEmpty` -/

/-- `Array.from(new Set(values.map((value) => value?.trim()).filter(Boolean)))`: the trimmed,
    non-empty values in the order of their first occurrence. -/
def uniqueNonEmpty (values : List (Option String)) : List String :=
  (values.filterMap (fun value => value.bind fun s =>
    if trim s = "" then none else some (trim s))).eraseDups

theorem nodup_eraseDups {α : Type} [DecidableEq α] : (l : List α) → l.eraseDups.Nodup
  | [] => nodup_nil
  | a :: l => by
    rw [eraseDups_cons, nodup_cons]
    refine ⟨fun hm => ?_, nodup_eraseDups _⟩
    rw [mem_eraseDups, mem_filter] at hm
    simp at hm
  termination_by l => l.length
  decreasing_by exact Nat.lt_succ_of_le (length_filter_le _ _)

/-- **On clean values `uniqueNonEmpty` is the set of the values.** -/
theorem mem_uniqueNonEmpty {values : List (Option String)} (hv : ∀ s, some s ∈ values → IsClean s)
    (k : String) : k ∈ uniqueNonEmpty values ↔ some k ∈ values := by
  unfold uniqueNonEmpty
  rw [mem_eraseDups, mem_filterMap]
  constructor
  · rintro ⟨value, hm, hs⟩
    cases value with
    | none => cases hs
    | some s =>
      have hc := hv s hm
      rw [Option.bind_some, hc.1, if_neg hc.2] at hs
      cases hs
      exact hm
  · intro hm
    have hc := hv k hm
    exact ⟨some k, hm, by rw [Option.bind_some, hc.1, if_neg hc.2]⟩

end AdsManagement.Common
