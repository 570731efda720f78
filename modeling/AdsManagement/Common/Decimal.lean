/-
  File:      Common/Decimal.lean
  Subject:   DECIMAL COLUMNS: `Decimal(p, s)` values, their text and the reading of it.

  A column of scale `s` holds a whole number of units of `10 ^ -s`. `String(decimal)` writes it
  in plain notation without trailing zeros (exponent notation starts beyond the widths of the
  columns), `new Prisma.Decimal(text)` reads it, and a write rounds half away from zero.

  * `readScaled_text` -- a stored value is read back from its own text.
-/
import Mathlib.Data.Nat.Digits.Defs
import Mathlib.Data.Rat.Floor
import AdsManagement.Common.Dates

namespace AdsManagement.Common

open List

/-- `safeDivide`, over finite numbers. -/
def safeDivide (numerator denominator : ℚ) : Option ℚ :=
  if denominator = 0 then none else some (numerator / denominator)

/-! ## 1. Digits of a number -/

/-- The decimal digits of a number, most significant first. -/
def natText (n : Nat) : List Char :=
  if n = 0 then ['0'] else (Nat.digits 10 n).reverse.map digitChar

/-- `\d+`, all of the text. -/
def readDigits (l : List Char) : Option (List Nat) := if l = [] then none else l.mapM digit?

def natValue (digits : List Nat) : Nat := Nat.ofDigits 10 digits.reverse

variable {ds : List Nat}

theorem mapM_digit? (h : ∀ d ∈ ds, d < 10) :
    (ds.map digitChar).mapM digit? = some ds := by
  induction ds with
  | nil => rfl
  | cons d ds ih =>
    have hd : d % 10 = d := Nat.mod_eq_of_lt (h d mem_cons_self)
    rw [map_cons, mapM_cons, digit?_digitChar, hd, ih fun x hx => h x (mem_cons_of_mem _ hx)]
    rfl

theorem readDigits_natText (n : Nat) :
    ∃ ds, readDigits (natText n) = some ds ∧ natValue ds = n ∧ natText n = ds.map digitChar := by
  unfold natText
  by_cases h : n = 0
  · rw [h]
    exact ⟨[0], rfl, rfl, rfl⟩
  · rw [if_neg h]
    refine ⟨(Nat.digits 10 n).reverse, ?_, ?_, rfl⟩
    · unfold readDigits
      rw [if_neg (by simpa using Nat.digits_ne_nil_iff_ne_zero.mpr h), mapM_digit?]
      intro d hd
      exact Nat.digits_lt_base (by decide) (mem_reverse.mp hd)
    · unfold natValue
      rw [reverse_reverse, Nat.ofDigits_digits]

variable {l : List Char} {c : Char}

theorem readDigits_eq_none (hc : c ∈ l) (hdigit : digit? c = none) :
    readDigits l = none := by
  unfold readDigits
  rw [if_neg (ne_nil_of_mem hc)]
  induction l with
  | nil => exact absurd hc not_mem_nil
  | cons a rest ih =>
    rw [mapM_cons]
    rcases mem_cons.mp hc with rfl | hrest
    · rw [hdigit]
      rfl
    · rw [ih hrest]
      cases digit? a <;> rfl

/-! ## 2. Fractions -/

/-- The value of the digits after the point. -/
def fracValue : List Nat → ℚ
  | [] => 0
  | d :: ds => (d + fracValue ds) / 10

/-- `n` as `s` digits. -/
def padDigits : Nat → Nat → List Nat
  | 0, _ => []
  | s + 1, n => padDigits s (n / 10) ++ [n % 10]

/-- Without trailing zeros. -/
def stripZeros (ds : List Nat) : List Nat := (ds.reverse.dropWhile (· = 0)).reverse

theorem length_padDigits (s n : Nat) : (padDigits s n).length = s := by
  induction s generalizing n with
  | zero => rfl
  | succ s ih => rw [padDigits, length_append, ih]; rfl

theorem lt_of_mem_padDigits {s n d : Nat} (h : d ∈ padDigits s n) : d < 10 := by
  induction s generalizing n with
  | zero => cases h
  | succ s ih =>
    rcases mem_append.mp h with h | h
    · exact ih h
    · rw [mem_singleton.mp h]
      exact Nat.mod_lt _ (by decide)

theorem fracValue_append (ds : List Nat) (d : Nat) :
    fracValue (ds ++ [d]) = fracValue ds + d / 10 ^ (ds.length + 1) := by
  induction ds with
  | nil => simp [fracValue]
  | cons x ds ih =>
    rw [cons_append, fracValue, ih, fracValue, length_cons]
    field_simp
    ring

theorem fracValue_padDigits {s n : Nat} (h : n < 10 ^ s) : fracValue (padDigits s n) = n / 10 ^ s := by
  induction s generalizing n with
  | zero =>
    have : n = 0 := by simpa using h
    subst this
    simp [padDigits, fracValue]
  | succ s ih =>
    have hlt : n / 10 < 10 ^ s := by
      exact Nat.div_lt_of_lt_mul (by rwa [Nat.mul_comm])
    have hn : (n : ℚ) = 10 * ((n / 10 : Nat) : ℚ) + ((n % 10 : Nat) : ℚ) := by
      exact_mod_cast (Nat.div_add_mod n 10).symm
    rw [padDigits, fracValue_append, ih hlt, length_padDigits, hn, pow_succ]
    field_simp

theorem fracValue_zeros (h : ∀ d ∈ ds, d = 0) : fracValue ds = 0 := by
  induction ds with
  | nil => rfl
  | cons d ds ih =>
    rw [fracValue, h d mem_cons_self, ih fun x hx => h x (mem_cons_of_mem _ hx)]
    norm_num

theorem fracValue_append_zeros (ds : List Nat) {zs : List Nat} (h : ∀ d ∈ zs, d = 0) :
    fracValue (ds ++ zs) = fracValue ds := by
  induction ds with
  | nil => rw [nil_append, fracValue_zeros h]; rfl
  | cons d ds ih => rw [cons_append, fracValue, ih, fracValue]

theorem fracValue_stripZeros (ds : List Nat) : fracValue (stripZeros ds) = fracValue ds := by
  have h : ds = stripZeros ds ++ (ds.reverse.takeWhile (· = 0)).reverse := by
    unfold stripZeros
    rw [← reverse_append, takeWhile_append_dropWhile, reverse_reverse]
  conv_rhs => rw [h]
  rw [fracValue_append_zeros]
  intro d hd
  simpa using mem_takeWhile_imp (mem_reverse.mp hd)

theorem stripZeros_subset {d : Nat} (h : d ∈ stripZeros ds) : d ∈ ds := by
  exact mem_reverse.mp ((dropWhile_sublist _).subset (mem_reverse.mp h))

/-! ## 3. Values of a column -/

/-- A value of scale `scale`, in units of `10 ^ -scale`. -/
structure Scaled (scale : Nat) where
  units : Int
deriving DecidableEq

variable {s : Nat}

def Scaled.value (x : Scaled s) : ℚ := x.units / 10 ^ s

instance : Zero (Scaled s) := ⟨⟨0⟩⟩

/-- Storing a number in a column: half a unit rounds away from zero. -/
def Scaled.ofRat (s : Nat) (q : ℚ) : Scaled s :=
  if q < 0 then ⟨-⌊-q * 10 ^ s + 1 / 2⌋⟩ else ⟨⌊q * 10 ^ s + 1 / 2⌋⟩

/-- What a column of scale `s` holds of a number written to it. -/
def columnValue (s : Nat) (q : ℚ) : ℚ := (Scaled.ofRat s q).value

/-- A number that a column `Decimal(p, s)` takes. -/
def fitsColumn (p s : Nat) (q : ℚ) : Bool := (Scaled.ofRat s q).units.natAbs < 10 ^ p

/-- `String(value)`. -/
def Scaled.text (x : Scaled s) : String :=
  let n := x.units.natAbs
  let fraction := stripZeros (padDigits s (n % 10 ^ s))
  String.ofList ((if x.units < 0 then ['-'] else []) ++ natText (n / 10 ^ s) ++
    (if fraction = [] then [] else '.' :: fraction.map digitChar))

/-- `^\d+(\.\d+)?$` and its value. -/
def readUnsigned (l : List Char) : Option ℚ :=
  let whole := l.takeWhile (· ≠ '.')
  match l.dropWhile (· ≠ '.') with
  | [] => (readDigits whole).map fun ds => (natValue ds : ℚ)
  | _ :: rest => do
    let ds ← readDigits whole
    let fs ← readDigits rest
    some (natValue ds + fracValue fs)

/-- `^-?\d+(?:\.\d+)?$` and its value. -/
def readDecimal (l : List Char) : Option ℚ :=
  match l with
  | '-' :: rest => (readUnsigned rest).map (- ·)
  | _ => readUnsigned l

theorem takeWhile_append_dot (h : ∀ c ∈ l, c ≠ '.') (rest : List Char) :
    (l ++ '.' :: rest).takeWhile (· ≠ '.') = l ∧ (l ++ '.' :: rest).dropWhile (· ≠ '.') = '.' :: rest := by
  have hall : ∀ c ∈ l, decide (c ≠ '.') = true := fun c hc => decide_eq_true (h c hc)
  rw [takeWhile_append_of_pos hall, dropWhile_append_of_pos hall]
  simp

theorem takeWhile_no_dot (h : ∀ c ∈ l, c ≠ '.') :
    l.takeWhile (· ≠ '.') = l ∧ l.dropWhile (· ≠ '.') = [] :=
  ⟨takeWhile_eq_self_iff.mpr fun c hc => decide_eq_true (h c hc),
    dropWhile_eq_nil_iff.mpr fun c hc => decide_eq_true (h c hc)⟩

theorem fracValue_nonneg (ds : List Nat) : 0 ≤ fracValue ds := by
  induction ds with
  | nil => exact le_refl 0
  | cons d ds ih =>
    rw [fracValue]
    positivity

theorem readUnsigned_nonneg {n : ℚ} (h : readUnsigned l = some n) : 0 ≤ n := by
  unfold readUnsigned at h
  split at h
  · obtain ⟨ds, -, rfl⟩ := Option.map_eq_some_iff.mp h
    positivity
  · obtain ⟨ds, -, h⟩ := Option.bind_eq_some_iff.mp h
    obtain ⟨fs, -, h⟩ := Option.bind_eq_some_iff.mp h
    cases h
    have := fracValue_nonneg fs
    positivity

/-- A number without a sign is written with digits and a point. -/
theorem mem_readUnsigned {n : ℚ} (h : readUnsigned l = some n) (hc : c ∈ l) :
    c = '.' ∨ ∃ d, digit? c = some d := by
  have hread : ∀ {part : List Char} {ds : List Nat}, readDigits part = some ds → c ∈ part →
      ∃ d, digit? c = some d := by
    intro part ds hpart hmem
    cases hd : digit? c with
    | some d => exact ⟨d, rfl⟩
    | none =>
      rw [readDigits_eq_none hmem hd] at hpart
      cases hpart
  rw [← takeWhile_append_dropWhile (p := (· ≠ '.')) (l := l)] at hc
  unfold readUnsigned at h
  split at h
  · rename_i hdrop
    obtain ⟨ds, hds, -⟩ := Option.map_eq_some_iff.mp h
    rw [hdrop, append_nil] at hc
    exact .inr (hread hds hc)
  · rename_i dot rest hdrop
    obtain ⟨ds, hds, h⟩ := Option.bind_eq_some_iff.mp h
    obtain ⟨fs, hfs, -⟩ := Option.bind_eq_some_iff.mp h
    have hdot : dot = '.' := by
      have hhead := List.head?_dropWhile_not (· ≠ '.') l
      rw [hdrop] at hhead
      simpa using hhead
    rw [hdrop] at hc
    rcases mem_append.mp hc with hwhole | htail
    · exact .inr (hread hds hwhole)
    · rcases mem_cons.mp htail with hhead | hrest
      · exact .inl (hhead.trans hdot)
      · exact .inr (hread hfs hrest)

theorem digitChar_ne (hc : digit? c = none) (n : Nat) : digitChar n ≠ c := by
  intro e
  have := digit?_digitChar n
  rw [e, hc] at this
  cases this

/-- A number is written with digits only. -/
theorem not_mem_natText (hc : digit? c = none) (n : Nat) : c ∉ natText n := by
  obtain ⟨ds, -, -, e⟩ := readDigits_natText n
  rw [e]
  intro hm
  obtain ⟨d, -, hd⟩ := mem_map.mp hm
  exact digitChar_ne hc d hd

theorem natText_ne_dot (n : Nat) : ∀ c ∈ natText n, c ≠ '.' := by
  rintro c hc rfl
  exact not_mem_natText rfl n hc

/-- The unsigned part of a text is read back. -/
theorem readUnsigned_text (n s : Nat) :
    readUnsigned (natText (n / 10 ^ s) ++ (if stripZeros (padDigits s (n % 10 ^ s)) = [] then []
      else '.' :: (stripZeros (padDigits s (n % 10 ^ s))).map digitChar)) = some ((n : ℚ) / 10 ^ s) := by
  obtain ⟨ds, hds, hv, -⟩ := readDigits_natText (n / 10 ^ s)
  have hfrac : fracValue (stripZeros (padDigits s (n % 10 ^ s))) = ((n % 10 ^ s : Nat) : ℚ) / 10 ^ s := by
    rw [fracValue_stripZeros, fracValue_padDigits (Nat.mod_lt _ (by positivity))]
  have hn : (n : ℚ) = 10 ^ s * ((n / 10 ^ s : Nat) : ℚ) + ((n % 10 ^ s : Nat) : ℚ) := by
    exact_mod_cast (Nat.div_add_mod n (10 ^ s)).symm
  have hsum : ((n / 10 ^ s : Nat) : ℚ) + ((n % 10 ^ s : Nat) : ℚ) / 10 ^ s = (n : ℚ) / 10 ^ s := by
    rw [hn]
    field_simp
  unfold readUnsigned
  split_ifs with hf
  · obtain ⟨h1, h2⟩ := takeWhile_no_dot (natText_ne_dot (n / 10 ^ s))
    rw [hf] at hfrac
    rw [append_nil, h1, h2]
    simp only [hds, Option.map_some, hv]
    rw [← hsum, ← hfrac]
    simp [fracValue]
  · obtain ⟨h1, h2⟩ := takeWhile_append_dot (natText_ne_dot (n / 10 ^ s))
      ((stripZeros (padDigits s (n % 10 ^ s))).map digitChar)
    have hr : readDigits ((stripZeros (padDigits s (n % 10 ^ s))).map digitChar) =
        some (stripZeros (padDigits s (n % 10 ^ s))) := by
      unfold readDigits
      rw [if_neg (by simpa using hf), mapM_digit? fun d hd => lt_of_mem_padDigits (stripZeros_subset hd)]
    rw [h1, h2]
    simp only [hds, hr, Option.bind_eq_bind, Option.bind_some, hv, hfrac, hsum]

theorem natText_ne_minus (n : Nat) (rest : List Char) : (natText n ++ rest).head? ≠ some '-' := by
  obtain ⟨ds, hds, -, e⟩ := readDigits_natText n
  rw [e] at hds ⊢
  cases ds with
  | nil => cases hds
  | cons d ds =>
    intro h
    exact digitChar_ne rfl d (Option.some.inj h)

theorem readDecimal_text (x : Scaled s) : readDecimal x.text.toList = some x.value := by
  unfold Scaled.text Scaled.value
  rw [String.toList_ofList]
  have hread := readUnsigned_text x.units.natAbs s
  by_cases h : x.units < 0
  · rw [if_pos h, singleton_append, cons_append]
    show (readUnsigned _).map (- ·) = _
    rw [hread, Option.map_some]
    have hq : ((x.units.natAbs : Nat) : ℚ) = -(x.units : ℚ) := by
      rw [Nat.cast_natAbs, Int.cast_abs, abs_of_neg (by exact_mod_cast h)]
    rw [hq, neg_div, neg_neg]
  · rw [if_neg h, nil_append]
    have hq : ((x.units.natAbs : Nat) : ℚ) = (x.units : ℚ) := by
      rw [Nat.cast_natAbs, abs_of_nonneg (by exact_mod_cast not_lt.mp h)]
    rw [hq] at hread
    rw [← hread]
    unfold readDecimal
    split
    · rename_i rest e
      have := natText_ne_minus (x.units.natAbs / 10 ^ s) (if stripZeros (padDigits s (x.units.natAbs % 10 ^ s)) = [] then []
        else '.' :: (stripZeros (padDigits s (x.units.natAbs % 10 ^ s))).map digitChar)
      rw [e] at this
      exact absurd rfl this
    · rfl

theorem Scaled.ofRat_value (x : Scaled s) : Scaled.ofRat s x.value = x := by
  have hfloor : ∀ n : Int, ⌊(n : ℚ) + 1 / 2⌋ = n := by
    intro n
    rw [Int.floor_eq_iff]
    constructor <;> linarith
  unfold Scaled.ofRat Scaled.value
  split
  · have e : -((x.units : ℚ) / 10 ^ s) * 10 ^ s + 1 / 2 = ((-x.units : Int) : ℚ) + 1 / 2 := by
      push_cast
      field_simp
    rw [e, hfloor, neg_neg]
  · have e : (x.units : ℚ) / 10 ^ s * 10 ^ s + 1 / 2 = (x.units : ℚ) + 1 / 2 := by field_simp
    rw [e, hfloor]

/-- `new Prisma.Decimal(text)` stored in a column of scale `s`. -/
def readScaled (s : Nat) (text : String) : Option (Scaled s) :=
  (readDecimal text.toList).map (Scaled.ofRat s)

/-- **A stored value is read back from its own text.** -/
theorem readScaled_text (x : Scaled s) : readScaled s x.text = some x := by
  unfold readScaled
  rw [readDecimal_text, Option.map_some, Scaled.ofRat_value]

theorem trim_text_ne_empty (x : Scaled s) : trim x.text ≠ "" := by
  have hmem : ∃ n, digitChar n ∈ x.text.toList := by
    obtain ⟨ds, hds, -, e⟩ := readDigits_natText (x.units.natAbs / 10 ^ s)
    cases ds with
    | nil =>
      rw [e] at hds
      cases hds
    | cons d ds =>
      refine ⟨d, ?_⟩
      unfold Scaled.text
      rw [String.toList_ofList, e]
      simp
  obtain ⟨n, hn⟩ := hmem
  intro e
  refine trimChars_ne_nil hn (isJsSpace_digitChar n) ?_
  rw [← String.toList_ofList (l := trimChars x.text.toList)]
  exact congrArg String.toList e

end AdsManagement.Common
