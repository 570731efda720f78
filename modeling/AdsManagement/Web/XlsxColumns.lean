/-
  File:      Web/XlsxColumns.lean
  Subject:   COLUMN LETTERS: `columnName` of the workbook writer (web lib/xlsx.ts) and
             `columnNumber` of the upload checker (file-security/upload-preflight.ts).

  Numbers are exact, as the doubles of the source are up to 2^53. The checker's pattern passes
  ASCII letters only, on which `toUpperCase` is `Char.toUpper`.

  * `nameFrom_eq` -- a turn of the writer's loop puts the last letter in front of those it has;
  * `numberFrom_lt` -- the higher number stays the higher one behind letters of equal number;
  * `column_letters_inverse` -- the two functions undo each other and keep the order.
-/
import Mathlib.Data.Bool.AllAny
import Mathlib.Data.List.Induction
import Mathlib.Data.String.Basic
import Mathlib.Tactic.IntervalCases

namespace AdsManagement.Web

open List

/-! ## 1. The two functions -/

/-- The `while` loop of `columnName`. -/
def nameFrom (index : Nat) (name : List Char) : List Char :=
  if 0 < index then
    let modulo := (index - 1) % 26
    nameFrom ((index - modulo) / 26) (Char.ofNat (65 + modulo) :: name)
  else name
termination_by index
decreasing_by omega

def columnName (column : Nat) : String := String.ofList (nameFrom column [])

/-- The `for` loop of `columnNumber`, from a value on. -/
def numberFrom (value : Int) (letters : List Char) : Int :=
  letters.foldl (fun value letter => value * 26 + letter.toNat - 64) value

def columnNumber (letters : String) : Int := numberFrom 0 (letters.toList.map Char.toUpper)

/-- The letters `A` to `Z`. -/
def IsColumnLetter (c : Char) : Prop := 65 ≤ c.toNat ∧ c.toNat ≤ 90

instance (c : Char) : Decidable (IsColumnLetter c) :=
  inferInstanceAs (Decidable (65 ≤ c.toNat ∧ c.toNat ≤ 90))

/-! ## 2. Letter by letter -/

variable {s t : List Char} {c : Char}

theorem numberFrom_append (value : Int) (s t : List Char) :
    numberFrom value (s ++ t) = numberFrom (numberFrom value s) t := foldl_append

theorem numberFrom_cons (value : Int) (c : Char) (s : List Char) :
    numberFrom value (c :: s) = numberFrom (value * 26 + c.toNat - 64) s := rfl

theorem toNat_letter {m : Nat} (h : m < 26) : (Char.ofNat (65 + m)).toNat = 65 + m := by
  interval_cases m <;> rfl

theorem ofNat_letter (h : IsColumnLetter c) : Char.ofNat (65 + (c.toNat - 65)) = c := by
  have h65 := h.1
  rw [show 65 + (c.toNat - 65) = c.toNat by omega, Char.ofNat_toNat]

theorem map_toUpper (hs : ∀ c ∈ s, IsColumnLetter c) : s.map Char.toUpper = s := by
  refine (map_congr_left fun c hc => ?_).trans (map_id s)
  have hle := (hs c hc).2
  unfold Char.toUpper
  exact dif_neg fun h => by
    have : 97 ≤ c.toNat := h.1
    omega

/-- What follows the loop does not depend on what it started with. -/
theorem nameFrom_eq (n : Nat) (name : List Char) : nameFrom n name = nameFrom n [] ++ name := by
  induction n using Nat.strongRecOn generalizing name with
  | ind n ih =>
    rw [nameFrom, nameFrom.eq_def n []]
    split
    · rw [ih _ (by omega), ih _ (by omega) [_], append_assoc]
      rfl
    · rfl

/-- **The last letter is the remainder, those before it are the name of the quotient.** -/
theorem nameFrom_step (q : Nat) {m : Nat} (h : m < 26) :
    nameFrom (26 * q + m + 1) [] = nameFrom q [] ++ [Char.ofNat (65 + m)] := by
  rw [nameFrom, if_pos (by omega)]
  have hm : (26 * q + m + 1 - 1) % 26 = m := by omega
  have hq : (26 * q + m + 1 - m) / 26 = q := by omega
  simp only [hm, hq]
  exact nameFrom_eq q _

theorem nameFrom_letters (n : Nat) :
    (∀ c ∈ nameFrom n [], IsColumnLetter c) ∧ numberFrom 0 (nameFrom n []) = n := by
  induction n using Nat.strongRecOn with
  | ind n ih =>
    rcases Nat.eq_zero_or_pos n with rfl | hn
    · rw [nameFrom]
      exact ⟨nofun, rfl⟩
    · have hm : (n - 1) % 26 < 26 := Nat.mod_lt _ (by decide)
      obtain ⟨hletters, hnumber⟩ := ih ((n - 1) / 26) (by omega)
      have hc := toNat_letter hm
      have hn' : n = 26 * ((n - 1) / 26) + (n - 1) % 26 + 1 := by omega
      rw [hn', nameFrom_step _ hm]
      constructor
      · intro c h
        rcases mem_append.mp h with h | h
        · exact hletters c h
        · rw [mem_singleton.mp h]
          exact ⟨by omega, by omega⟩
      · rw [numberFrom_append, hnumber]
        show ((n - 1) / 26 : Nat) * 26 + ((Char.ofNat (65 + (n - 1) % 26)).toNat : Int) - 64 = _
        rw [hc]
        omega

theorem nameFrom_number (hs : ∀ c ∈ s, IsColumnLetter c) :
    0 ≤ numberFrom 0 s ∧ nameFrom (numberFrom 0 s).toNat [] = s := by
  induction s using List.reverseRecOn with
  | nil =>
    refine ⟨Int.le_refl 0, ?_⟩
    rw [nameFrom]
    rfl
  | append_singleton s c ih =>
    obtain ⟨h0, hname⟩ := ih fun c hc => hs c (mem_append_left _ hc)
    have hc := hs c (mem_append_right _ (mem_singleton_self c))
    have h65 := hc.1
    have h90 := hc.2
    have hlast : numberFrom 0 (s ++ [c]) = numberFrom 0 s * 26 + c.toNat - 64 := numberFrom_append 0 s [c]
    have hsplit : (numberFrom 0 (s ++ [c])).toNat = 26 * (numberFrom 0 s).toNat + (c.toNat - 65) + 1 := by
      omega
    refine ⟨by omega, ?_⟩
    rw [hsplit, nameFrom_step _ (by omega), hname, ofNat_letter hc]

/-! ## 3. The order -/

/-- A lead is kept over letters of equal number. -/
theorem numberFrom_lt {a b : Int} (h : a < b) (hs : ∀ c ∈ s, IsColumnLetter c)
    (ht : ∀ c ∈ t, IsColumnLetter c) (hlen : s.length = t.length) : numberFrom a s < numberFrom b t := by
  induction s generalizing a b t with
  | nil =>
    cases t with
    | nil => exact h
    | cons d t => cases hlen
  | cons c s ih =>
    cases t with
    | nil => cases hlen
    | cons d t =>
      have hc := (hs c mem_cons_self).2
      have hd := (ht d mem_cons_self).1
      rw [numberFrom_cons, numberFrom_cons]
      exact ih (by omega) (fun x hx => hs x (mem_cons_of_mem _ hx))
        (fun x hx => ht x (mem_cons_of_mem _ hx)) (Nat.succ.inj hlen)

theorem numberFrom_lt_of_lex (a : Int) (hs : ∀ c ∈ s, IsColumnLetter c)
    (ht : ∀ c ∈ t, IsColumnLetter c) (hlen : s.length = t.length) (h : s < t) :
    numberFrom a s < numberFrom a t := by
  induction h generalizing a with
  | nil => cases hlen
  | @rel c s d t hcd =>
    have hlt : c.toNat < d.toNat := hcd
    rw [numberFrom_cons, numberFrom_cons]
    exact numberFrom_lt (by omega) (fun x hx => hs x (mem_cons_of_mem _ hx))
      (fun x hx => ht x (mem_cons_of_mem _ hx)) (Nat.succ.inj hlen)
  | @cons c s t _ ih =>
    exact ih _ (fun x hx => hs x (mem_cons_of_mem _ hx)) (fun x hx => ht x (mem_cons_of_mem _ hx))
      (Nat.succ.inj hlen)

/-- **The shorter name has the lower number**: behind the surplus letters of the other the lead
    is at least one. -/
theorem numberFrom_lt_of_length (hs : ∀ c ∈ s, IsColumnLetter c) (ht : ∀ c ∈ t, IsColumnLetter c)
    (hlen : s.length < t.length) : numberFrom 0 s < numberFrom 0 t := by
  have hfront := fun c hc => ht c (mem_of_mem_take (i := t.length - s.length) hc)
  have hlead : 0 < numberFrom 0 (t.take (t.length - s.length)) := by
    obtain ⟨h0, hname⟩ := nameFrom_number hfront
    refine lt_of_le_of_ne h0 fun e => ?_
    rw [← e, nameFrom] at hname
    have := congrArg length hname
    rw [length_take] at this
    simp at this
    omega
  rw [← take_append_drop (t.length - s.length) t, numberFrom_append]
  refine numberFrom_lt hlead hs (fun c hc => ht c (mem_of_mem_drop hc)) ?_
  rw [length_drop]
  omega

/-! ## 4. The result -/

/-- Shorter names come first, names of one length stand in the order of the alphabet. -/
def NameBefore (a b : String) : Prop := a.length < b.length ∨ a.length = b.length ∧ a < b

theorem nameBefore_or {a b : String} (h : a ≠ b) : NameBefore a b ∨ NameBefore b a := by
  rcases Nat.lt_trichotomy a.length b.length with hl | hl | hl
  · exact .inl (.inl hl)
  · rcases lt_or_gt_of_ne h with hs | hs
    · exact .inl (.inr ⟨hl, hs⟩)
    · exact .inr (.inr ⟨hl.symm, hs⟩)
  · exact .inr (.inl hl)

theorem columnName_before {m n : Nat} (h : NameBefore (columnName m) (columnName n)) : m < n := by
  obtain ⟨hm, em⟩ := nameFrom_letters m
  obtain ⟨hn, en⟩ := nameFrom_letters n
  unfold NameBefore columnName at h
  rw [String.length_ofList, String.length_ofList, String.lt_iff, String.toList_ofList,
    String.toList_ofList] at h
  have hlt : numberFrom 0 (nameFrom m []) < numberFrom 0 (nameFrom n []) := by
    rcases h with hlen | ⟨hlen, hlex⟩
    · exact numberFrom_lt_of_length hm hn hlen
    · exact numberFrom_lt_of_lex 0 hm hn hlen hlex
  omega

theorem columnName_inj {m n : Nat} (h : columnName m = columnName n) : m = n := by
  have hm := (nameFrom_letters m).2
  have hn := (nameFrom_letters n).2
  rw [String.ofList_injective h] at hm
  omega

/-- **Column letters and numbers undo each other, and names stand in the order of the numbers.** -/
theorem column_letters_inverse :
    (∀ n, (∀ c ∈ (columnName n).toList, IsColumnLetter c) ∧ columnNumber (columnName n) = n) ∧
    (∀ s : String, (∀ c ∈ s.toList, IsColumnLetter c) →
      0 ≤ columnNumber s ∧ columnName (columnNumber s).toNat = s) ∧
    (∀ m n, columnName m = columnName n → m = n) ∧
    ∀ m n, m < n ↔ NameBefore (columnName m) (columnName n) := by
  refine ⟨fun n => ?_, fun s hs => ?_, fun m n => columnName_inj, fun m n => ?_⟩
  · obtain ⟨hletters, hnumber⟩ := nameFrom_letters n
    unfold columnName columnNumber
    rw [String.toList_ofList, map_toUpper hletters]
    exact ⟨hletters, hnumber⟩
  · obtain ⟨h0, hname⟩ := nameFrom_number hs
    unfold columnName columnNumber
    rw [map_toUpper hs, hname, String.ofList_toList]
    exact ⟨h0, rfl⟩
  · refine ⟨fun hlt => ?_, columnName_before⟩
    rcases nameBefore_or fun e => hlt.ne (columnName_inj e) with h | h
    · exact h
    · exact absurd (columnName_before h) hlt.asymm

/-- The column after `Z`. -/
theorem column_letters_inverse_twentySeven :
    columnNumber (columnName 27) = 27 ∧ columnName (columnNumber "AA").toNat = "AA" := by
  obtain ⟨hnumber, hname, -, -⟩ := column_letters_inverse
  exact ⟨(hnumber 27).2, (hname "AA" (all_iff_forall_prop.mp (by decide))).2⟩

end AdsManagement.Web
