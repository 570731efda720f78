/-
  File:      Common/Patterns.lean
  Subject:   THE PATTERNS OF IDS, DIGESTS AND TOKENS that the services match texts against.
-/
import Mathlib.Data.List.Basic

namespace AdsManagement.Common

/-- `[0-9a-f]`. -/
def isLowerHex (c : Char) : Bool := c.isDigit || ('a' ≤ c && c ≤ 'f')

/-- `[0-9a-f]` in either case. -/
def isHex (c : Char) : Bool := isLowerHex c || ('A' ≤ c && c ≤ 'F')

/-- `[A-Za-z0-9_-]`. -/
def isBase64Url (c : Char) : Bool := c.isAlphanum || c = '_' || c = '-'

/-- A uuid in either case whose version is one of those given. -/
def isUuid (versions : List Char) (s : String) : Bool :=
  match s.toList.splitOn '-' with
  | [a, b, c, d, e] =>
    [a, b, c, d, e].map List.length = [8, 4, 4, 4, 12] && [a, b, c, d, e].all (·.all isHex) &&
      c.head?.any (· ∈ versions) && d.head?.any (· ∈ ['8', '9', 'a', 'b', 'A', 'B'])
  | _ => false

/-- `n` characters of `[A-Za-z0-9_-]`. -/
def isBase64UrlOf (n : Nat) (s : String) : Bool := s.toList.length = n && s.toList.all isBase64Url

/-- The first place of a text at which a pattern matches. -/
def firstMatch {α : Type} (pattern : List Char → Option α) : List Char → Option α
  | [] => pattern []
  | c :: rest => (pattern (c :: rest)).or (firstMatch pattern rest)

/-- What a search has found, the pattern matches somewhere. -/
theorem firstMatch_eq_some {α : Type} {pattern : List Char → Option α} {l : List Char} {a : α}
    (h : firstMatch pattern l = some a) : ∃ before rest, l = before ++ rest ∧ pattern rest = some a := by
  induction l with
  | nil => exact ⟨[], [], rfl, h⟩
  | cons c l ih =>
    rcases Option.or_eq_some_iff.mp h with h | ⟨-, h⟩
    · exact ⟨[], c :: l, rfl, h⟩
    · obtain ⟨before, rest, rfl, hp⟩ := ih h
      exact ⟨c :: before, rest, rfl, hp⟩

theorem dot_not_mem_of_all {p : Char → Bool} (hp : p '.' = false) {l : List Char} (h : l.all p = true) :
    '.' ∉ l := by
  intro hmem
  rw [List.all_eq_true] at h
  have := h _ hmem
  rw [hp] at this
  cases this

end AdsManagement.Common
