/-
  File:      Lib/Election.lean
  Subject:   ELECTIONS: `ORDER BY rank DESC LIMIT 1` over rows that may tie.

  A database answers such a query with SOME row of greatest rank; among equals the choice is
  its own. An election is therefore any function with that property, and a statement about
  the query is a statement about every election.

  * `elect_eq_some_iff_forall` -- every election returns `x` exactly when `x` outranks every
    other candidate strictly.
-/
import Mathlib.Data.List.MinMax
import Mathlib.Data.Prod.Lex

namespace AdsManagement.Lib

variable {α β : Type} [LinearOrder β]

/-- `x` may be answered: no candidate ranks above it. -/
structure IsTop (rank : α → β) (l : List α) (x : α) : Prop where
  mem : x ∈ l
  le : ∀ y ∈ l, rank y ≤ rank x

/-- A way to answer the query. -/
structure Elects (rank : α → β) (elect : List α → Option α) : Prop where
  top : ∀ l x, elect l = some x → IsTop rank l x
  found : ∀ l, l ≠ [] → ∃ x, elect l = some x

/-- `x` outranks every other candidate. -/
def Leads (rank : α → β) (l : List α) (x : α) : Prop := x ∈ l ∧ ∀ y ∈ l, y ≠ x → rank y < rank x

instance [DecidableEq α] (rank : α → β) (l : List α) (x : α) : Decidable (Leads rank l x) :=
  inferInstanceAs (Decidable (x ∈ l ∧ ∀ y ∈ l, y ≠ x → rank y < rank x))

/-- `List.argmax` is an election: among equals it answers the first one of the list. -/
theorem elects_argmax (rank : α → β) : Elects rank (List.argmax rank) where
  top l x h := ⟨List.argmax_mem h, fun _ hy => List.le_of_mem_argmax hy h⟩
  found l hl := by
    cases h : List.argmax rank l with
    | none => exact absurd (List.argmax_eq_none.mp h) hl
    | some x => exact ⟨x, rfl⟩

variable {rank : α → β} {elect : List α → Option α} {l : List α} {x : α}

/-- A leader is what every election answers. -/
theorem Leads.elect_eq (hx : Leads rank l x) (h : Elects rank elect) : elect l = some x := by
  obtain ⟨y, hy⟩ := h.found l (List.ne_nil_of_mem hx.1)
  by_cases e : y = x
  · rw [hy, e]
  · have h1 := (h.top l y hy).le x hx.1
    exact absurd (hx.2 y (h.top l y hy).mem e) (not_lt.mpr h1)

/-- An election may be changed at one list to answer any row of greatest rank there. -/
theorem Elects.exists_answer (hx : IsTop rank l x) :
    ∃ elect : List α → Option α, Elects rank elect ∧ elect l = some x := by
  classical
  refine ⟨fun m => if m = l then some x else List.argmax rank m, ⟨?_, ?_⟩, if_pos rfl⟩
  · intro m y hm
    split at hm
    · next e => cases hm; rw [e]; exact hx
    · exact (elects_argmax rank).top m y hm
  · intro m hm
    split
    · exact ⟨x, rfl⟩
    · exact (elects_argmax rank).found m hm

/-- **The answer is forced only for a leader**: every election returns `x` exactly when `x`
    outranks every other candidate strictly. -/
theorem elect_eq_some_iff_forall :
    (∀ elect : List α → Option α, Elects rank elect → elect l = some x) ↔ Leads rank l x := by
  refine ⟨fun h => ?_, fun hx elect he => hx.elect_eq he⟩
  have hx := (elects_argmax rank).top l x (h _ (elects_argmax rank))
  refine ⟨hx.mem, fun y hy hne => lt_of_le_of_ne (hx.le y hy) fun e => hne ?_⟩
  have hy' : IsTop rank l y := ⟨hy, fun z hz => e ▸ hx.le z hz⟩
  obtain ⟨elect, he, hl⟩ := Elects.exists_answer hy'
  exact Option.some.inj (hl.symm.trans (h elect he))

end AdsManagement.Lib
