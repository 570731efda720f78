/-
  File:      Lib/Regex.lean
  Subject:   REGULAR EXPRESSIONS over pieces of any kind: the tree, the text it is written as,
             and the runs through a word.

  A piece matches between two positions of a word (a literal, a class, a place); what the
  pieces are and when they match is handed in. A tree follows the grammar of the text, so
  that groups and precedence need no brackets of their own.

  * `Disjunction.run_map` -- pieces that match alike may stand for each other;
  * `Disjunction.text_map` -- the text of a tree whose pieces are rewritten.
-/
import Mathlib.Data.List.Basic

namespace AdsManagement.Lib.Regex

open List

/-! ## 1. Trees -/

/-- How often an atom may stand. -/
inductive Count where
  | star
  | plus
  | opt
  | exactly (n : Nat)
  | atLeast (n : Nat)
  | between (n m : Nat)

def Count.allows : Count → Nat → Prop
  | star, _ => True
  | plus, k => 1 ≤ k
  | opt, k => k ≤ 1
  | exactly n, k => k = n
  | atLeast n, k => n ≤ k
  | between n m, k => n ≤ k ∧ k ≤ m

structure Quantifier where
  count : Count
  isLazy : Bool

mutual

inductive Atom (σ : Type) where
  | piece (s : σ)
  | group (capturing : Bool) (d : Disjunction σ)

inductive Alternative (σ : Type) where
  | empty
  | cons (a : Atom σ) (q : Option Quantifier) (rest : Alternative σ)

inductive Disjunction (σ : Type) where
  | last (a : Alternative σ)
  | or (a : Alternative σ) (rest : Disjunction σ)

end

variable {σ τ α : Type}

mutual

def Atom.pieces : Atom σ → List σ
  | .piece s => [s]
  | .group _ d => d.pieces

def Alternative.pieces : Alternative σ → List σ
  | .empty => []
  | .cons a _ rest => a.pieces ++ rest.pieces

def Disjunction.pieces : Disjunction σ → List σ
  | .last a => a.pieces
  | .or a rest => a.pieces ++ rest.pieces

end

mutual

def Atom.map (f : σ → τ) : Atom σ → Atom τ
  | .piece s => .piece (f s)
  | .group capturing d => .group capturing (d.map f)

def Alternative.map (f : σ → τ) : Alternative σ → Alternative τ
  | .empty => .empty
  | .cons a q rest => .cons (a.map f) q (rest.map f)

def Disjunction.map (f : σ → τ) : Disjunction σ → Disjunction τ
  | .last a => .last (a.map f)
  | .or a rest => .or (a.map f) (rest.map f)

end

/-! ## 2. Texts -/

def Count.text : Count → List Char
  | star => ['*']
  | plus => ['+']
  | opt => ['?']
  | exactly n => '{' :: (Nat.toDigits 10 n ++ ['}'])
  | atLeast n => '{' :: (Nat.toDigits 10 n ++ [',', '}'])
  | between n m => '{' :: (Nat.toDigits 10 n ++ ',' :: (Nat.toDigits 10 m ++ ['}']))

def Quantifier.text (q : Quantifier) : List Char := q.count.text ++ if q.isLazy then ['?'] else []

mutual

def Atom.text (spell : σ → List Char) : Atom σ → List Char
  | .piece s => spell s
  | .group capturing d => '(' :: ((if capturing then [] else ['?', ':']) ++ (d.text spell ++ [')']))

def Alternative.text (spell : σ → List Char) : Alternative σ → List Char
  | .empty => []
  | .cons a q rest => a.text spell ++ ((q.map Quantifier.text).getD [] ++ rest.text spell)

def Disjunction.text (spell : σ → List Char) : Disjunction σ → List Char
  | .last a => a.text spell
  | .or a rest => a.text spell ++ '|' :: rest.text spell

end

/-- The characters of the operators. -/
def IsOperatorChar (c : Char) : Prop := c.isDigit = true ∨ c ∈ ['(', ')', '|', '?', ':', '*', '+', '{', '}', ',']

section
variable {g : Char → Char} (hg : ∀ c, IsOperatorChar c → g c = c)
include hg

theorem map_toDigits (n : Nat) : (Nat.toDigits 10 n).map g = Nat.toDigits 10 n := by
  have hfix : ∀ c ∈ Nat.toDigits 10 n, g c = id c := fun c hc =>
    hg c (.inl (Nat.isDigit_of_mem_toDigits (by decide) (by decide) hc))
  rw [map_congr_left hfix, map_id]

theorem Quantifier.text_fixed (q : Quantifier) : q.text.map g = q.text := by
  have hop : ∀ c ∈ ['(', ')', '|', '?', ':', '*', '+', '{', '}', ','], g c = c := fun c hc =>
    hg c (.inr hc)
  obtain ⟨count, isLazy⟩ := q
  have hcount : count.text.map g = count.text := by
    cases count <;> simp [Count.text, map_toDigits hg, hop]
  unfold text
  rw [map_append, hcount]
  cases isLazy <;> simp [hop]

variable {spell : τ → List Char} {spell' : σ → List Char} {f : σ → τ}

mutual

theorem Atom.text_map (a : Atom σ) (h : ∀ s ∈ a.pieces, spell (f s) = (spell' s).map g) :
    (a.map f).text spell = (a.text spell').map g := by
  cases a with
  | piece s => exact h s (by simp [Atom.pieces])
  | group capturing d =>
    have hop : ∀ c ∈ ['(', ')', '|', '?', ':', '*', '+', '{', '}', ','], g c = c := fun c hc =>
      hg c (.inr hc)
    have hd := Disjunction.text_map d h
    unfold Atom.map Atom.text
    rw [hd]
    cases capturing <;> simp [hop]

theorem Alternative.text_map (a : Alternative σ) (h : ∀ s ∈ a.pieces, spell (f s) = (spell' s).map g) :
    (a.map f).text spell = (a.text spell').map g := by
  cases a with
  | empty => rfl
  | cons atom q rest =>
    have hatom := Atom.text_map atom fun s hs => h s (mem_append_left _ hs)
    have hrest := Alternative.text_map rest fun s hs => h s (mem_append_right _ hs)
    unfold Alternative.map Alternative.text
    rw [hatom, hrest, map_append, map_append]
    cases q with
    | none => rfl
    | some q =>
      rw [Option.map_some, Option.getD_some, Quantifier.text_fixed hg]

theorem Disjunction.text_map (d : Disjunction σ) (h : ∀ s ∈ d.pieces, spell (f s) = (spell' s).map g) :
    (d.map f).text spell = (d.text spell').map g := by
  cases d with
  | last a => exact Alternative.text_map a h
  | or a rest =>
    have ha := Alternative.text_map a fun s hs => h s (mem_append_left _ hs)
    have hrest := Disjunction.text_map rest fun s hs => h s (mem_append_right _ hs)
    unfold Disjunction.map Disjunction.text
    rw [ha, hrest, map_append, map_cons, hg '|' (.inr (by simp))]

end

end

/-! ## 3. Runs -/

/-- A relation taken `k` times. -/
def Iterate (r : Nat → Nat → Prop) : Nat → Nat → Nat → Prop
  | 0, i, j => i = j
  | k + 1, i, j => ∃ m, r i m ∧ Iterate r k m j

def Repeats (q : Option Quantifier) (r : Nat → Nat → Prop) (i j : Nat) : Prop :=
  match q with
  | none => r i j
  | some q => ∃ k, q.count.allows k ∧ Iterate r k i j

theorem Iterate.congr {r s : Nat → Nat → Prop} (h : ∀ i j, r i j ↔ s i j) {k i j : Nat} :
    Iterate r k i j ↔ Iterate s k i j := by
  induction k generalizing i with
  | zero => exact Iff.rfl
  | succ k ih =>
    constructor
    · rintro ⟨m, hm, hrest⟩
      exact ⟨m, (h i m).mp hm, ih.mp hrest⟩
    · rintro ⟨m, hm, hrest⟩
      exact ⟨m, (h i m).mpr hm, ih.mpr hrest⟩

theorem Repeats.congr {r s : Nat → Nat → Prop} (h : ∀ i j, r i j ↔ s i j) (q : Option Quantifier)
    {i j : Nat} : Repeats q r i j ↔ Repeats q s i j := by
  cases q with
  | none => exact h i j
  | some q =>
    constructor
    · rintro ⟨k, hk, hrun⟩
      exact ⟨k, hk, (Iterate.congr h).mp hrun⟩
    · rintro ⟨k, hk, hrun⟩
      exact ⟨k, hk, (Iterate.congr h).mpr hrun⟩

mutual

/-- A piece matches a word between two positions. -/
def Atom.Run (step : σ → List α → Nat → Nat → Prop) (w : List α) : Atom σ → Nat → Nat → Prop
  | .piece s, i, j => step s w i j
  | .group _ d, i, j => d.Run step w i j

def Alternative.Run (step : σ → List α → Nat → Nat → Prop) (w : List α) : Alternative σ → Nat → Nat → Prop
  | .empty, i, j => i = j
  | .cons a q rest, i, j => ∃ m, Repeats q (a.Run step w) i m ∧ rest.Run step w m j

def Disjunction.Run (step : σ → List α → Nat → Nat → Prop) (w : List α) : Disjunction σ → Nat → Nat → Prop
  | .last a, i, j => a.Run step w i j
  | .or a rest, i, j => a.Run step w i j ∨ rest.Run step w i j

end

/-- The word has a match somewhere. -/
def Disjunction.Search (step : σ → List α → Nat → Nat → Prop) (d : Disjunction σ) (w : List α) : Prop :=
  ∃ i j, i ≤ w.length ∧ d.Run step w i j

section
variable {step : τ → List α → Nat → Nat → Prop} {step' : σ → List α → Nat → Nat → Prop} {f : σ → τ}
variable {w : List α}

mutual

theorem Atom.run_map (a : Atom σ) (h : ∀ s ∈ a.pieces, ∀ i j, step (f s) w i j ↔ step' s w i j)
    (i j : Nat) : (a.map f).Run step w i j ↔ a.Run step' w i j := by
  cases a with
  | piece s => exact h s (by simp [Atom.pieces]) i j
  | group capturing d => exact Disjunction.run_map d h i j

theorem Alternative.run_map (a : Alternative σ)
    (h : ∀ s ∈ a.pieces, ∀ i j, step (f s) w i j ↔ step' s w i j) (i j : Nat) :
    (a.map f).Run step w i j ↔ a.Run step' w i j := by
  cases a with
  | empty => exact Iff.rfl
  | cons atom q rest =>
    have hatom := Atom.run_map atom fun s hs => h s (mem_append_left _ hs)
    have hrest := Alternative.run_map rest fun s hs => h s (mem_append_right _ hs)
    constructor
    · rintro ⟨m, hm, hrun⟩
      exact ⟨m, (Repeats.congr hatom q).mp hm, (hrest m j).mp hrun⟩
    · rintro ⟨m, hm, hrun⟩
      exact ⟨m, (Repeats.congr hatom q).mpr hm, (hrest m j).mpr hrun⟩

/-- **Pieces that match alike may stand for each other.** -/
theorem Disjunction.run_map (d : Disjunction σ)
    (h : ∀ s ∈ d.pieces, ∀ i j, step (f s) w i j ↔ step' s w i j) (i j : Nat) :
    (d.map f).Run step w i j ↔ d.Run step' w i j := by
  cases d with
  | last a => exact Alternative.run_map a h i j
  | or a rest =>
    have ha := Alternative.run_map a fun s hs => h s (mem_append_left _ hs)
    have hrest := Disjunction.run_map rest fun s hs => h s (mem_append_right _ hs)
    exact or_congr (ha i j) (hrest i j)

end

theorem Disjunction.search_map (d : Disjunction σ)
    (h : ∀ s ∈ d.pieces, ∀ i j, step (f s) w i j ↔ step' s w i j) :
    (d.map f).Search step w ↔ d.Search step' w := by
  constructor
  · rintro ⟨i, j, hi, hrun⟩
    exact ⟨i, j, hi, (d.run_map h i j).mp hrun⟩
  · rintro ⟨i, j, hi, hrun⟩
    exact ⟨i, j, hi, (d.run_map h i j).mpr hrun⟩

end

end AdsManagement.Lib.Regex
