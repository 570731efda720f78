/-
  File:      Lib/Runs.lean
  Subject:   RUNS OF A STATE MACHINE and the runs whose steps all meet a condition.

  * `Reachable init step` -- the states that some sequence of steps leads to;
  * `Reachable.invariant` -- what holds at first and is kept by a step holds in every one of them;
  * `When step cond` -- the steps taken only under a condition on the state before and after;
  * `update_cases` -- what is said of a process after one of them has moved.
-/
import Mathlib.Logic.Function.Basic
import Mathlib.Logic.Relation

namespace AdsManagement.Lib

variable {σ : Type*} {init : σ → Prop} {step step' cond : σ → σ → Prop}

inductive Reachable (init : σ → Prop) (step : σ → σ → Prop) : σ → Prop
  | start {s : σ} (h : init s) : Reachable init step s
  | next {s t : σ} (hr : Reachable init step s) (hs : step s t) : Reachable init step t

/-- **The invariant rule.** -/
theorem Reachable.invariant {I : σ → Prop} (h0 : ∀ s, init s → I s)
    (hs : ∀ s s', I s → step s s' → I s') {s : σ} (h : Reachable init step s) : I s := by
  induction h with
  | start h => exact h0 _ h
  | next _ hstep ih => exact hs _ _ ih hstep

/-- Steps that are taken only under a condition. -/
def When (step cond : σ → σ → Prop) (s s' : σ) : Prop := step s s' ∧ cond s s'

/-- A run under a condition is a run. -/
theorem Reachable.of_when {s : σ} (h : Reachable init (When step cond) s) : Reachable init step s := by
  induction h with
  | start h => exact .start h
  | next _ hstep ih => exact ih.next hstep.1

/-- One process has moved: what holds of a process is about that one, or held before. -/
theorem update_cases {π α : Type*} [DecidableEq π] {f : π → α} {p q : π} {a : α} (P : α → Prop)
    (h : P (Function.update f p a q)) : q = p ∧ P a ∨ q ≠ p ∧ P (f q) :=
  (Function.pred_update (fun _ x => P x) f p a q).mp h

theorem update_reads {π α β : Type*} [DecidableEq π] {f : π → α} {p q : π} {a : α} {b : β} (read : α → β)
    (h : read (Function.update f p a q) = b) : q = p ∧ read a = b ∨ q ≠ p ∧ read (f q) = b :=
  update_cases (read · = b) h

theorem update_eq_cases {π α : Type*} [DecidableEq π] {f : π → α} {p q : π} {a b : α}
    (h : Function.update f p a q = b) : q = p ∧ a = b ∨ q ≠ p ∧ f q = b :=
  update_cases (· = b) h

/-- A process in another phase than the one that moves stays where it is. -/
theorem update_other {π α : Type*} [DecidableEq π] {f : π → α} {p q : π} {x y a : α} (hp : f p = x)
    (hq : f q = y) (hne : x ≠ y) : Function.update f q a p = f p := by
  refine Function.update_of_ne ?_ a f
  rintro rfl
  exact hne (hp.symm.trans hq)

end AdsManagement.Lib
