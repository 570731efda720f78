/-
  File:      Lib/Fallible.lean
  Subject:   FALLIBLE COMPUTATIONS: how a computation that returned is taken apart, and the
             invariant rule of a fallible fold.

  * `bind_eq_ok` -- a sequence returned when each part did;
  * `ite_error_eq_ok` -- a check that did not throw;
  * `mapM_eq_ok_iff` -- a loop returned the list of what its turns returned;
  * `Throws` -- what is known of the errors of a computation, part by part;
  * `foldlM_inv` -- what holds of the whole list and is kept by each element holds at the end.
-/
import Mathlib.Data.List.Basic

namespace AdsManagement.Lib

open List

variable {α β σ ε : Type}
variable {x : Except ε α} {f : α → Except ε β}

theorem bind_eq_ok {b : β} : (x >>= f) = .ok b ↔ ∃ a, x = .ok a ∧ f a = .ok b := by
  cases x with
  | error e => exact ⟨nofun, fun ⟨_, h, _⟩ => (nomatch h)⟩
  | ok a => exact ⟨fun h => ⟨a, rfl, h⟩, fun ⟨_, h, hf⟩ => by cases h; exact hf⟩

/-- A sequence returns when its first part does and the rest does after it. -/
theorem exists_bind_eq_ok {a : α} (hx : x = .ok a) (hf : ∃ b, f a = .ok b) : ∃ b, (x >>= f) = .ok b := by
  obtain ⟨b, hb⟩ := hf
  exact ⟨b, bind_eq_ok.mpr ⟨a, hx, hb⟩⟩

theorem map_eq_ok {f : α → β} {b : β} : x.map f = .ok b ↔ ∃ a, x = .ok a ∧ f a = b := by
  cases x with
  | error e => exact ⟨nofun, fun ⟨_, h, _⟩ => (nomatch h)⟩
  | ok a =>
    refine ⟨fun h => ⟨a, rfl, Except.ok.inj h⟩, fun ⟨_, h, hf⟩ => ?_⟩
    cases h
    rw [← hf]
    rfl

/-- A check that throws. -/
theorem ite_error_eq_ok {p : Prop} [Decidable p] {e : ε} {a : α} :
    (if p then .error e else x) = .ok a ↔ ¬ p ∧ x = .ok a := by
  by_cases hp : p
  · rw [if_pos hp]
    exact ⟨nofun, fun h => absurd hp h.1⟩
  · rw [if_neg hp]
    exact ⟨fun h => ⟨hp, h⟩, fun h => h.2⟩

/-- Every error of the computation has a property. -/
def Throws (P : ε → Prop) (x : Except ε α) : Prop := ∀ e, x = .error e → P e

theorem Throws.ok (P : ε → Prop) (a : α) : Throws P (.ok a) := nofun

variable {P : ε → Prop}

theorem Throws.error {e : ε} (h : P e) : Throws P (.error e : Except ε α) := by
  intro e' he
  cases he
  exact h

theorem Throws.bind (hx : Throws P x) (hf : ∀ a, Throws P (f a)) : Throws P (x >>= f) := by
  intro e he
  cases hc : x with
  | error e' =>
    rw [hc] at he
    cases he
    exact hx e hc
  | ok a =>
    rw [hc] at he
    exact hf a e he

theorem Throws.map {f : α → β} (hx : Throws P x) : Throws P (x.map f) := by
  intro e he
  cases hc : x with
  | error e' =>
    rw [hc] at he
    cases he
    exact hx e hc
  | ok a =>
    rw [hc] at he
    cases he

theorem mapM_eq_ok_iff {l : List α} {l' : List β} :
    l.mapM f = .ok l' ↔ Forall₂ (fun a b => f a = .ok b) l l' := by
  induction l generalizing l' with
  | nil =>
    refine ⟨fun h => ?_, fun h => ?_⟩
    · cases h
      exact Forall₂.nil
    · cases h
      rfl
  | cons a rest ih =>
    rw [mapM_cons, bind_eq_ok]
    constructor
    · intro ⟨b, hb, h⟩
      obtain ⟨bs, hbs, e⟩ := bind_eq_ok.mp h
      cases e
      exact Forall₂.cons hb (ih.mp hbs)
    · intro h
      cases h with
      | cons hb hrest => exact ⟨_, hb, bind_eq_ok.mpr ⟨_, ih.mpr hrest, rfl⟩⟩

theorem exists_mapM_eq_ok {l : List α} (h : ∀ a ∈ l, ∃ b, f a = .ok b) :
    ∃ l', l.mapM f = .ok l' := by
  induction l with
  | nil => exact ⟨[], rfl⟩
  | cons a rest ih =>
    obtain ⟨b, hb⟩ := h a (mem_cons_self ..)
    obtain ⟨bs, hbs⟩ := ih fun x hx => h x (mem_cons_of_mem _ hx)
    exact ⟨b :: bs, mapM_eq_ok_iff.mpr (.cons hb (mapM_eq_ok_iff.mp hbs))⟩

/-- What is known of every turn, read over the whole loop. -/
theorem map_eq_map_of_mapM_eq_ok {γ : Type} {p : β → γ} {q : α → γ} {l : List α} {l' : List β}
    (h : l.mapM f = .ok l') (hf : ∀ a ∈ l, ∀ b, f a = .ok b → p b = q a) :
    l'.map p = l.map q := by
  have hall := mapM_eq_ok_iff.mp h
  clear h
  induction hall with
  | nil => rfl
  | @cons a b as bs hab _ ih =>
    rw [map_cons, map_cons, hf a mem_cons_self b hab, ih fun x hx => hf x (mem_cons_of_mem _ hx)]

/-- **The invariant rule of a fallible fold.** The invariant speaks of the elements still to
    come. -/
theorem foldlM_inv {f : σ → α → Except ε σ} (I : List α → σ → Prop)
    (hstep : ∀ a rest s s', I (a :: rest) s → f s a = .ok s' → I rest s') :
    ∀ {l : List α} {s s' : σ}, I l s → l.foldlM f s = .ok s' → I [] s' := by
  intro l
  induction l with
  | nil =>
    intro s s' h hf
    cases hf
    exact h
  | cons a rest ih =>
    intro s s' h hf
    obtain ⟨t, ht, hrest⟩ := bind_eq_ok.mp ((foldlM_cons ..).symm.trans hf)
    exact ih (hstep a rest s t h ht) hrest

end AdsManagement.Lib
