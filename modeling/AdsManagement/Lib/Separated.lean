/-
  File:      Lib/Separated.lean
  Subject:   PARTS JOINED WITH A SEPARATOR: what a joined text says about its parts when the
             separator can occur in them.

  Cutting a joined text at the separator gives the pieces of all its parts in order (`pieces`);
  which piece belongs to which part is lost.

  * `join_eq_iff` -- two joins are equal if and only if their pieces are;
  * `eq_iff_pieces` -- the parts are the pieces with the number of separators in each part;
  * `join_injective_iff` -- when equal joins have equal parts;
  * `splitOn_append_front`, `splitOn_append_back` -- what is put around a list without a
    separator goes to its outer pieces;
  * `eq_of_join_eq` -- parts without a separator are read back from their join.
-/
import Mathlib.Algebra.GroupWithZero.Nat
import Mathlib.Data.List.Basic

namespace AdsManagement.Lib

open List

variable {α : Type} [DecidableEq α] {sep : α} {ls ms : List (List α)}

/-- `parts.join(sep)` for one separating character. -/
def join (sep : α) (ls : List (List α)) : List α := [sep].intercalate ls

/-- The parts cut at the separator, one after another. -/
def pieces (sep : α) (ls : List (List α)) : List (List α) := ls.flatMap (·.splitOn sep)

theorem splitOn_join (hne : ls ≠ []) : (join sep ls).splitOn sep = pieces sep ls := by
  unfold join pieces
  induction ls with
  | nil => exact absurd rfl hne
  | cons l ls ih =>
    cases ls with
    | nil => simp
    | cons m ls =>
      rw [intercalate_cons_cons, append_assoc, singleton_append,
        splitOn_append_cons_self, ih (cons_ne_nil _ _)]
      rfl

theorem splitOn_inj {l m : List α} (h : l.splitOn sep = m.splitOn sep) : l = m := by
  calc l = [sep].intercalate (l.splitOn sep) := (intercalate_splitOn sep).symm
    _ = [sep].intercalate (m.splitOn sep) := by rw [h]
    _ = m := intercalate_splitOn sep

/-- **Two joins are equal if and only if their pieces are.** -/
theorem join_eq_iff (hl : ls ≠ []) (hm : ms ≠ []) :
    join sep ls = join sep ms ↔ pieces sep ls = pieces sep ms := by
  rw [← splitOn_join hl, ← splitOn_join hm]
  exact ⟨fun h => by rw [h], splitOn_inj⟩

theorem length_splitOn (l : List α) : (l.splitOn sep).length = l.count sep + 1 := by
  induction l with
  | nil => rfl
  | cons x l ih =>
    rw [splitOn_cons_eq_if_modifyHead]
    by_cases h : x = sep
    · simp [h, ih]
    · simp [h, ih]

/-- What stands in front of a list joins its first piece. -/
theorem splitOn_append_front {w : List α} (hw : sep ∉ w) (l : List α) :
    ∃ head tail, l.splitOn sep = head :: tail ∧ (w ++ l).splitOn sep = (w ++ head) :: tail := by
  obtain ⟨head, tail, hl⟩ := exists_cons_of_ne_nil (splitOn_ne_nil sep l)
  refine ⟨head, tail, hl, ?_⟩
  induction w with
  | nil => exact hl
  | cons x w ih =>
    have hx : ¬ (x == sep) = true := fun e => hw (by rw [eq_of_beq e]; exact mem_cons_self)
    rw [cons_append, splitOn_cons_eq_if_modifyHead, if_neg hx, ih fun h => hw (mem_cons_of_mem _ h)]
    rfl

/-- What stands behind a list joins its last piece. -/
theorem splitOn_append_back {w : List α} (hw : sep ∉ w) (l : List α) :
    ∃ init last, l.splitOn sep = init ++ [last] ∧ (l ++ w).splitOn sep = init ++ [last ++ w] := by
  induction l with
  | nil => exact ⟨[], [], rfl, splitOn_eq_singleton hw⟩
  | cons x l ih =>
    obtain ⟨init, last, hl, hlw⟩ := ih
    rw [cons_append, splitOn_cons_eq_if_modifyHead, splitOn_cons_eq_if_modifyHead, hl, hlw]
    split
    · exact ⟨[] :: init, last, rfl, rfl⟩
    · cases init with
      | nil => exact ⟨[], x :: last, rfl, rfl⟩
      | cons first init => exact ⟨(x :: first) :: init, last, rfl, rfl⟩

/-- A list is its own first piece if and only if it has no separator. -/
theorem head?_splitOn_eq_self_iff {l : List α} : (l.splitOn sep).head? = some l ↔ sep ∉ l := by
  constructor
  · intro h
    obtain ⟨rest, hrest⟩ := head?_eq_some_iff.mp h
    have hjoin : [sep].intercalate (l :: rest) = l := by
      rw [← hrest, intercalate_splitOn]
    have hnil : rest = [] := by
      cases rest with
      | nil => rfl
      | cons m rest =>
        have hlen := congrArg length hjoin
        rw [intercalate_cons_cons, length_append, length_append, length_singleton] at hlen
        omega
    have hcount : (l.splitOn sep).length = l.count sep + 1 := length_splitOn l
    rw [hrest, hnil] at hcount
    exact count_eq_zero.mp (Nat.succ.inj hcount).symm
  · intro h
    rw [splitOn_eq_singleton h]
    rfl

/-- **The parts are the pieces together with the number of separators in each part.** -/
theorem eq_iff_pieces : ls = ms ↔
    pieces sep ls = pieces sep ms ∧ ls.map (·.count sep) = ms.map (·.count sep) := by
  refine ⟨fun h => by rw [h]; exact ⟨rfl, rfl⟩, fun ⟨hp, hc⟩ => ?_⟩
  have hsplit : ls.map (·.splitOn sep) = ms.map (·.splitOn sep) := by
    refine eq_iff_flatten_eq.mpr ⟨hp, ?_⟩
    have hlen : ∀ ks : List (List α),
        (ks.map (·.splitOn sep)).map length = (ks.map (·.count sep)).map (· + 1) := by
      intro ks
      rw [map_map, map_map]
      exact map_congr_left fun l _ => length_splitOn l
    rw [hlen, hlen, hc]
  exact map_injective_iff.mpr (fun l m h => splitOn_inj h) hsplit

/-- The same pieces in the same order, distributed differently over the parts. -/
def Regrouped (sep : α) (ls ms : List (List α)) : Prop :=
  pieces sep ls = pieces sep ms ∧ ls.map (·.count sep) ≠ ms.map (·.count sep)

instance (sep : α) (ls ms : List (List α)) : Decidable (Regrouped sep ls ms) :=
  inferInstanceAs (Decidable (pieces sep ls = pieces sep ms ∧
    ls.map (·.count sep) ≠ ms.map (·.count sep)))

/-- **Equal joins have equal parts if and only if the parts are not regrouped.** -/
theorem join_injective_iff (hl : ls ≠ []) (hm : ms ≠ []) :
    (join sep ls = join sep ms → ls = ms) ↔ ¬ Regrouped sep ls ms := by
  rw [join_eq_iff hl hm]
  constructor
  · rintro h ⟨hp, hc⟩
    exact hc (eq_iff_pieces.mp (h hp)).2
  · intro h hp
    refine eq_iff_pieces.mpr ⟨hp, ?_⟩
    by_contra hc
    exact h ⟨hp, hc⟩

/-! ## Parts without separator -/

theorem pieces_of_not_mem (h : ∀ l ∈ ls, sep ∉ l) : pieces sep ls = ls := by
  induction ls with
  | nil => rfl
  | cons l ls ih =>
    unfold pieces at ih ⊢
    rw [flatMap_cons, splitOn_eq_singleton (h l mem_cons_self),
      ih fun m hm => h m (mem_cons_of_mem _ hm)]
    rfl

theorem length_pieces (ls : List (List α)) :
    (pieces sep ls).length = ls.length + (ls.map (·.count sep)).sum := by
  induction ls with
  | nil => rfl
  | cons l ls ih =>
    unfold pieces at ih ⊢
    rw [flatMap_cons, length_append, length_splitOn, length_cons, map_cons, sum_cons]
    omega

/-- **Parts without separator are read back from their join**, among all lists of as many parts. -/
theorem eq_of_join_eq (hsep : ∀ l ∈ ls, sep ∉ l) (hlen : ls.length = ms.length)
    (h : join sep ls = join sep ms) : ls = ms := by
  cases hls : ls with
  | nil =>
    rw [hls] at hlen
    exact (length_eq_zero_iff.mp hlen.symm).symm
  | cons l rest =>
    have hl : ls ≠ [] := by rw [hls]; exact cons_ne_nil _ _
    have hm : ms ≠ [] := fun e => by rw [e, hls] at hlen; cases hlen
    have hp := (join_eq_iff hl hm).mp h
    have hcount : (pieces sep ms).length = _ := length_pieces ms
    rw [← hp, pieces_of_not_mem hsep] at hcount
    have hsum : (ms.map (·.count sep)).sum = 0 := by omega
    have hzero : ∀ m ∈ ms, sep ∉ m := fun m hmem => count_eq_zero.mp
      (List.sum_eq_zero_iff_forall_eq_nat.mp hsum _ (List.mem_map.mpr ⟨m, hmem, rfl⟩))
    rw [← hls, ← pieces_of_not_mem hsep, hp, pieces_of_not_mem hzero]

omit [DecidableEq α] in
/-- A text is cut at its first separator. -/
theorem append_sep_inj {l m rest rest' : List α} (hl : sep ∉ l) (hm : sep ∉ m)
    (h : l ++ sep :: rest = m ++ sep :: rest') : l = m ∧ rest = rest' := by
  induction l generalizing m with
  | nil =>
    cases m with
    | nil => exact ⟨rfl, (cons.inj h).2⟩
    | cons b m =>
      rw [(cons.inj h).1] at hm
      exact absurd mem_cons_self hm
  | cons a l ih =>
    cases m with
    | nil =>
      rw [← (cons.inj h).1] at hl
      exact absurd mem_cons_self hl
    | cons b m =>
      obtain ⟨e, h'⟩ := cons.inj h
      obtain ⟨e1, e2⟩ := ih (fun hx => hl (mem_cons_of_mem _ hx))
        (fun hx => hm (mem_cons_of_mem _ hx)) h'
      exact ⟨by rw [e, e1], e2⟩

end AdsManagement.Lib
