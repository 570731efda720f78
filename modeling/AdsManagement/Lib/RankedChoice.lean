/-
  File:      Lib/RankedChoice.lean
  Subject:   THE BEST OF A LIST: a list is sorted by an order that refines a rank, and the class
             of the first rank is read off the front.

  * `minimals` -- the elements no other is ranked before, in the order of the list;
  * `perm_minimals_sorted` -- the class read off the sorted list holds these elements;
  * `minimals_eq_singleton_iff`, `one_lt_length_minimals_iff` -- a strict best, a shared best;
  * `insertionSort_congr` -- a sort by a rank depends only on the order among equals;
  * `IsComparator` -- what a comparison must be for a sort to use it; `RankOrder` -- by rank first,
    by the comparison among equals.
-/
import Mathlib.Data.List.Sort

namespace AdsManagement.Lib

open List

variable {α ρ : Type} [LinearOrder ρ] (rank : α → ρ)

/-! ## 1. The elements of least rank -/

def minimals (l : List α) : List α := l.filter fun a => l.all fun b => decide (rank a ≤ rank b)

theorem minimals_perm {l l' : List α} (h : l.Perm l') :
    (minimals rank l).Perm (minimals rank l') := by
  have hsame : ∀ a, (l.all fun b => decide (rank a ≤ rank b)) =
      l'.all fun b => decide (rank a ≤ rank b) := by
    intro a
    rw [Bool.eq_iff_iff, all_eq_true, all_eq_true]
    simp only [h.mem_iff]
  unfold minimals
  rw [funext hsame]
  exact h.filter _

theorem minimals_map {β : Type} (f : β → α) (l : List β) :
    minimals rank (l.map f) = (minimals (fun b => rank (f b)) l).map f := by
  unfold minimals
  rw [filter_map]
  refine congrArg (map f) (filter_congr fun b _ => ?_)
  simp only [all_map]
  rfl

theorem minimals_cons_of_le {a : α} {l : List α} (h : ∀ b ∈ l, rank a ≤ rank b) :
    minimals rank (a :: l) = a :: l.filter fun b => decide (rank b = rank a) := by
  have ha : ((a :: l).all fun b => decide (rank a ≤ rank b)) = true := by
    simpa using h
  refine (filter_cons_of_pos (p := fun x => (a :: l).all fun b => decide (rank x ≤ rank b))
    ha).trans ?_
  refine congrArg _ (filter_congr fun b hb => ?_)
  rw [Bool.eq_iff_iff, all_eq_true, decide_eq_true_eq]
  constructor
  · intro hall
    exact le_antisymm (of_decide_eq_true (hall a mem_cons_self)) (h b hb)
  · intro e c hc
    rw [e]
    rcases mem_cons.mp hc with rfl | hc
    · exact decide_eq_true le_rfl
    · exact decide_eq_true (h c hc)

/-- Some element of a list is of least rank. -/
theorem exists_perm_cons_least {l : List α} (h : l ≠ []) :
    ∃ a rest, l.Perm (a :: rest) ∧ ∀ b ∈ rest, rank a ≤ rank b := by
  induction l with
  | nil => exact absurd rfl h
  | cons x l ih =>
    by_cases hl : l = []
    · exact ⟨x, [], by rw [hl], nofun⟩
    obtain ⟨a, rest, hperm, hle⟩ := ih hl
    rcases le_total (rank x) (rank a) with hx | hx
    · refine ⟨x, l, Perm.refl _, fun b hb => ?_⟩
      rcases mem_cons.mp (hperm.subset hb) with rfl | hb
      · exact hx
      · exact hx.trans (hle b hb)
    · refine ⟨a, x :: rest, (hperm.cons x).trans (Perm.swap a x rest), fun b hb => ?_⟩
      rcases mem_cons.mp hb with rfl | hb
      · exact hx
      · exact hle b hb

variable {rank}

/-- **A strict best.** -/
theorem minimals_eq_singleton_iff {l : List α} {a : α} :
    minimals rank l = [a] ↔ ∃ others, l.Perm (a :: others) ∧ ∀ b ∈ others, rank a < rank b := by
  constructor
  · intro h
    have hne : l ≠ [] := fun e => by
      rw [e] at h
      exact absurd h (cons_ne_nil a []).symm
    obtain ⟨c, rest, hperm, hle⟩ := exists_perm_cons_least rank hne
    have hmin := minimals_perm rank hperm
    rw [h, minimals_cons_of_le rank hle] at hmin
    obtain ⟨rfl, hrest⟩ := cons.inj (singleton_perm.mp hmin)
    refine ⟨rest, hperm, fun b hb => lt_of_le_of_ne (hle b hb) fun e => ?_⟩
    have hmem : b ∈ rest.filter fun b => decide (rank b = rank a) :=
      mem_filter.mpr ⟨hb, decide_eq_true e.symm⟩
    rw [← hrest] at hmem
    exact (nomatch hmem)
  · intro ⟨others, hperm, hlt⟩
    have hmin := minimals_perm rank hperm
    rw [minimals_cons_of_le rank fun b hb => (hlt b hb).le, filter_eq_nil_iff.mpr] at hmin
    · exact perm_singleton.mp hmin
    · intro b hb e
      exact (hlt b hb).ne (of_decide_eq_true e).symm

/-- **A best that is shared.** -/
theorem one_lt_length_minimals_iff {l : List α} :
    1 < (minimals rank l).length ↔ ∃ a b others, l.Perm (a :: b :: others) ∧ rank a = rank b ∧
      ∀ c ∈ others, rank a ≤ rank c := by
  constructor
  · intro h
    have hne : l ≠ [] := fun e => by
      rw [e] at h
      exact absurd h (by simp [minimals])
    obtain ⟨a, rest, hperm, hle⟩ := exists_perm_cons_least rank hne
    have hlen := (minimals_perm rank hperm).length_eq
    rw [minimals_cons_of_le rank hle, length_cons] at hlen
    have hpos : rest.filter (fun b => decide (rank b = rank a)) ≠ [] := fun e => by
      rw [e] at hlen
      simp only [length_nil] at hlen
      omega
    obtain ⟨b, hb⟩ := exists_mem_of_ne_nil _ hpos
    obtain ⟨hbm, hbr⟩ := mem_filter.mp hb
    obtain ⟨before, after, rfl⟩ := append_of_mem hbm
    have hfront : (before ++ b :: after).Perm (b :: (before ++ after)) := perm_middle
    refine ⟨a, b, before ++ after, hperm.trans (hfront.cons a), (of_decide_eq_true hbr).symm,
      fun c hc => ?_⟩
    exact hle c (hfront.symm.subset (mem_cons_of_mem _ hc))
  · intro ⟨a, b, others, hperm, heq, hle⟩
    have hall : ∀ c ∈ b :: others, rank a ≤ rank c := by
      intro c hc
      rcases mem_cons.mp hc with rfl | hc
      · exact heq.le
      · exact hle c hc
    rw [(minimals_perm rank hperm).length_eq, minimals_cons_of_le rank hall,
      filter_cons_of_pos (by simpa using heq.symm)]
    simp

/-! ## 2. Reading them off a sorted list -/

/-- The order of a sort puts no element behind one of a later rank. -/
structure RefinesRank (rank : α → ρ) (le : α → α → Prop) : Prop where
  of_le : ∀ a b, le a b → rank a ≤ rank b
  of_not_le : ∀ a b, ¬ le a b → rank b ≤ rank a

section Sorted

variable {le : α → α → Prop} [DecidableRel le]

theorem RefinesRank.pairwise_orderedInsert (h : RefinesRank rank le) (a : α) {l : List α}
    (hl : l.Pairwise fun x y => rank x ≤ rank y) :
    (l.orderedInsert le a).Pairwise fun x y => rank x ≤ rank y := by
  induction l with
  | nil => exact pairwise_singleton _ a
  | cons b l ih =>
    obtain ⟨hb, hrest⟩ := pairwise_cons.mp hl
    by_cases hab : le a b
    · rw [orderedInsert_cons_of_le le l hab]
      refine pairwise_cons.mpr ⟨fun c hc => ?_, hl⟩
      rcases mem_cons.mp hc with rfl | hc
      · exact h.of_le a c hab
      · exact (h.of_le a b hab).trans (hb c hc)
    · rw [orderedInsert_of_not_le le l hab]
      refine pairwise_cons.mpr ⟨fun c hc => ?_, ih hrest⟩
      rcases (mem_orderedInsert le).mp hc with rfl | hc
      · exact h.of_not_le c b hab
      · exact hb c hc

theorem RefinesRank.pairwise_insertionSort (h : RefinesRank rank le) (l : List α) :
    (l.insertionSort le).Pairwise fun x y => rank x ≤ rank y := by
  induction l with
  | nil => exact Pairwise.nil
  | cons a l ih => exact h.pairwise_orderedInsert a ih

/-- **The class read off the front of the sorted list** holds the elements of least rank. -/
theorem RefinesRank.perm_minimals (h : RefinesRank rank le) {l : List α} {best : α} {rest : List α}
    (hs : l.insertionSort le = best :: rest) :
    ((best :: rest).filter fun a => decide (rank a = rank best)).Perm (minimals rank l) := by
  have hsorted := h.pairwise_insertionSort l
  have hperm := perm_insertionSort le l
  rw [hs] at hsorted hperm
  have hle : ∀ b ∈ rest, rank best ≤ rank b := fun b hb => rel_of_pairwise_cons hsorted hb
  rw [filter_cons_of_pos (by simp), ← minimals_cons_of_le rank hle]
  exact minimals_perm rank hperm

end Sorted

/-! ## 3. Comparators -/

/-- Any two values stand in one order or the other, and the order is transitive. -/
structure IsComparator {β : Type} (compare : β → β → Int) : Prop where
  total : ∀ a b, compare a b ≤ 0 ∨ compare b a ≤ 0
  trans : ∀ a b c, compare a b ≤ 0 → compare b c ≤ 0 → compare a c ≤ 0

/-- By rank first; among equals by the comparison. -/
def RankOrder (rank : α → ρ) (compare : α → α → Int) (a b : α) : Prop :=
  rank a < rank b ∨ rank a = rank b ∧ compare a b ≤ 0

section Comparator

variable {β : Type} {compare : β → β → Int} {le : α → α → Prop} [DecidableRel le]

omit [LinearOrder ρ] in
theorem IsComparator.comap (h : IsComparator compare) (key : α → β) :
    IsComparator fun a b => compare (key a) (key b) where
  total a b := h.total (key a) (key b)
  trans a b c := h.trans (key a) (key b) (key c)

omit [DecidableRel le] in
theorem refinesRank_of_iff {compare : α → α → Int}
    (hle : ∀ a b, le a b ↔ RankOrder rank compare a b) : RefinesRank rank le where
  of_le a b h := by
    rcases (hle a b).mp h with h | h
    · exact h.le
    · exact h.1.le
  of_not_le a b h := by
    rw [hle, RankOrder, not_or] at h
    exact not_lt.mp h.1

/-- **A sort by rank and comparison sorts.** -/
theorem IsComparator.pairwise_insertionSort {compare : α → α → Int} (h : IsComparator compare)
    (hle : ∀ a b, le a b ↔ RankOrder rank compare a b) (l : List α) :
    (l.insertionSort le).Pairwise le := by
  have htotal : Std.Total le := ⟨fun a b => by
    rw [hle, hle]
    rcases lt_trichotomy (rank a) (rank b) with hlt | heq | hlt
    · exact .inl (.inl hlt)
    · exact (h.total a b).imp (fun hl => .inr ⟨heq, hl⟩) fun hl => .inr ⟨heq.symm, hl⟩
    · exact .inr (.inl hlt)⟩
  have htrans : IsTrans α le := ⟨fun a b c hab hbc => by
    rw [hle] at hab hbc ⊢
    rcases hab with hab | ⟨eab, lab⟩
    · rcases hbc with hbc | ⟨ebc, _⟩
      · exact .inl (hab.trans hbc)
      · exact .inl (ebc ▸ hab)
    · rcases hbc with hbc | ⟨ebc, lbc⟩
      · exact .inl (eab ▸ hbc)
      · exact .inr ⟨eab.trans ebc, h.trans _ _ _ lab lbc⟩⟩
  exact List.pairwise_insertionSort le l

/-- **Values that the comparison tells apart are sorted in one way.** -/
theorem IsComparator.insertionSort_eq (h : IsComparator compare) {key : α → β} {l l' : List α}
    (hapart : ∀ a ∈ l, ∀ b ∈ l, compare (key a) (key b) ≤ 0 → compare (key b) (key a) ≤ 0 → a = b)
    (hperm : l.Perm l') :
    l.insertionSort (fun a b => compare (key a) (key b) ≤ 0) =
      l'.insertionSort fun a b => compare (key a) (key b) ≤ 0 := by
  have htotal : Std.Total fun a b : α => compare (key a) (key b) ≤ 0 :=
    ⟨fun a b => h.total (key a) (key b)⟩
  have htrans : IsTrans α fun a b => compare (key a) (key b) ≤ 0 :=
    ⟨fun a b c => h.trans (key a) (key b) (key c)⟩
  refine Perm.eq_of_pairwise (fun a b ha hb hab hba => ?_)
    (List.pairwise_insertionSort _ l) (List.pairwise_insertionSort _ l')
    ((perm_insertionSort _ l).trans (hperm.trans (perm_insertionSort _ l').symm))
  have ha' : a ∈ l := (mem_insertionSort _).mp ha
  have hb' : b ∈ l := hperm.symm.subset ((mem_insertionSort _).mp hb)
  exact hapart a ha' b hb' hab hba

end Comparator

/-! ## 4. Equals keep their order -/

theorem filter_orderedInsert (a : α) (l : List α) (k : ρ) :
    (l.orderedInsert (fun x y => rank x ≤ rank y) a).filter (fun x => rank x = k) =
      (a :: l).filter fun x => rank x = k := by
  induction l with
  | nil => rfl
  | cons b l ih =>
    rw [orderedInsert_cons]
    split
    · rfl
    · rename_i hlt
      have hb : rank b < rank a := lt_of_not_ge hlt
      rw [filter_cons, ih]
      by_cases ha : rank a = k
      · have hbk : ¬ rank b = k := fun e => by
          rw [e, ← ha] at hb
          exact lt_irrefl _ hb
        simp [ha, hbk]
      · simp [ha, filter_cons]

/-- Sorting keeps the elements of one rank in their order. -/
theorem filter_insertionSort (l : List α) (k : ρ) :
    (l.insertionSort fun x y => rank x ≤ rank y).filter (fun x => rank x = k) =
      l.filter fun x => rank x = k := by
  induction l with
  | nil => rfl
  | cons a l ih =>
    rw [insertionSort_cons, filter_orderedInsert, filter_cons, filter_cons, ih]

theorem head_le_of_filter_eq {a b : α} {l m : List α} (hm : (b :: m).Pairwise fun x y => rank x ≤ rank y)
    (h : ∀ k, (a :: l).filter (fun x => rank x = k) = (b :: m).filter fun x => rank x = k) : rank b ≤ rank a := by
  have ha : a ∈ (b :: m).filter fun x => rank x = rank a := by
    rw [← h]
    simp
  rcases mem_cons.mp (mem_of_mem_filter ha) with rfl | hmem
  · exact le_refl _
  · exact (pairwise_cons.mp hm).1 a hmem

/-- Sorted lists with the same elements of each rank, in the same order, are equal. -/
theorem eq_of_filter_eq {l m : List α} (hl : l.Pairwise fun x y => rank x ≤ rank y)
    (hm : m.Pairwise fun x y => rank x ≤ rank y)
    (h : ∀ k, l.filter (fun x => rank x = k) = m.filter fun x => rank x = k) : l = m := by
  induction l generalizing m with
  | nil =>
    cases m with
    | nil => rfl
    | cons b m =>
      have hb := h (rank b)
      simp at hb
  | cons a l ih =>
    cases m with
    | nil =>
      have ha := h (rank a)
      simp at ha
    | cons b m =>
      have hrank : rank a = rank b :=
        le_antisymm (head_le_of_filter_eq hl fun k => (h k).symm) (head_le_of_filter_eq hm h)
      have hhead : a = b := by
        have hk := h (rank a)
        rw [filter_cons_of_pos (by simp), filter_cons_of_pos (by simp [hrank])] at hk
        exact (cons.inj hk).1
      subst hhead
      refine congrArg (a :: ·) (ih (pairwise_cons.mp hl).2 (pairwise_cons.mp hm).2 fun k => ?_)
      have hk := h k
      rw [filter_cons, filter_cons] at hk
      split at hk
      · exact (cons.inj hk).2
      · exact hk

/-- **A sort by a rank depends only on the order among equals.** -/
theorem insertionSort_congr {l m : List α}
    (h : ∀ k, l.filter (fun x => rank x = k) = m.filter fun x => rank x = k) :
    (l.insertionSort fun x y => rank x ≤ rank y) = m.insertionSort fun x y => rank x ≤ rank y := by
  refine eq_of_filter_eq (pairwise_insertionSort _ l) (pairwise_insertionSort _ m) fun k => ?_
  rw [filter_insertionSort, filter_insertionSort, h]

end AdsManagement.Lib
