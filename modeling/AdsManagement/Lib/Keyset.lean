/-
  File:      Lib/Keyset.lean
  Subject:   KEYSET PAGINATION: a loop that reads a table page by page, behind a cursor, and
             rewrites the rows of each page before it asks for the next one.

  The cursor condition and the order of the query are two texts of a program. What makes the
  loop right is that they agree on the rows the filter selects, and that a row that is
  rewritten keeps its place (`Paging.Lawful`).

  * `Paging.pending_touched` -- the cursor condition cuts behind the last visited row;
  * `Paging.run_eq` -- the loop ends, and has visited the selected rows once each, in order.
-/
import Mathlib.Data.List.Sort

namespace AdsManagement.Lib

open List

/-- A paged loop: the filter, the key of the order, the row's id, the cursor kept of a row,
    the cursor condition, and the update of the stored row by the row as it was read. -/
structure Paging (ρ γ κ ι : Type) where
  selects : ρ → Bool
  key : ρ → κ
  id : ρ → ι
  cursor : ρ → γ
  after : γ → ρ → Bool
  write : ρ → ρ → ρ

structure PageState (ρ γ : Type) where
  table : List ρ
  cursor : Option γ
  visited : List ρ

namespace Paging

variable {ρ γ κ ι : Type} [LinearOrder κ]

/-! ## 1. The query -/

section

variable (p : Paging ρ γ κ ι)

def sort (rows : List ρ) : List ρ :=
  rows.insertionSort fun a b => p.key a ≤ p.key b

/-- The selected rows behind the cursor, in order. -/
def pending (cursor : Option γ) (table : List ρ) : List ρ :=
  p.sort (table.filter fun r => p.selects r && cursor.all fun c => p.after c r)

/-- `findMany({ where, take: limit, orderBy })`. -/
def query (cursor : Option γ) (limit : Nat) (table : List ρ) : List ρ :=
  (p.pending cursor table).take limit

/-- The selected rows of the table, in order: what the loop has to visit. -/
def chosen (table : List ρ) : List ρ := p.sort (table.filter p.selects)

end

structure Lawful (p : Paging ρ γ κ ι) : Prop where
  after_iff : ∀ r s, p.selects r = true → p.selects s = true →
    (p.after (p.cursor r) s = true ↔ p.key r < p.key s)
  id_of_key : ∀ r s, p.key r = p.key s → p.id r = p.id s
  write_id : ∀ r, p.id (p.write r r) = p.id r
  write_key : ∀ r, p.key (p.write r r) = p.key r
  write_selects : ∀ r, p.selects r = true → p.selects (p.write r r) = true

variable {p : Paging ρ γ κ ι} {table : List ρ}

theorem pairwise_sort (rows : List ρ) : (p.sort rows).Pairwise fun a b => p.key a ≤ p.key b := by
  exact pairwise_insertionSort _ rows

theorem perm_sort (rows : List ρ) : (p.sort rows).Perm rows := perm_insertionSort _ rows

theorem mem_chosen {r : ρ} : r ∈ p.chosen table ↔ r ∈ table ∧ p.selects r = true := by
  unfold chosen
  rw [(perm_sort _).mem_iff, mem_filter]

theorem pending_none (table : List ρ) : p.pending none table = p.chosen table := by
  unfold pending chosen
  simp

theorem nodup_id_chosen (hnd : (table.map p.id).Nodup) : ((p.chosen table).map p.id).Nodup := by
  have h : ((table.filter p.selects).map p.id).Nodup := hnd.sublist (filter_sublist.map _)
  exact ((perm_sort _).map p.id).nodup_iff.mpr h

/-- Two rows of the selection stand in the strict order of their keys. -/
theorem key_lt_of_split (hp : p.Lawful) (hnd : (table.map p.id).Nodup) {pre post : List ρ}
    (hs : p.chosen table = pre ++ post) {a b : ρ} (ha : a ∈ pre) (hb : b ∈ post) :
    p.key a < p.key b := by
  have hpw := pairwise_sort (p := p) (table.filter p.selects)
  have hids := nodup_id_chosen hnd
  rw [show p.sort (table.filter p.selects) = pre ++ post from hs, pairwise_append] at hpw
  rw [hs, map_append, nodup_append] at hids
  refine lt_of_le_of_ne (hpw.2.2 a ha b hb) fun e => ?_
  exact hids.2.2 (p.id a) (mem_map_of_mem ha) (p.id b) (mem_map_of_mem hb) (hp.id_of_key a b e)

/-! ## 2. The loop -/

variable [DecidableEq ι]

/-- `update({ where: { id }, data })`. -/
def writeRow (p : Paging ρ γ κ ι) (table : List ρ) (line : ρ) : List ρ :=
  table.map fun r => if p.id r = p.id line then p.write line r else r

/-- One page. The flag says whether another one is asked for. -/
def turn (p : Paging ρ γ κ ι) (take : Nat) (s : PageState ρ γ) : PageState ρ γ × Bool :=
  let candidates := p.query s.cursor (take + 1) s.table
  let rows := candidates.take take
  let next : PageState ρ γ :=
    { s with table := rows.foldl p.writeRow s.table, visited := s.visited ++ rows }
  if candidates.length ≤ take then (next, false)
  else
    match rows.getLast? with
    | none => (next, false)
    | some last => ({ next with cursor := some (p.cursor last) }, true)

/-- The loop; without fuel it has no result. -/
def run (p : Paging ρ γ κ ι) (take : Nat) : Nat → PageState ρ γ → Option (PageState ρ γ)
  | 0, _ => none
  | fuel + 1, s =>
    match p.turn take s with
    | (next, true) => run p take fuel next
    | (next, false) => some next

/-- The table once the rows of `visited` are rewritten. -/
def touched (p : Paging ρ γ κ ι) (visited : List ρ) (table : List ρ) : List ρ :=
  table.map fun r => if p.id r ∈ visited.map p.id then p.write r r else r

/-! ## 3. The rows that are rewritten -/

/-- Writing a row that was not visited adds it to the visited ones. -/
theorem writeRow_touched (hp : p.Lawful) (hnd : (table.map p.id).Nodup) {visited : List ρ}
    {line : ρ} (hl : line ∈ table) (hn : p.id line ∉ visited.map p.id) :
    p.writeRow (p.touched visited table) line = p.touched (visited ++ [line]) table := by
  unfold writeRow touched
  rw [map_map]
  refine map_congr_left fun r hr => ?_
  simp only [Function.comp_apply, map_append, map_singleton, mem_append, mem_singleton]
  by_cases hm : p.id r ∈ visited.map p.id
  · have hne : p.id r ≠ p.id line := fun e => hn (e ▸ hm)
    rw [if_pos hm, if_pos (Or.inl hm), if_neg (by rw [hp.write_id]; exact hne)]
  · rw [if_neg hm]
    by_cases e : p.id r = p.id line
    · rw [if_pos e, if_pos (Or.inr e), inj_on_of_nodup_map hnd hr hl e]
    · rw [if_neg e, if_neg (not_or.mpr ⟨hm, e⟩)]

theorem foldl_writeRow_touched (hp : p.Lawful) (hnd : (table.map p.id).Nodup) :
    ∀ (rows visited : List ρ), (∀ r ∈ rows, r ∈ table) → ((visited ++ rows).map p.id).Nodup →
      rows.foldl p.writeRow (p.touched visited table) = p.touched (visited ++ rows) table
  | [], visited, _, _ => by rw [append_nil]; rfl
  | line :: rows, visited, hmem, hids => by
    have hn : p.id line ∉ visited.map p.id := by
      intro hm
      rw [map_append, nodup_append] at hids
      exact hids.2.2 _ hm _ (mem_map_of_mem mem_cons_self) rfl
    have e : visited ++ line :: rows = (visited ++ [line]) ++ rows := by simp
    rw [foldl_cons, writeRow_touched hp hnd (hmem line mem_cons_self) hn, e]
    rw [e] at hids
    exact foldl_writeRow_touched hp hnd rows (visited ++ [line])
      (fun r hr => hmem r (mem_cons_of_mem _ hr)) hids

omit [LinearOrder κ] in
/-- A filter that rejects every rewritten row does not see the rewriting. -/
theorem filter_touched {visited : List ρ} {keep : ρ → Bool}
    (h : ∀ r ∈ table, p.id r ∈ visited.map p.id → keep (p.write r r) = false) :
    (p.touched visited table).filter keep =
      (table.filter keep).filter fun r => p.id r ∉ visited.map p.id := by
  unfold touched
  induction table with
  | nil => rfl
  | cons r table ih =>
    have ih' := ih fun s hs => h s (mem_cons_of_mem _ hs)
    by_cases hm : p.id r ∈ visited.map p.id
    · rw [map_cons, if_pos hm, filter_cons, h r mem_cons_self hm, ih', filter_cons]
      cases keep r with
      | false => rfl
      | true => rw [if_pos rfl, if_neg Bool.false_ne_true, filter_cons, if_neg (by simp [hm])]
    · rw [map_cons, if_neg hm, filter_cons, ih', filter_cons]
      cases keep r with
      | false => rfl
      | true => rw [if_pos rfl, if_pos rfl, filter_cons, if_pos (decide_eq_true hm)]

/-! ## 4. One page -/

section Cut

variable {visited post : List ρ} {last : ρ}

section

variable (hp : p.Lawful) (hnd : (table.map p.id).Nodup)
  (hs : p.chosen table = visited ++ [last] ++ post)
include hp hnd hs

omit [DecidableEq ι] in
/-- A visited row stands at most where the last one does. -/
theorem key_le_last {r : ρ} (hr : r ∈ visited ++ [last]) : p.key r ≤ p.key last := by
  rcases mem_append.mp hr with hr | hr
  · rw [append_assoc] at hs
    exact (key_lt_of_split hp hnd hs hr (mem_append_left _ (mem_singleton.mpr rfl))).le
  · rw [mem_singleton.mp hr]

/-- **The cursor condition cuts behind the last visited row**, whatever ties a page ends in. -/
theorem pending_touched :
    p.pending (some (p.cursor last)) (p.touched (visited ++ [last]) table) = post := by
  have hall : ∀ r ∈ visited ++ [last], r ∈ table ∧ p.selects r = true := fun r hr =>
    mem_chosen.mp (hs ▸ mem_append_left _ hr)
  have hlast := (hall last (mem_append_right _ (mem_singleton.mpr rfl))).2
  have hids := nodup_id_chosen (p := p) hnd
  rw [hs, map_append, nodup_append] at hids
  -- a rewritten row is selected again, but it is not behind the cursor
  have hrej : ∀ r ∈ table, p.id r ∈ (visited ++ [last]).map p.id →
      (p.selects (p.write r r) && p.after (p.cursor last) (p.write r r)) = false := by
    intro r hr hm
    obtain ⟨q, hq, e⟩ := mem_map.mp hm
    obtain rfl := inj_on_of_nodup_map hnd (hall q hq).1 hr e
    rw [Bool.and_eq_false_iff]
    refine .inr (Bool.eq_false_iff.mpr fun ha => ?_)
    have hlt := (hp.after_iff last _ hlast (hp.write_selects q (hall q hq).2)).mp ha
    rw [hp.write_key] at hlt
    exact absurd (key_le_last hp hnd hs hq) (not_le.mpr hlt)
  have hkeep : ∀ r ∈ table.filter p.selects, p.id r ∉ (visited ++ [last]).map p.id →
      p.after (p.cursor last) r = true := by
    intro r hr hm
    have hpost : r ∈ post := by
      have := mem_chosen.mpr (mem_filter.mp hr)
      rw [hs] at this
      exact (mem_append.mp this).resolve_left fun h => hm (mem_map_of_mem h)
    have hlt := key_lt_of_split hp hnd hs (mem_append_right visited (mem_singleton.mpr rfl)) hpost
    exact (hp.after_iff last r hlast (mem_filter.mp hr).2).mpr hlt
  have hrows : (p.touched (visited ++ [last]) table).filter
      (fun r => p.selects r && p.after (p.cursor last) r) =
      (table.filter p.selects).filter fun r => p.id r ∉ (visited ++ [last]).map p.id := by
    rw [filter_touched hrej, filter_filter, filter_filter]
    refine filter_congr fun r hr => ?_
    by_cases hm : p.id r ∈ (visited ++ [last]).map p.id
    · simp only [hm, not_true, decide_false, Bool.false_and]
    · cases hsr : p.selects r with
      | false => simp
      | true => simp only [hkeep r (mem_filter.mpr ⟨hr, hsr⟩) hm, Bool.and_true]
  have hperm : (p.pending (some (p.cursor last)) (p.touched (visited ++ [last]) table)).Perm post := by
    have hcut : ((visited ++ [last]) ++ post).filter
        (fun r => p.id r ∉ (visited ++ [last]).map p.id) = post := by
      rw [filter_append, filter_eq_nil_iff.mpr, nil_append, filter_eq_self.mpr]
      · intro r hr
        exact decide_eq_true fun hm => hids.2.2 _ hm _ (mem_map_of_mem hr) rfl
      · intro r hr
        rw [decide_eq_true_iff, not_not]
        exact mem_map_of_mem hr
    refine (perm_sort _).trans ?_
    show ((p.touched (visited ++ [last]) table).filter
      (fun r => p.selects r && p.after (p.cursor last) r)).Perm post
    rw [hrows]
    refine ((perm_sort (p := p) (table.filter p.selects)).symm.filter _).trans ?_
    rw [show p.sort (table.filter p.selects) = _ from hs, hcut]
  have hpost : post.Pairwise fun a b => p.key a ≤ p.key b := by
    have := pairwise_sort (p := p) (table.filter p.selects)
    rw [show p.sort (table.filter p.selects) = _ from hs, pairwise_append] at this
    exact this.2.1
  refine hperm.eq_of_pairwise ?_ (pairwise_sort _) hpost
  intro a b ha hb hab hba
  have hm : ∀ x ∈ post, x ∈ table := fun x hx =>
    (mem_chosen.mp (hs ▸ mem_append_right _ hx)).1
  exact inj_on_of_nodup_map hnd (hm a (hperm.subset ha)) (hm b hb)
    (hp.id_of_key a b (le_antisymm hab hba))

end

end Cut

/-! ## 5. The whole loop -/

/-- Where the loop stands: `visited` is done, `post` is what it would read without a limit. -/
structure At (p : Paging ρ γ κ ι) (table visited post : List ρ) (s : PageState ρ γ) : Prop where
  split : p.chosen table = visited ++ post
  rows : s.table = p.touched visited table
  seen : s.visited = visited
  next : p.pending s.cursor s.table = post

theorem at_start (p : Paging ρ γ κ ι) (table : List ρ) :
    At p table [] (p.chosen table) ⟨table, none, []⟩ where
  split := rfl
  rows := by unfold touched; simp
  seen := rfl
  next := pending_none table

/-- One page moves a stretch of the pending rows to the visited ones; the last page moves
    all of them. -/
theorem At.turn (hp : p.Lawful) (hnd : (table.map p.id).Nodup) {visited post : List ρ}
    {s : PageState ρ γ} (h : At p table visited post s) {take : Nat} (htake : 1 ≤ take) :
    (post.length ≤ take ∧ ∃ next, p.turn take s = (next, false) ∧
        next.table = p.touched (p.chosen table) table ∧ next.visited = p.chosen table) ∨
    (take < post.length ∧ ∃ next, p.turn take s = (next, true) ∧
        At p table (visited ++ post.take take) (post.drop take) next) := by
  have hids := nodup_id_chosen (p := p) hnd
  have hrows : ((post.take (take + 1)).take take) = post.take take := by
    rw [take_take, Nat.min_eq_left (Nat.le_succ take)]
  have hsplit : p.chosen table = (visited ++ post.take take) ++ post.drop take := by
    rw [append_assoc, take_append_drop]
    exact h.split
  have hfold : (post.take take).foldl p.writeRow s.table =
      p.touched (visited ++ post.take take) table := by
    rw [h.rows]
    refine foldl_writeRow_touched hp hnd _ _ (fun r hr => ?_) ?_
    · exact (mem_chosen.mp (h.split ▸ mem_append_right _ (mem_of_mem_take hr))).1
    · rw [hsplit, map_append] at hids
      exact (nodup_append.mp hids).1
  unfold Paging.turn query
  simp only [h.next, hrows, h.seen, hfold, length_take]
  by_cases hlen : post.length ≤ take
  · refine .inl ⟨hlen, _, if_pos (by omega), ?_, ?_⟩
    · rw [take_of_length_le hlen, ← h.split]
    · rw [take_of_length_le hlen, ← h.split]
  · have hpos : 0 < (post.take take).length := by
      rw [length_take]
      omega
    obtain ⟨front, last, hfl⟩ := eq_nil_or_concat (post.take take) |>.resolve_left
      (ne_nil_of_length_pos hpos)
    refine .inr ⟨by omega, ?_⟩
    rw [if_neg (by omega)]
    rw [hfl, concat_eq_append] at hsplit ⊢
    rw [getLast?_append]
    refine ⟨_, rfl, hsplit, rfl, rfl, ?_⟩
    rw [← append_assoc] at hsplit ⊢
    exact pending_touched hp hnd hsplit

/-- The loop from any point of it. -/
theorem At.run (hp : p.Lawful) (hnd : (table.map p.id).Nodup) {take : Nat} (htake : 1 ≤ take) :
    ∀ (fuel : Nat) {visited post : List ρ} {s : PageState ρ γ}, At p table visited post s →
      post.length < fuel → ∃ final, p.run take fuel s = some final ∧
        final.table = p.touched (p.chosen table) table ∧ final.visited = p.chosen table
  | 0, _, _, _, _, hfuel => absurd hfuel (Nat.not_lt_zero _)
  | fuel + 1, _, post, s, h, hfuel => by
    rcases h.turn hp hnd htake with ⟨-, next, e, htable, hvis⟩ | ⟨hlen, next, e, hnext⟩
    · refine ⟨next, ?_, htable, hvis⟩
      unfold Paging.run
      rw [e]
    · have hlt : (post.drop take).length < fuel := by
        rw [length_drop]
        omega
      obtain ⟨final, hr, hfinal⟩ := At.run hp hnd htake fuel hnext hlt
      refine ⟨final, ?_, hfinal⟩
      unfold Paging.run
      rw [e]
      exact hr

/-- **The loop ends and visits the selected rows once each**, in order, for every page size;
    the table is the old one with every selected row rewritten. -/
theorem run_eq (hp : p.Lawful) (hnd : (table.map p.id).Nodup) {take fuel : Nat} (htake : 1 ≤ take)
    (hfuel : table.length < fuel) :
    ∃ final, p.run take fuel ⟨table, none, []⟩ = some final ∧
      final.visited = p.chosen table ∧
      final.table = table.map fun r => if p.selects r then p.write r r else r := by
  have hlen : (p.chosen table).length < fuel := by
    have h1 := (perm_sort (p := p) (table.filter p.selects)).length_eq
    have h2 := length_filter_le p.selects table
    unfold chosen
    omega
  obtain ⟨final, hr, htable, hvis⟩ := At.run hp hnd htake fuel (at_start p table) hlen
  refine ⟨final, hr, hvis, htable.trans (map_congr_left fun r hr => ?_)⟩
  by_cases hsr : p.selects r = true
  · rw [if_pos (mem_map_of_mem (mem_chosen.mpr ⟨hr, hsr⟩)), if_pos hsr]
  · rw [if_neg hsr, if_neg]
    intro hm
    obtain ⟨q, hq, e⟩ := mem_map.mp hm
    rw [inj_on_of_nodup_map hnd (mem_chosen.mp hq).1 hr e] at hq
    exact hsr (mem_chosen.mp hq).2

end Paging

end AdsManagement.Lib
