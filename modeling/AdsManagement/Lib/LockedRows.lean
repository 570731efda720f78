/-
  File:      Lib/LockedRows.lean
  Subject:   ROWS UNDER READ COMMITTED: a committed version, and a lock with the version that its
             holder has written.

  A transaction that updates a row, or selects it for update, holds it until its end; nobody else
  sees the version it has written before it commits, and nobody else can hold the row. A row that
  was inserted and not yet committed has no committed version.

  * `Cell`, `Cell.Free`, `Cell.newest`, `Cell.lock`, `Cell.commit`, `Cell.abort`;
  * `Cell.commit_committed` -- where a version comes from after a commit;
  * `Cell.Keeps` -- a step of one process leaves alone what the others hold;
  * `Swept` -- an update of many rows: of those that are open in the snapshot of the statement, the
    ones still to come are pending, and the others are held with a version that is closed.
-/
import Mathlib.Logic.Function.Basic

namespace AdsManagement.Lib

open Function

variable {π α : Type*}

structure Cell (π α : Type*) where
  committed : Option α
  held : Option (π × α)

namespace Cell

/-- No other process has the lock. -/
def Free (c : Cell π α) (p : π) : Prop := ∀ q v, c.held = some (q, v) → q = p

/-- The process takes the lock, or writes again; its version is `v`. -/
def lock (c : Cell π α) (p : π) (v : α) : Cell π α := { c with held := some (p, v) }

@[simp] theorem lock_committed (c : Cell π α) (p : π) (v : α) : (c.lock p v).committed = c.committed := rfl

@[simp] theorem lock_held (c : Cell π α) (p : π) (v : α) : (c.lock p v).held = some (p, v) := rfl

variable [DecidableEq π]

/-- The version a process sees: its own, or the committed one. -/
def newest (c : Cell π α) (p : π) : Option α :=
  match c.held with
  | some (q, v) => if q = p then some v else c.committed
  | none => c.committed

def commit (p : π) (c : Cell π α) : Cell π α :=
  match c.held with
  | some (q, v) => if q = p then ⟨some v, none⟩ else c
  | none => c

def abort (p : π) (c : Cell π α) : Cell π α :=
  match c.held with
  | some (q, _) => if q = p then ⟨c.committed, none⟩ else c
  | none => c

variable {c : Cell π α} {p q : π} {u v : α}

theorem newest_of_held (h : c.held = some (p, v)) : c.newest p = some v := by
  unfold newest
  rw [h]
  exact if_pos rfl

theorem newest_of_not_held (h : ∀ v, c.held ≠ some (p, v)) : c.newest p = c.committed := by
  unfold newest
  split
  · rename_i q v hq
    refine if_neg ?_
    rintro rfl
    exact h v hq
  · rfl

theorem commit_of_held (h : c.held = some (p, v)) : c.commit p = ⟨some v, none⟩ := by
  unfold commit
  rw [h]
  exact if_pos rfl

theorem commit_of_not_held (h : ∀ v, c.held ≠ some (p, v)) : c.commit p = c := by
  unfold commit
  split
  · rename_i q v hq
    refine if_neg ?_
    rintro rfl
    exact h v hq
  · rfl

/-- **What is committed after a commit** was written by the process, or was committed before. -/
theorem commit_committed (h : (c.commit p).committed = some v) :
    c.held = some (p, v) ∨ (∀ u, c.held ≠ some (p, u)) ∧ c.committed = some v := by
  by_cases hp : ∃ u, c.held = some (p, u)
  · obtain ⟨u, hu⟩ := hp
    rw [commit_of_held hu] at h
    cases h
    exact .inl hu
  · rw [not_exists] at hp
    rw [commit_of_not_held hp] at h
    exact .inr ⟨hp, h⟩

@[simp] theorem abort_committed : (c.abort p).committed = c.committed := by
  unfold abort
  split
  · split <;> rfl
  · rfl

theorem abort_of_unheld (h : c.held = none) : c.abort p = c := by
  unfold abort
  rw [h]

theorem held_of_commit (h : (c.commit p).held = some (q, v)) : q ≠ p ∧ c.held = some (q, v) := by
  unfold commit at h
  split at h
  · rename_i q' v' hq
    split at h
    · cases h
    · rename_i hne
      rw [hq] at h
      cases h
      exact ⟨hne, hq⟩
  · rename_i hq
    rw [hq] at h
    cases h

theorem held_of_abort (h : (c.abort p).held = some (q, v)) : q ≠ p ∧ c.held = some (q, v) := by
  unfold abort at h
  split at h
  · rename_i q' v' hq
    split at h
    · cases h
    · rename_i hne
      rw [hq] at h
      cases h
      exact ⟨hne, hq⟩
  · rename_i hq
    rw [hq] at h
    cases h

/-! ## 1. What the others hold -/

/-- A step of `p` changes no row that another process holds, before or after it. -/
def Keeps (p : π) (c c' : Cell π α) : Prop :=
  ∀ q v, q ≠ p → c.held = some (q, v) ∨ c'.held = some (q, v) → c' = c

section

omit [DecidableEq π]

theorem Keeps.refl (p : π) (c : Cell π α) : Keeps p c c := fun _ _ _ _ => rfl

theorem keeps_lock (hfree : c.Free p) (v : α) : Keeps p c (c.lock p v) := by
  intro q u hne h
  rcases h with h | h
  · exact absurd (hfree q u h) hne
  · cases h
    exact absurd rfl hne

/-- A row that nobody holds is written and committed at once. -/
theorem keeps_set (h : c.held = none) (v : α) : Keeps p c ⟨some v, none⟩ := by
  intro q u _ hq
  rw [h] at hq
  rcases hq with hq | hq <;> cases hq

end

theorem keeps_commit (p : π) (c : Cell π α) : Keeps p c (c.commit p) := by
  intro q v hne h
  have hheld : c.held = some (q, v) := h.elim id fun h => (held_of_commit h).2
  exact commit_of_not_held fun _ hu => hne (Prod.mk.inj (Option.some.inj (hheld.symm.trans hu))).1

theorem keeps_abort (p : π) (c : Cell π α) : Keeps p c (c.abort p) := by
  intro q v hne h
  have hheld : c.held = some (q, v) := h.elim id fun h => (held_of_abort h).2
  unfold abort
  rw [hheld]
  exact if_neg hne

omit [DecidableEq π] in
theorem Keeps.held {c' : Cell π α} (h : Keeps p c c') (hne : q ≠ p) (hq : c.held = some (q, v)) :
    c'.held = some (q, v) := by
  rw [h q v hne (.inl hq)]
  exact hq

section Family

variable {κ : Type*} [DecidableEq κ] {cells : κ → Cell π α} {k : κ} {c' : Cell π α}

omit [DecidableEq π]

theorem keeps_update (h : Keeps p (cells k) c') (k' : κ) :
    Keeps p (cells k') (update cells k c' k') := by
  by_cases he : k' = k
  · subst he
    rw [update_self]
    exact h
  · rw [update_of_ne he]
    exact .refl _ _

@[simp] theorem update_lock_committed (k' : κ) :
    (update cells k ((cells k).lock p v) k').committed = (cells k').committed := by
  by_cases he : k' = k
  · subst he
    rw [update_self, lock_committed]
  · rw [update_of_ne he]

/-- Of the rows of a family one is held with another version; the others are as they were. -/
theorem held_of_update_lock {k' : κ}
    (hheld : (update cells k ((cells k).lock p v) k').held = some (q, u)) :
    k' = k ∧ q = p ∧ u = v ∨ k' ≠ k ∧ (cells k').held = some (q, u) := by
  by_cases he : k' = k
  · subst he
    rw [update_self] at hheld
    cases hheld
    exact .inl ⟨rfl, rfl, rfl⟩
  · rw [update_of_ne he] at hheld
    exact .inr ⟨he, hheld⟩

end Family

/-- A process reads the committed version of a row that it has not changed. -/
theorem newest_of_unchanged (h : ∀ v, c.held = some (p, v) → c.committed = some v) :
    c.newest p = c.committed := by
  by_cases hp : ∃ v, c.held = some (p, v)
  · obtain ⟨v, hv⟩ := hp
    rw [newest_of_held hv, h v hv]
  · exact newest_of_not_held (not_exists.mp hp)

end Cell

/-! ## 2. An update of many rows -/

section Sweep

variable {κ : Type*} {cells cells' : κ → Cell π α} {p q : π} {isOpen : α → Bool} {pending : κ → Bool}

/-- Every committed row that is open is pending, or is held by `p` with a version that is closed. -/
def Swept (cells : κ → Cell π α) (p : π) (isOpen : α → Bool) (pending : κ → Bool) : Prop :=
  ∀ k v, (cells k).committed = some v → isOpen v = true →
    pending k = true ∨ ∃ u, (cells k).held = some (p, u) ∧ isOpen u = false

theorem Swept.snapshot [DecidableEq π] (cells : κ → Cell π α) (p : π) {selects : α → Bool}
    (h : ∀ v, isOpen v = true → selects v = true) :
    Swept cells p isOpen fun k => ((cells k).newest p).any selects := by
  intro k v hv ho
  show ((cells k).newest p).any selects = true ∨ _
  by_cases hp : ∃ u, (cells k).held = some (p, u)
  · obtain ⟨u, hu⟩ := hp
    cases hou : isOpen u with
    | true =>
      left
      rw [Cell.newest_of_held hu]
      exact h u hou
    | false => exact .inr ⟨u, hu, hou⟩
  · left
    rw [Cell.newest_of_not_held (not_exists.mp hp), hv]
    exact h v ho

section Rows

variable [DecidableEq κ]

/-- A row is written, and its new version is closed. -/
theorem Swept.write (h : Swept cells p isOpen pending) (k : κ) {u : α} (hu : isOpen u = false) :
    Swept (update cells k ((cells k).lock p u)) p isOpen (update pending k false) := by
  intro k' v hv ho
  by_cases he : k' = k
  · subst he
    exact .inr ⟨u, by rw [update_self, Cell.lock_held], hu⟩
  · simp only [update_of_ne he] at hv ⊢
    exact h k' v hv ho

/-- A row is passed over, since it is closed by now. -/
theorem Swept.skip [DecidableEq π] (h : Swept cells p isOpen pending) {k : κ} {u : α}
    (hn : (cells k).newest p = some u) (hu : isOpen u = false) :
    Swept cells p isOpen (update pending k false) := by
  intro k' v hv ho
  by_cases he : k' = k
  · subst he
    right
    by_cases hp : ∃ x, (cells k').held = some (p, x)
    · obtain ⟨x, hx⟩ := hp
      rw [Cell.newest_of_held hx] at hn
      cases hn
      exact ⟨_, hx, hu⟩
    · rw [Cell.newest_of_not_held (not_exists.mp hp), hv] at hn
      cases hn
      rw [ho] at hu
      cases hu
  · rw [update_of_ne he]
    exact h k' v hv ho

/-- A row that was not there is inserted. -/
theorem Swept.insert (h : Swept cells p isOpen pending) {k : κ} (hk : (cells k).committed = none) (u : α) :
    Swept (update cells k ((cells k).lock p u)) p isOpen pending := by
  intro k' v hv ho
  by_cases he : k' = k
  · subst he
    rw [update_self, Cell.lock_committed, hk] at hv
    cases hv
  · rw [update_of_ne he] at hv ⊢
    exact h k' v hv ho

end Rows

/-- A step of another process that makes no row open. -/
theorem Swept.frame (h : Swept cells q isOpen pending) (hne : q ≠ p)
    (hkeep : ∀ k, Cell.Keeps p (cells k) (cells' k))
    (hopen : ∀ k v', (cells' k).committed = some v' → isOpen v' = true →
      ∃ v, (cells k).committed = some v ∧ isOpen v = true) :
    Swept cells' q isOpen pending := by
  intro k v' hv' ho'
  obtain ⟨v, hv, ho⟩ := hopen k v' hv' ho'
  rcases h k v hv ho with hp | ⟨u, hu, hou⟩
  · exact .inl hp
  · exact .inr ⟨u, (hkeep k).held hne hu, hou⟩

theorem Swept.closed (h : Swept cells p isOpen pending) (hdone : ∀ k, pending k = false) :
    Swept cells p isOpen fun _ => false := by
  intro k v hv ho
  rcases h k v hv ho with hp | hheld
  · rw [hdone k] at hp
    cases hp
  · exact .inr hheld

/-- **After the commit** a row is open only if the process has opened it. -/
theorem Swept.commit [DecidableEq π] (h : Swept cells p isOpen fun _ => false) {k : κ} {v : α}
    (hv : ((cells k).commit p).committed = some v) (ho : isOpen v = true) :
    (cells k).held = some (p, v) ∧ (cells k).committed ≠ some v := by
  have hclosed : ∀ u, (cells k).held = some (p, u) → isOpen u = true → (cells k).committed ≠ some u := by
    intro u hu hou hc
    rcases h k u hc hou with hp | ⟨x, hx, hox⟩
    · cases hp
    · rw [hu] at hx
      cases hx
      rw [hou] at hox
      cases hox
  rcases Cell.commit_committed hv with hheld | ⟨hnot, hc⟩
  · exact ⟨hheld, hclosed v hheld ho⟩
  · rcases h k v hc ho with hp | ⟨u, hu, -⟩
    · cases hp
    · exact absurd hu (hnot u)

end Sweep

end AdsManagement.Lib
