/-
  File:      Lib/CurrentRow.lean
  Subject:   ONE CURRENT ROW: the rows stored under one key, of which at most one is current.

  A row has a version and is accepted or not; an accepted row can be current. The rules say
  how the ways to add a row, to replace the current one and to elect a new one keep the
  invariant `OneCurrent`.

  * `OneCurrent.append_skipped`, `OneCurrent.supersede`, `OneCurrent.of_mark` -- the three ways;
  * `OneCurrent.length_eq_one_iff` -- exactly one row is current when one is accepted.
-/
import Mathlib.Data.List.Nodup

namespace AdsManagement.Lib

open List

/-- How a row type is read. -/
structure VersionColumns (ρ : Type) where
  version : ρ → Nat
  current : ρ → Bool
  accepted : ρ → Bool

variable {ρ : Type}

/-- The invariant of the rows of one key. -/
structure OneCurrent (v : VersionColumns ρ) (rows : List ρ) : Prop where
  atMost : (rows.filter v.current).length ≤ 1
  accepted : ∀ c ∈ rows, v.current c → v.accepted c
  exists_current : ∀ r ∈ rows, v.accepted r → ∃ c ∈ rows, v.current c
  greatest : ∀ c ∈ rows, v.current c → ∀ r ∈ rows, v.accepted r → v.version r ≤ v.version c

variable {v : VersionColumns ρ} {rows : List ρ} {n : ρ}

theorem OneCurrent.nil (v : VersionColumns ρ) : OneCurrent v [] where
  atMost := Nat.zero_le 1
  accepted := by intro c hc; cases hc
  exists_current := by intro r hr; cases hr
  greatest := by intro c hc; cases hc

theorem eq_of_mem_of_length_le_one {l : List ρ} (h : l.length ≤ 1) {a b : ρ} (ha : a ∈ l)
    (hb : b ∈ l) : a = b := by
  match l, h with
  | [x], _ => rw [mem_singleton.mp ha, mem_singleton.mp hb]

theorem length_filter_le_one {l : List ρ} {p : ρ → Bool} (hnd : l.Nodup)
    (h : ∀ a ∈ l, p a → ∀ b ∈ l, p b → a = b) : (l.filter p).length ≤ 1 := by
  match e : l.filter p with
  | [] => exact Nat.zero_le 1
  | [a] => exact Nat.le_refl 1
  | a :: b :: t =>
    have ha : a ∈ l.filter p := by rw [e]; exact mem_cons_self
    have hb : b ∈ l.filter p := by rw [e]; exact mem_cons_of_mem _ mem_cons_self
    have hab : a = b := h a (mem_filter.mp ha).1 (mem_filter.mp ha).2 b
      (mem_filter.mp hb).1 (mem_filter.mp hb).2
    have hn := hnd.filter p
    rw [e, hab] at hn
    exact absurd mem_cons_self (nodup_cons.mp hn).1

/-- Two current rows are the same row. -/
theorem OneCurrent.eq_of_current (h : OneCurrent v rows) {c d : ρ} (hc : c ∈ rows) (hd : d ∈ rows)
    (ec : v.current c) (ed : v.current d) : c = d := by
  exact eq_of_mem_of_length_le_one h.atMost (mem_filter.mpr ⟨hc, ec⟩) (mem_filter.mpr ⟨hd, ed⟩)

/-- **Exactly one row is current when some row is accepted, and none otherwise.** -/
theorem OneCurrent.length_eq_one_iff (h : OneCurrent v rows) :
    (rows.filter v.current).length = 1 ↔ ∃ r ∈ rows, v.accepted r := by
  constructor
  · intro e
    obtain ⟨c, ec⟩ := List.length_eq_one_iff.mp e
    have hc : c ∈ rows.filter v.current := by rw [ec]; exact mem_singleton.mpr rfl
    obtain ⟨hm, hcur⟩ := mem_filter.mp hc
    exact ⟨c, hm, h.accepted c hm hcur⟩
  · rintro ⟨r, hr, ha⟩
    obtain ⟨c, hc, hcur⟩ := h.exists_current r hr ha
    have : 0 < (rows.filter v.current).length :=
      length_pos_of_mem (mem_filter.mpr ⟨hc, hcur⟩)
    have := h.atMost
    omega

/-- A row that is not current may be added when it is not accepted or no newer than the
    current one. -/
theorem OneCurrent.append_skipped (h : OneCurrent v rows) (hn : v.current n = false)
    (hv : v.accepted n → ∃ c ∈ rows, v.current c ∧ v.version n ≤ v.version c) :
    OneCurrent v (rows ++ [n]) where
  atMost := by
    rw [filter_append, filter_singleton, hn]
    simpa using h.atMost
  accepted := by
    intro c hc hcur
    rcases mem_append.mp hc with hc | hc
    · exact h.accepted c hc hcur
    · rw [mem_singleton.mp hc, hn] at hcur; cases hcur
  exists_current := by
    intro r hr ha
    rcases mem_append.mp hr with hr | hr
    · obtain ⟨c, hc, hcur⟩ := h.exists_current r hr ha
      exact ⟨c, mem_append_left _ hc, hcur⟩
    · rw [mem_singleton.mp hr] at ha
      obtain ⟨c, hc, hcur, -⟩ := hv ha
      exact ⟨c, mem_append_left _ hc, hcur⟩
  greatest := by
    intro c hc hcur r hr ha
    rcases mem_append.mp hc with hc | hc
    · rcases mem_append.mp hr with hr | hr
      · exact h.greatest c hc hcur r hr ha
      · rw [mem_singleton.mp hr] at ha ⊢
        obtain ⟨d, hd, hdcur, hle⟩ := hv ha
        rwa [h.eq_of_current hc hd hcur hdcur]
    · rw [mem_singleton.mp hc, hn] at hcur; cases hcur

/-- The new row becomes the current one: no other is current and none accepted is newer. -/
theorem OneCurrent.append_current (hcur : ∀ r ∈ rows, v.current r = false)
    (hn : v.current n = true) (ha : v.accepted n)
    (hv : ∀ r ∈ rows, v.accepted r → v.version r ≤ v.version n) : OneCurrent v (rows ++ [n]) where
  atMost := by
    have e : rows.filter v.current = [] := by
      rw [filter_eq_nil_iff]
      intro r hr
      rw [hcur r hr]
      exact Bool.false_ne_true
    rw [filter_append, e, filter_singleton, hn]
    exact Nat.le_refl 1
  accepted := by
    intro c hc hcc
    rcases mem_append.mp hc with hc | hc
    · rw [hcur c hc] at hcc; cases hcc
    · rw [mem_singleton.mp hc]; exact ha
  exists_current := fun _ _ _ => ⟨n, mem_append_right _ (mem_singleton.mpr rfl), hn⟩
  greatest := by
    intro c hc hcc r hr hra
    rcases mem_append.mp hc with hc | hc
    · rw [hcur c hc] at hcc; cases hcc
    · rw [mem_singleton.mp hc]
      rcases mem_append.mp hr with hr | hr
      · exact hv r hr hra
      · obtain rfl := mem_singleton.mp hr
        exact Nat.le_refl _

/-- The current row is replaced: every row loses its flag and the new row takes it. -/
theorem OneCurrent.supersede {clear : ρ → ρ} (hclear : ∀ r, v.current (clear r) = false)
    (hacc : ∀ r, v.accepted (clear r) = v.accepted r)
    (hver : ∀ r, v.version (clear r) = v.version r) (hn : v.current n = true) (ha : v.accepted n)
    (hv : ∀ r ∈ rows, v.accepted r → v.version r ≤ v.version n) :
    OneCurrent v (rows.map clear ++ [n]) := by
  refine OneCurrent.append_current (fun r hr => ?_) hn ha (fun r hr hra => ?_)
  · obtain ⟨s, -, rfl⟩ := mem_map.mp hr
    exact hclear s
  · obtain ⟨s, hs, rfl⟩ := mem_map.mp hr
    rw [hacc] at hra
    rw [hver]
    exact hv s hs hra

/-- A change that keeps version, flag and acceptance keeps the invariant. -/
theorem OneCurrent.map {f : ρ → ρ} (h : OneCurrent v rows)
    (hf : ∀ r ∈ rows, v.current (f r) = v.current r ∧ v.version (f r) = v.version r ∧
      v.accepted (f r) = v.accepted r) : OneCurrent v (rows.map f) where
  atMost := by
    have e : (rows.map f).filter v.current = (rows.filter v.current).map f := by
      rw [filter_map]
      congr 1
      exact filter_congr fun r hr => (hf r hr).1
    rw [e, length_map]
    exact h.atMost
  accepted := by
    intro c hc hcur
    obtain ⟨r, hr, rfl⟩ := mem_map.mp hc
    rw [(hf r hr).1] at hcur
    rw [(hf r hr).2.2]
    exact h.accepted r hr hcur
  exists_current := by
    intro s hs ha
    obtain ⟨r, hr, rfl⟩ := mem_map.mp hs
    rw [(hf r hr).2.2] at ha
    obtain ⟨c, hc, hcur⟩ := h.exists_current r hr ha
    exact ⟨f c, mem_map_of_mem hc, by rw [(hf c hc).1]; exact hcur⟩
  greatest := by
    intro c hc hcur s hs ha
    obtain ⟨d, hd, rfl⟩ := mem_map.mp hc
    obtain ⟨r, hr, rfl⟩ := mem_map.mp hs
    rw [(hf d hd).1] at hcur
    rw [(hf r hr).2.2] at ha
    rw [(hf d hd).2.1, (hf r hr).2.1]
    exact h.greatest d hd hcur r hr ha

/-- The current row is elected anew: `mark x` flags `x` alone, and `x` is an accepted row of
    greatest version, or no row is accepted and none is flagged. -/
theorem OneCurrent.of_mark {mark : ρ → ρ} (chosen : Option ρ) (hnd : rows.Nodup)
    (hmark : ∀ r ∈ rows, v.current (mark r) = true ↔ chosen = some r)
    (hver : ∀ r, v.version (mark r) = v.version r) (hacc : ∀ r, v.accepted (mark r) = v.accepted r)
    (hsome : ∀ x, chosen = some x → x ∈ rows ∧ v.accepted x ∧
      ∀ r ∈ rows, v.accepted r → v.version r ≤ v.version x)
    (hnone : chosen = none → ∀ r ∈ rows, v.accepted r = false) :
    OneCurrent v (rows.map mark) where
  atMost := by
    rw [filter_map, length_map]
    refine length_filter_le_one hnd fun a ha hca b hb hcb => ?_
    exact Option.some.inj (((hmark a ha).mp hca).symm.trans ((hmark b hb).mp hcb))
  accepted := by
    intro c hc hcur
    obtain ⟨r, hr, rfl⟩ := mem_map.mp hc
    rw [hacc]
    exact (hsome r ((hmark r hr).mp hcur)).2.1
  exists_current := by
    intro s hs ha
    obtain ⟨r, hr, rfl⟩ := mem_map.mp hs
    rw [hacc] at ha
    cases hc : chosen with
    | none => rw [hnone hc r hr] at ha; cases ha
    | some x =>
      have hx := (hsome x hc).1
      exact ⟨mark x, mem_map_of_mem hx, (hmark x hx).mpr hc⟩
  greatest := by
    intro c hc hcur s hs ha
    obtain ⟨d, hd, rfl⟩ := mem_map.mp hc
    obtain ⟨r, hr, rfl⟩ := mem_map.mp hs
    rw [hacc] at ha
    rw [hver, hver]
    exact (hsome d ((hmark d hd).mp hcur)).2.2 r hr ha

end AdsManagement.Lib
