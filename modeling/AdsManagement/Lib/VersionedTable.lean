/-
  File:      Lib/VersionedTable.lean
  Subject:   VERSIONED TABLES: rows stored under keys, each with a version, a source batch and
             the flag that makes it the current row of its key.

  Four operations change such a table: a new version is added, current rows are hidden, the
  rows of a batch are removed, and a key elects its newest row. They are written as a database
  does them, by ids and by sorted queries; on a coherent table each has a closed form by keys.

  * `Coherent` -- ids and versions are never used twice, and a current row is the newest of its
    key; `Coherent.oneCurrent` follows;
  * `Coherent.addVersion`, `Coherent.hide`, `Coherent.removeBatch`, `Coherent.reelect` -- the
    operations keep it;
  * `addVersion_rows`, `hide_rows`, `reelect_rows` -- the closed forms;
  * `foldl_offer_rows`, `foldl_reelect_rows` -- the same for a whole list of keys;
  * `Descends` -- where the rows of a table come from, whatever the flags have become;
  * `recolumn` -- other columns in the same rows.
-/
import AdsManagement.Lib.LastOfKind
import Mathlib.Data.List.Sort
import Mathlib.Data.List.Induction
import Mathlib.Data.Prod.Lex
import AdsManagement.Lib.LastOfKey

namespace AdsManagement.Lib

open List

structure Versioned (κ δ : Type) where
  id : Nat
  batch : Nat
  key : κ
  version : Nat
  current : Bool
  createdAt : Nat
  data : δ

/-- The rows in the order of their insertion, and the id of the next one. -/
structure VersionTable (κ δ : Type) where
  rows : List (Versioned κ δ)
  nextId : Nat

variable {κ δ : Type} [DecidableEq κ]

/-! ## 1. The operations -/

def Versioned.clear (r : Versioned κ δ) : Versioned κ δ := { r with current := false }

section

variable (k : κ) (rows : List (Versioned κ δ))

/-- The rows of a key, the newest version first. -/
def newestFirst : List (Versioned κ δ) :=
  (rows.filter fun r => r.key = k).insertionSort fun a b => b.version ≤ a.version

def latestVersion : Nat :=
  ((newestFirst k rows).head?.map (·.version)).getD 0

def currentRow : Option (Versioned κ δ) :=
  (newestFirst k rows).find? (·.current)

end

def clearIds (ids : List Nat) (rows : List (Versioned κ δ)) : List (Versioned κ δ) :=
  rows.map fun r => if r.id ∈ ids then r.clear else r

/-- The row a new version is. -/
def newVersion (batch now : Nat) (k : κ) (d : δ) (t : VersionTable κ δ) : Versioned κ δ where
  id := t.nextId
  batch := batch
  key := k
  version := latestVersion k t.rows + 1
  current := true
  createdAt := now
  data := d

/-- A new version is stored and becomes current; with `supersede` the current row of the key
    loses its flag. -/
def addVersion (supersede : Bool) (batch now : Nat) (k : κ) (d : δ) (t : VersionTable κ δ) :
    VersionTable κ δ where
  rows := clearIds (if supersede then ((currentRow k t.rows).map (·.id)).toList else []) t.rows ++
    [newVersion batch now k d t]
  nextId := t.nextId + 1

/-- A version is offered: a key with a current row keeps it, or the new version supersedes it. -/
def offer (keep : Bool) (batch now : Nat) (k : κ) (d : δ) (t : VersionTable κ δ) :
    VersionTable κ δ :=
  if (currentRow k t.rows).isSome then
    if keep then t else addVersion true batch now k d t
  else addVersion false batch now k d t

section

omit [DecidableEq κ]

/-- The current rows that `p` names lose their flag. -/
def hide (p : κ → Bool) (t : VersionTable κ δ) : VersionTable κ δ :=
  { t with rows := clearIds ((t.rows.filter fun r => r.current && p r.key).map (·.id)) t.rows }

def removeBatch (batch : Nat) (t : VersionTable κ δ) : VersionTable κ δ :=
  { t with rows := t.rows.filter fun r => r.batch ≠ batch }

/-- The greater version comes first, and among equals the later row. -/
def RankedBefore (a b : Versioned κ δ) : Prop :=
  toLex (b.version, b.createdAt) ≤ toLex (a.version, a.createdAt)

end

instance : DecidableRel (@RankedBefore κ δ) := fun a b =>
  inferInstanceAs (Decidable (toLex (b.version, b.createdAt) ≤ toLex (a.version, a.createdAt)))

section

variable (k : κ) (rows : List (Versioned κ δ))

def rankedRows : List (Versioned κ δ) :=
  (rows.filter fun r => r.key = k).insertionSort RankedBefore

def newestRow : Option (Versioned κ δ) :=
  (rankedRows k rows).head?

def clearKey : List (Versioned κ δ) :=
  rows.map fun r => if r.key = k then r.clear else r

end

def markId (id : Nat) (rows : List (Versioned κ δ)) : List (Versioned κ δ) :=
  rows.map fun r => if r.id = id then { r with current := true } else r

/-- All rows of the key lose their flag, and the newest one takes it. -/
def reelect (k : κ) (t : VersionTable κ δ) : VersionTable κ δ :=
  let cleared := clearKey k t.rows
  match newestRow k cleared with
  | some replacement => { t with rows := markId replacement.id cleared }
  | none => { t with rows := cleared }

/-! ## 2. Coherent tables -/

structure Coherent (t : VersionTable κ δ) : Prop where
  nodup : (t.rows.map (·.id)).Nodup
  fresh : ∀ r ∈ t.rows, r.id < t.nextId
  versions : ∀ r ∈ t.rows, ∀ s ∈ t.rows, r.key = s.key → r.version = s.version → r = s
  newest : ∀ r ∈ t.rows, r.current → ∀ s ∈ t.rows, s.key = r.key → s.version ≤ r.version

/-- Some row of the key is current. -/
def HasCurrent (k : κ) (rows : List (Versioned κ δ)) : Prop := ∃ r ∈ rows, r.key = k ∧ r.current

instance (k : κ) (rows : List (Versioned κ δ)) : Decidable (HasCurrent k rows) :=
  inferInstanceAs (Decidable (∃ r ∈ rows, r.key = k ∧ r.current = true))

variable {t : VersionTable κ δ}

omit [DecidableEq κ] in
theorem Coherent.empty : Coherent (⟨[], 0⟩ : VersionTable κ δ) where
  nodup := nodup_nil
  fresh := by intro r hr; cases hr
  versions := by intro r hr; cases hr
  newest := by intro r hr; cases hr

variable {r s : Versioned κ δ}

section

omit [DecidableEq κ]

theorem Coherent.eq_of_id (h : Coherent t) (hr : r ∈ t.rows) (hs : s ∈ t.rows) (e : r.id = s.id) :
    r = s := inj_on_of_nodup_map h.nodup hr hs e

/-- **At most one row of a key is current.** -/
theorem Coherent.oneCurrent (h : Coherent t) (hr : r ∈ t.rows) (hs : s ∈ t.rows) (cr : r.current)
    (cs : s.current) (e : r.key = s.key) : r = s := by
  have h1 := h.newest r hr cr s hs e.symm
  have h2 := h.newest s hs cs r hr e
  exact h.versions r hr s hs e (Nat.le_antisymm h2 h1)

/-- Two rows of one key differ in version, and not both are current. -/
theorem Coherent.pairwise (h : Coherent t) :
    t.rows.Pairwise fun r s => r.key = s.key → r.version ≠ s.version ∧ ¬ (r.current ∧ s.current) := by
  refine (Nodup.of_map _ h.nodup).pairwise_of_forall_ne fun r hr s hs hne hk => ?_
  exact ⟨fun e => hne (h.versions r hr s hs hk e), fun ⟨cr, cs⟩ => hne (h.oneCurrent hr hs cr cs hk)⟩

end

variable {f : Versioned κ δ → Versioned κ δ}

section

omit [DecidableEq κ]

/-- A change of flags that makes no row current but the newest of its key keeps coherence. -/
theorem Coherent.reflag (h : Coherent t) (hf : ∀ r, f r = { r with current := (f r).current })
    (hn : ∀ r ∈ t.rows, (f r).current → ∀ s ∈ t.rows, s.key = r.key → s.version ≤ r.version) :
    Coherent { t with rows := t.rows.map f } where
  nodup := by
    have e : (t.rows.map f).map (·.id) = t.rows.map (·.id) := by
      rw [map_map]
      refine map_congr_left fun r _ => ?_
      show (f r).id = r.id
      rw [hf r]
    rw [e]
    exact h.nodup
  fresh := by
    intro s hs
    obtain ⟨r, hr, rfl⟩ := mem_map.mp hs
    rw [hf r]
    exact h.fresh r hr
  versions := by
    intro a ha b hb ek ev
    obtain ⟨r, hr, rfl⟩ := mem_map.mp ha
    obtain ⟨s, hs, rfl⟩ := mem_map.mp hb
    rw [hf r, hf s] at ek ev
    rw [h.versions r hr s hs ek ev]
  newest := by
    intro a ha hc b hb ek
    obtain ⟨r, hr, rfl⟩ := mem_map.mp ha
    obtain ⟨s, hs, rfl⟩ := mem_map.mp hb
    have h1 := hn r hr hc s hs
    rw [hf r, hf s] at ek ⊢
    exact h1 ek

theorem Coherent.clearIds (h : Coherent t) (ids : List Nat) :
    Coherent { t with rows := Lib.clearIds ids t.rows } := by
  refine h.reflag (f := fun r => if r.id ∈ ids then r.clear else r) (fun r => ?_) fun r hr hc => ?_
  · split
    · rfl
    · rfl
  · split at hc
    · cases hc
    · exact h.newest r hr hc

theorem Coherent.hide (h : Coherent t) (p : κ → Bool) : Coherent (hide p t) := h.clearIds _

theorem Coherent.removeBatch (h : Coherent t) (batch : Nat) : Coherent (removeBatch batch t) where
  nodup := h.nodup.sublist (filter_sublist.map _)
  fresh := fun r hr => h.fresh r (mem_filter.mp hr).1
  versions := fun r hr s hs => h.versions r (mem_filter.mp hr).1 s (mem_filter.mp hs).1
  newest := fun r hr hc s hs => h.newest r (mem_filter.mp hr).1 hc s (mem_filter.mp hs).1

end

/-! ## 3. A new version -/

variable {rows : List (Versioned κ δ)} {k : κ}

theorem mem_newestFirst : r ∈ newestFirst k rows ↔ r ∈ rows ∧ r.key = k := by
  unfold newestFirst
  simp

theorem version_le_latestVersion (hr : r ∈ rows) (hk : r.key = k) : r.version ≤ latestVersion k rows := by
  have hm := mem_newestFirst.mpr ⟨hr, hk⟩
  have hs : (newestFirst k rows).Pairwise fun a b => b.version ≤ a.version :=
    pairwise_insertionSort _ _
  unfold latestVersion
  cases e : newestFirst k rows with
  | nil => rw [e] at hm; cases hm
  | cons a l =>
    rw [e] at hm hs
    rcases mem_cons.mp hm with rfl | hm
    · exact Nat.le_refl _
    · exact (pairwise_cons.mp hs).1 r hm

theorem currentRow_isSome : (currentRow k rows).isSome ↔ HasCurrent k rows := by
  unfold currentRow
  rw [find?_isSome]
  constructor
  · rintro ⟨r, hr, hc⟩
    obtain ⟨hm, hk⟩ := mem_newestFirst.mp hr
    exact ⟨r, hm, hk, hc⟩
  · rintro ⟨r, hr, hk, hc⟩
    exact ⟨r, mem_newestFirst.mpr ⟨hr, hk⟩, hc⟩

/-- The rows that `p` names are without a flag: what hiding and superseding come to. -/
def hideKeys (p : κ → Bool) (rows : List (Versioned κ δ)) : List (Versioned κ δ) :=
  rows.map fun r => if p r.key then r.clear else r

omit [DecidableEq κ] in
theorem clear_of_not_current (h : r.current = false) : r.clear = r := by
  cases r
  cases h
  rfl

variable {p : κ → Bool}

omit [DecidableEq κ] in
/-- Clearing the ids of the current rows that `p` names. -/
theorem clearIds_eq_hideKeys {ids : List Nat} (hids : ∀ r ∈ t.rows, r.id ∈ ids ↔ r.current ∧ p r.key) :
    clearIds ids t.rows = hideKeys p t.rows := by
  refine map_congr_left fun r hr => ?_
  by_cases hp : p r.key
  · rw [if_pos hp]
    by_cases hc : r.current
    · rw [if_pos ((hids r hr).mpr ⟨hc, hp⟩)]
    · rw [if_neg fun hm => hc ((hids r hr).mp hm).1, clear_of_not_current (by simpa using hc)]
  · rw [if_neg hp, if_neg fun hm => hp ((hids r hr).mp hm).2]

omit [DecidableEq κ] in
theorem hide_rows (h : Coherent t) (p : κ → Bool) : (hide p t).rows = hideKeys p t.rows := by
  refine clearIds_eq_hideKeys fun r hr => ?_
  rw [mem_map]
  constructor
  · rintro ⟨s, hs, e⟩
    obtain ⟨hs, hp⟩ := mem_filter.mp hs
    rw [← h.eq_of_id hs hr e]
    simpa using hp
  · intro hp
    exact ⟨r, mem_filter.mpr ⟨hr, by simpa using hp⟩, rfl⟩

variable {supersede : Bool}

section

variable (h : Coherent t) (hs : supersede = false → ¬ HasCurrent k t.rows) (batch now : Nat) (d : δ)
include h hs

/-- **A new version in closed form**: the rows of its key are no longer current. -/
theorem addVersion_rows : (addVersion supersede batch now k d t).rows =
      hideKeys (fun j => j = k) t.rows ++ [newVersion batch now k d t] := by
  refine congrArg (· ++ _) (clearIds_eq_hideKeys fun r hr => ?_)
  have hcur : r.current ∧ r.key = k ↔ currentRow k t.rows = some r := by
    constructor
    · rintro ⟨hc, hk⟩
      have hsome := currentRow_isSome.mpr ⟨r, hr, hk, hc⟩
      obtain ⟨c, ec⟩ := Option.isSome_iff_exists.mp hsome
      obtain ⟨hm, ck⟩ := mem_newestFirst.mp (mem_of_find?_eq_some ec)
      rw [ec, h.oneCurrent hm hr (find?_some ec) hc (ck.trans hk.symm)]
    · intro e
      exact ⟨find?_some e, (mem_newestFirst.mp (mem_of_find?_eq_some e)).2⟩
  simp only [decide_eq_true_eq]
  rw [hcur]
  cases supersede with
  | false =>
    have hnone : currentRow k t.rows = none := by
      rw [← Option.not_isSome_iff_eq_none, currentRow_isSome]
      exact hs rfl
    simp [hnone]
  | true =>
    simp only [if_true, Option.mem_toList, Option.map_eq_some_iff]
    constructor
    · rintro ⟨c, ec, e⟩
      obtain ⟨hm, -⟩ := mem_newestFirst.mp (mem_of_find?_eq_some ec)
      rw [ec, h.eq_of_id hm hr e]
    · intro e
      exact ⟨r, e, rfl⟩

theorem Coherent.addVersion : Coherent (addVersion supersede batch now k d t) := by
  have e := addVersion_rows h hs batch now d
  have hold : Coherent { t with rows := hideKeys (fun j => decide (j = k)) t.rows } := by
    rw [← hide_rows h]
    exact h.hide fun j => decide (j = k)
  have hlt : ∀ r ∈ hideKeys (fun j => decide (j = k)) t.rows, r.key = k →
      r.version < latestVersion k t.rows + 1 := by
    intro r hr hk
    obtain ⟨s, hm, rfl⟩ := mem_map.mp hr
    have hk' : s.key = k := by
      split at hk
      · exact hk
      · exact hk
    have := version_le_latestVersion hm hk'
    split
    · show s.version < _
      omega
    · omega
  have hclear : ∀ r ∈ hideKeys (fun j => decide (j = k)) t.rows, r.key = k → r.current = false := by
    intro r hr hk
    obtain ⟨s, hm, rfl⟩ := mem_map.mp hr
    split at hk
    · rw [if_pos (by assumption)]
      rfl
    · next hne => exact absurd (decide_eq_true hk) hne
  refine ⟨?_, ?_, ?_, ?_⟩
  · rw [e]
    exact nodup_map_concat hold.nodup fun r hr => Nat.ne_of_lt (hold.fresh r hr)
  · rw [e]
    intro r hr
    rcases mem_append.mp hr with hr | hr
    · exact Nat.lt_succ_of_lt (hold.fresh r hr)
    · rw [mem_singleton.mp hr]
      exact Nat.lt_succ_self _
  · rw [e]
    intro r hr s hs' ek ev
    rcases mem_append.mp hr with hr | hr <;> rcases mem_append.mp hs' with hs' | hs'
    · exact hold.versions r hr s hs' ek ev
    · rw [mem_singleton.mp hs'] at ek ev
      exact absurd ev (Nat.ne_of_lt (hlt r hr ek))
    · rw [mem_singleton.mp hr] at ek ev
      exact absurd ev.symm (Nat.ne_of_lt (hlt s hs' ek.symm))
    · rw [mem_singleton.mp hr, mem_singleton.mp hs']
  · rw [e]
    intro r hr hc s hs' ek
    rcases mem_append.mp hr with hr | hr <;> rcases mem_append.mp hs' with hs' | hs'
    · exact hold.newest r hr hc s hs' ek
    · rw [mem_singleton.mp hs'] at ek
      rw [hclear r hr ek.symm] at hc
      cases hc
    · rw [mem_singleton.mp hr] at ek ⊢
      exact Nat.le_of_lt (hlt s hs' ek)
    · rw [mem_singleton.mp hr, mem_singleton.mp hs']

end

theorem Coherent.offer (h : Coherent t) (keep : Bool) (batch now : Nat) (k : κ) (d : δ) :
    Coherent (offer keep batch now k d t) := by
  unfold Lib.offer
  split
  · split
    · exact h
    · exact h.addVersion (fun e => absurd e.symm Bool.false_ne_true) batch now d
  · next hc => exact h.addVersion (fun _ hk => hc (currentRow_isSome.mpr hk)) batch now d

/-- **An offer in closed form.** -/
theorem offer_rows (h : Coherent t) (keep : Bool) (batch now : Nat) (k : κ) (d : δ) :
    (offer keep batch now k d t).rows =
      if keep ∧ HasCurrent k t.rows then t.rows
      else hideKeys (fun j => j = k) t.rows ++ [newVersion batch now k d t] := by
  unfold offer
  by_cases hc : HasCurrent k t.rows
  · rw [if_pos (currentRow_isSome.mpr hc)]
    cases keep with
    | true => rw [if_pos rfl, if_pos ⟨rfl, hc⟩]
    | false =>
      exact addVersion_rows h (fun e => absurd e.symm Bool.false_ne_true) batch now d
  · rw [if_neg fun hs => hc (currentRow_isSome.mp hs), if_neg fun hn => hc hn.2]
    exact addVersion_rows h (fun _ => hc) batch now d

/-! ## 4. Elections -/

theorem mem_rankedRows : r ∈ rankedRows k rows ↔ r ∈ rows ∧ r.key = k := by
  unfold rankedRows
  simp

variable {w : Versioned κ δ}

theorem mem_newestRow (h : newestRow k rows = some w) : w ∈ rows ∧ w.key = k :=
  mem_rankedRows.mp (mem_of_mem_head? (Option.mem_def.mpr h))

theorem version_le_newestRow (h : newestRow k rows = some w) (hr : r ∈ rows) (hk : r.key = k) :
    r.version ≤ w.version := by
  have : Std.Total (@RankedBefore κ δ) :=
    ⟨fun a b => le_total (toLex (b.version, b.createdAt)) (toLex (a.version, a.createdAt))⟩
  have : IsTrans _ (@RankedBefore κ δ) := ⟨fun a b c hab hbc => le_trans hbc hab⟩
  have hs : (rankedRows k rows).Pairwise RankedBefore := pairwise_insertionSort _ _
  have hm := mem_rankedRows.mpr ⟨hr, hk⟩
  unfold newestRow at h
  cases e : rankedRows k rows with
  | nil => rw [e] at h; cases h
  | cons a l =>
    rw [e] at h hs hm
    cases h
    rcases mem_cons.mp hm with rfl | hm
    · exact Nat.le_refl _
    · rcases Prod.Lex.toLex_le_toLex.mp ((pairwise_cons.mp hs).1 r hm) with hlt | heq
      · exact Nat.le_of_lt hlt
      · exact Nat.le_of_eq heq.1

theorem newestRow_eq_none (h : newestRow k rows = none) : ∀ r ∈ rows, r.key ≠ k := by
  intro r hr hk
  have hm := mem_rankedRows.mpr ⟨hr, hk⟩
  rw [head?_eq_none_iff.mp h] at hm
  cases hm

/-- No stored row of the same key has a greater version. -/
def IsNewest (rows : List (Versioned κ δ)) (r : Versioned κ δ) : Prop :=
  ∀ s ∈ rows, s.key = r.key → s.version ≤ r.version

instance (rows : List (Versioned κ δ)) (r : Versioned κ δ) : Decidable (IsNewest rows r) :=
  inferInstanceAs (Decidable (∀ s ∈ rows, s.key = r.key → s.version ≤ r.version))

theorem exists_newest (hr : r ∈ rows) : ∃ w ∈ rows, w.key = r.key ∧ IsNewest rows w := by
  cases h : newestRow r.key rows with
  | none => exact absurd rfl (newestRow_eq_none h r hr)
  | some w =>
    obtain ⟨hw, hk⟩ := mem_newestRow h
    exact ⟨w, hw, hk, fun s hs e => version_le_newestRow h hs (e.trans hk)⟩

/-- In a coherent table a key with a current row has it in its newest one. -/
theorem Coherent.current_iff_newest (h : Coherent t) (hr : r ∈ t.rows) (hc : HasCurrent r.key t.rows) :
    r.current = decide (IsNewest t.rows r) := by
  obtain ⟨s, hs, hk, cs⟩ := hc
  by_cases hn : IsNewest t.rows r
  · have e : r = s := h.versions r hr s hs hk.symm
      (Nat.le_antisymm (h.newest s hs cs r hr hk.symm) (hn s hs hk))
    rw [decide_eq_true hn, e]
    exact cs
  · rw [decide_eq_false hn, Bool.eq_false_iff]
    exact fun cr => hn (h.newest r hr cr)

/-- **An election in closed form**: the newest row of the key is its current one. -/
theorem reelect_rows (h : Coherent t) (k : κ) :
    (reelect k t).rows = t.rows.map fun r =>
      if r.key = k then { r with current := decide (IsNewest t.rows r) } else r := by
  have hmem : ∀ s ∈ clearKey k t.rows, ∃ r ∈ t.rows, s.id = r.id ∧ s.key = r.key ∧
      s.version = r.version := by
    intro s hs
    obtain ⟨r, hr, rfl⟩ := mem_map.mp hs
    refine ⟨r, hr, ?_⟩
    split
    · exact ⟨rfl, rfl, rfl⟩
    · exact ⟨rfl, rfl, rfl⟩
  have hin : ∀ r ∈ t.rows, r.key = k → r.clear ∈ clearKey k t.rows := by
    intro r hr hk
    exact mem_map.mpr ⟨r, hr, if_pos hk⟩
  unfold reelect
  dsimp only
  cases e : newestRow k (clearKey k t.rows) with
  | none =>
    refine map_congr_left fun r hr => ?_
    by_cases hk : r.key = k
    · exact absurd hk (newestRow_eq_none e r.clear (hin r hr hk))
    · rw [if_neg hk, if_neg hk]
  | some w =>
    obtain ⟨hw, wk⟩ := mem_newestRow e
    obtain ⟨x, hx, xid, xkey, xversion⟩ := hmem w hw
    have hxk : x.key = k := xkey.symm.trans wk
    have hxn : IsNewest t.rows x := fun s hs hk => by
      rw [← xversion]
      show s.clear.version ≤ w.version
      exact version_le_newestRow e (hin s hs (hk.trans hxk)) (hk.trans hxk)
    show markId w.id (clearKey k t.rows) = _
    unfold markId clearKey
    rw [map_map]
    refine map_congr_left fun r hr => ?_
    simp only [Function.comp_apply]
    by_cases hk : r.key = k
    · rw [if_pos hk, if_pos hk]
      by_cases hid : r.id = w.id
      · have : r = x := h.eq_of_id hr hx (hid.trans xid)
        subst this
        rw [if_pos (show r.clear.id = w.id from hid), decide_eq_true hxn]
        rfl
      · have hn : ¬ IsNewest t.rows r := fun hn => by
          have hle := hn x hx (hxk.trans hk.symm)
          have hge := hxn r hr (hk.trans hxk.symm)
          have := h.versions r hr x hx (hk.trans hxk.symm) (Nat.le_antisymm hge hle)
          exact hid (by rw [this, xid])
        rw [if_neg (show ¬ r.clear.id = w.id from hid), decide_eq_false hn]
        rfl
    · rw [if_neg hk, if_neg hk]
      have hid : r.id ≠ w.id := fun hid => hk (by rw [h.eq_of_id hr hx (hid.trans xid), hxk])
      rw [if_neg hid]

theorem Coherent.reelect (h : Coherent t) (k : κ) : Coherent (reelect k t) := by
  have hn : (Lib.reelect k t).nextId = t.nextId := by
    unfold Lib.reelect
    dsimp only
    split
    · rfl
    · rfl
  have e : Lib.reelect k t = { t with rows := (Lib.reelect k t).rows } := by
    rw [← hn]
  rw [e, reelect_rows h]
  refine h.reflag (fun r => ?_) fun r hr hc => ?_
  · split
    · rfl
    · rfl
  · split at hc
    · exact of_decide_eq_true hc
    · exact h.newest r hr hc

omit [DecidableEq κ] in
theorem isNewest_map (hf : ∀ r, (f r).key = r.key ∧ (f r).version = r.version) (r : Versioned κ δ) :
    IsNewest (rows.map f) (f r) ↔ IsNewest rows r := by
  constructor
  · intro h s hs hk
    have := h (f s) (mem_map_of_mem hs) (by rw [(hf s).1, (hf r).1, hk])
    rwa [(hf s).2, (hf r).2] at this
  · intro h s hs hk
    obtain ⟨u, hu, rfl⟩ := mem_map.mp hs
    rw [(hf u).1, (hf r).1] at hk
    rw [(hf u).2, (hf r).2]
    exact h u hu hk

/-! ## 5. Many keys -/

theorem Coherent.foldl_reelect (h : Coherent t) (ks : List κ) :
    Coherent (ks.foldl (fun t k => Lib.reelect k t) t) := by
  induction ks generalizing t with
  | nil => exact h
  | cons k ks ih => exact ih (h.reelect k)

/-- **Elections for a list of keys in closed form.** -/
theorem foldl_reelect_rows (h : Coherent t) (ks : List κ) :
    (ks.foldl (fun t k => reelect k t) t).rows = t.rows.map fun r =>
      if r.key ∈ ks then { r with current := decide (IsNewest t.rows r) } else r := by
  induction ks generalizing t with
  | nil => simp
  | cons k ks ih =>
    rw [foldl_cons, ih (h.reelect k), reelect_rows h k, map_map]
    refine map_congr_left fun r _ => ?_
    have hf : ∀ r : Versioned κ δ,
        (if r.key = k then { r with current := decide (IsNewest t.rows r) } else r).key = r.key ∧
        (if r.key = k then { r with current := decide (IsNewest t.rows r) } else r).version =
          r.version := by
      intro r
      split
      · exact ⟨rfl, rfl⟩
      · exact ⟨rfl, rfl⟩
    simp only [Function.comp_apply, isNewest_map hf]
    by_cases hk : r.key = k
    · by_cases hm : r.key ∈ ks
      · simp [hk]
      · simp [hk]
    · simp [hk]

/-- The row stored for an entry that was offered. -/
structure IsVersionOf (batch : Nat) (entry : κ × δ) (r : Versioned κ δ) : Prop where
  key : r.key = entry.1
  data : r.data = entry.2
  batch : r.batch = batch
  current : r.current = true

variable {entries : List (κ × δ)}
variable {news : List (Versioned κ δ)} {batch : Nat}

omit [DecidableEq κ] in
theorem entry_of_mem_news (h : Forall₂ (IsVersionOf batch) entries news) (hr : r ∈ news) :
    ∃ e ∈ entries, IsVersionOf batch e r := by
  induction h with
  | nil => cases hr
  | cons he _ ih =>
    rcases mem_cons.mp hr with rfl | hr
    · exact ⟨_, mem_cons_self, he⟩
    · obtain ⟨e, hm, hv⟩ := ih hr
      exact ⟨e, mem_cons_of_mem _ hm, hv⟩

omit [DecidableEq κ] in
theorem news_of_mem_entry (h : Forall₂ (IsVersionOf batch) entries news) {e : κ × δ} (he : e ∈ entries) :
    ∃ r ∈ news, IsVersionOf batch e r := by
  induction h with
  | nil => cases he
  | cons hv _ ih =>
    rcases mem_cons.mp he with rfl | he
    · exact ⟨_, mem_cons_self, hv⟩
    · obtain ⟨r, hm, hr⟩ := ih he
      exact ⟨r, mem_cons_of_mem _ hm, hr⟩

/-- The entries of a list that are stored. -/
def storedEntries (keep : Bool) (rows : List (Versioned κ δ)) (entries : List (κ × δ)) :
    List (κ × δ) :=
  entries.filter fun e => !(keep && decide (HasCurrent e.1 rows))

theorem Coherent.foldl_offer (h : Coherent t) (keep : Bool) (batch now : Nat)
    (entries : List (κ × δ)) :
    Coherent (entries.foldl (fun t e => Lib.offer keep batch now e.1 e.2 t) t) := by
  induction entries generalizing t with
  | nil => exact h
  | cons e entries ih => exact ih (h.offer keep batch now e.1 e.2)

section

omit [DecidableEq κ]

theorem hideKeys_hideKeys (p q : κ → Bool) (rows : List (Versioned κ δ)) :
    hideKeys p (hideKeys q rows) = hideKeys (fun k => q k || p k) rows := by
  unfold hideKeys
  rw [map_map]
  refine map_congr_left fun r _ => ?_
  by_cases hq : q r.key
  · by_cases hp : p r.key
    · simp [hq, Versioned.clear]
    · simp [hq, Versioned.clear]
  · by_cases hp : p r.key
    · simp [hq]
    · simp [hq]

theorem hideKeys_congr {q : κ → Bool} (h : ∀ r ∈ rows, p r.key = q r.key) :
    hideKeys p rows = hideKeys q rows :=
  map_congr_left fun r hr => by rw [h r hr]

theorem hideKeys_append (p : κ → Bool) (rows rows' : List (Versioned κ δ)) :
    hideKeys p (rows ++ rows') = hideKeys p rows ++ hideKeys p rows' := map_append

theorem hideKeys_of_not (h : ∀ r ∈ rows, p r.key = false) : hideKeys p rows = rows := by
  conv_rhs => rw [← map_id rows]
  refine map_congr_left fun r hr => ?_
  rw [if_neg (by rw [h r hr]; exact Bool.false_ne_true)]
  rfl

end

theorem hasCurrent_offer {j : κ} (h : Coherent t) (hne : j ≠ k) (keep : Bool) (batch now : Nat) (d : δ) :
    HasCurrent j (offer keep batch now k d t).rows ↔ HasCurrent j t.rows := by
  rw [offer_rows h]
  split
  · exact Iff.rfl
  · constructor
    · rintro ⟨r, hr, hk, hc⟩
      rcases mem_append.mp hr with hr | hr
      · obtain ⟨s, hs, rfl⟩ := mem_map.mp hr
        split at hc
        · cases hc
        · next hp => rw [if_neg hp] at hk; exact ⟨s, hs, hk, hc⟩
      · rw [mem_singleton.mp hr] at hk
        exact absurd hk.symm hne
    · rintro ⟨r, hr, hk, hc⟩
      refine ⟨r, mem_append_left _ (mem_map.mpr ⟨r, hr, if_neg ?_⟩), hk, hc⟩
      simpa [hk] using hne

/-- **Offers of distinct keys in closed form**: the old rows of the stored keys lose their flag,
    and there is one new current row for each stored entry. -/
theorem foldl_offer_rows (h : Coherent t) (keep : Bool) (batch now : Nat) (hn : (entries.map (·.1)).Nodup) :
    ∃ news, (entries.foldl (fun t e => offer keep batch now e.1 e.2 t) t).rows =
        hideKeys (fun k => k ∈ (storedEntries keep t.rows entries).map (·.1)) t.rows ++ news ∧
      Forall₂ (IsVersionOf batch) (storedEntries keep t.rows entries) news := by
  induction entries generalizing t with
  | nil =>
    refine ⟨[], ?_, Forall₂.nil⟩
    rw [append_nil]
    exact (hideKeys_of_not fun r _ => by simp [storedEntries]).symm
  | cons e entries ih =>
    obtain ⟨hk, hn⟩ := nodup_cons.mp hn
    obtain ⟨news, hrows, hnews⟩ := ih (h.offer keep batch now e.1 e.2) hn
    -- the other keys see the table as it was
    have hsame : storedEntries keep (offer keep batch now e.1 e.2 t).rows entries =
        storedEntries keep t.rows entries := by
      refine filter_congr fun e' he' => ?_
      have hne : e'.1 ≠ e.1 := fun heq => hk (mem_map.mpr ⟨e', he', heq⟩)
      simp only [hasCurrent_offer h hne]
    have hnot : e.1 ∉ (storedEntries keep t.rows entries).map (·.1) := fun hm =>
      hk ((filter_sublist.map _).subset hm)
    rw [hsame] at hrows hnews
    rw [foldl_cons, hrows, offer_rows h]
    by_cases hc : keep = true ∧ HasCurrent e.1 t.rows
    · have hstored : storedEntries keep t.rows (e :: entries) =
          storedEntries keep t.rows entries := by
        unfold storedEntries
        rw [filter_cons_of_neg]
        simpa using hc
      rw [if_pos hc, hstored]
      exact ⟨news, rfl, hnews⟩
    · have hstored : storedEntries keep t.rows (e :: entries) =
          e :: storedEntries keep t.rows entries := by
        unfold storedEntries
        rw [filter_cons_of_pos]
        simpa [imp_iff_not_or] using hc
      refine ⟨newVersion batch now e.1 e.2 t :: news, ?_, ?_⟩
      · rw [if_neg hc, hstored, hideKeys_append, hideKeys_hideKeys, append_assoc]
        refine congrArg₂ (· ++ ·) ?_ ?_
        · refine map_congr_left fun r _ => ?_
          simp only [map_cons, mem_cons, Bool.decide_or]
        · rw [hideKeys_of_not]
          · rfl
          · intro r hr
            rw [mem_singleton.mp hr]
            exact decide_eq_false hnot
      · rw [hstored]
        exact Forall₂.cons ⟨rfl, rfl, rfl, rfl⟩ hnews

/-- Offers to keys that keep their current row change nothing. -/
theorem foldl_offer_keep (batch now : Nat) (hk : ∀ e ∈ entries, HasCurrent e.1 t.rows) :
    entries.foldl (fun t e => offer true batch now e.1 e.2 t) t = t := by
  induction entries with
  | nil => rfl
  | cons e entries ih =>
    have he : offer true batch now e.1 e.2 t = t := by
      unfold offer
      rw [if_pos (currentRow_isSome.mpr (hk e mem_cons_self)), if_pos rfl]
    rw [foldl_cons, he]
    exact ih fun e' he' => hk e' (mem_cons_of_mem _ he')

/-! ## 6. Hidden rows followed by new versions -/

section HiddenAndNew

section

omit [DecidableEq κ]

theorem mem_hideKeys (hr : r ∈ hideKeys p rows) :
    ∃ s ∈ rows, r = { s with current := r.current } := by
  obtain ⟨s, hs, rfl⟩ := mem_map.mp hr
  refine ⟨s, hs, ?_⟩
  split
  · rfl
  · rfl

theorem mem_hideKeys_current :
    r ∈ hideKeys p rows ∧ r.current ↔ r ∈ rows ∧ r.current ∧ p r.key = false := by
  constructor
  · rintro ⟨hr, hc⟩
    obtain ⟨s, hs, rfl⟩ := mem_map.mp hr
    by_cases hp : p s.key
    · rw [if_pos hp] at hc
      cases hc
    · rw [if_neg hp] at hc ⊢
      exact ⟨hs, hc, by simpa using hp⟩
  · rintro ⟨hr, hc, hp⟩
    exact ⟨mem_map.mpr ⟨r, hr, if_neg (by rw [hp]; exact Bool.false_ne_true)⟩, hc⟩

/-- The current columns of a key. -/
def Holds (k : κ) (d : δ) (rows : List (Versioned κ δ)) : Prop :=
  ∃ r ∈ rows, r.current ∧ r.key = k ∧ r.data = d

end

variable {d : δ}

/-- One version takes the place of the current one of its key. -/
theorem holds_offer (h : Coherent t) (batch now : Nat) (e : κ × δ) :
    Holds k d (offer false batch now e.1 e.2 t).rows ↔
      (k, d) = e ∨ (k ≠ e.1 ∧ Holds k d t.rows) := by
  rw [offer_rows h]
  constructor
  · rintro ⟨r, hr, hc, hk, hd⟩
    rcases mem_append.mp hr with hr | hr
    · obtain ⟨hr, hc, hp⟩ := mem_hideKeys_current.mp ⟨hr, hc⟩
      rw [hk] at hp
      exact .inr ⟨of_decide_eq_false hp, r, hr, hc, hk, hd⟩
    · rw [mem_singleton.mp hr] at hk hd
      exact .inl (Prod.ext hk.symm hd.symm)
  · rintro (rfl | ⟨hne, r, hr, hc, hk, hd⟩)
    · exact ⟨_, mem_append_right _ (mem_singleton.mpr rfl), rfl, rfl, rfl⟩
    · have hp : decide (r.key = e.1) = false := decide_eq_false (hk ▸ hne)
      obtain ⟨hr, hc⟩ := (mem_hideKeys_current (p := fun j => decide (j = e.1))).mpr ⟨hr, hc, hp⟩
      exact ⟨r, mem_append_left _ hr, hc, hk, hd⟩

omit [DecidableEq κ] in
theorem holds_hide (h : Coherent t) :
    Holds k d (hide p t).rows ↔ p k = false ∧ Holds k d t.rows := by
  rw [hide_rows h]
  constructor
  · rintro ⟨r, hr, hc, hk, hd⟩
    obtain ⟨hr, hc, hp⟩ := mem_hideKeys_current.mp ⟨hr, hc⟩
    exact ⟨hk ▸ hp, r, hr, hc, hk, hd⟩
  · rintro ⟨hp, r, hr, hc, hk, hd⟩
    obtain ⟨hr, hc⟩ := mem_hideKeys_current.mpr ⟨hr, hc, hk.symm ▸ hp⟩
    exact ⟨r, hr, hc, hk, hd⟩

/-- **Of the versions offered for a key the last one is current**, also when keys repeat. -/
theorem holds_foldl_offer (h : Coherent t) (batch now : Nat) (entries : List (κ × δ)) :
    Holds k d (entries.foldl (fun t e => offer false batch now e.1 e.2 t) t).rows ↔
      (k, d) ∈ lastOfKey (·.1) entries ∨ (k ∉ entries.map (·.1) ∧ Holds k d t.rows) := by
  induction entries using reverseRecOn with
  | nil => simp [lastOfKey]
  | append_singleton entries e ih =>
    rw [foldl_append, foldl_cons, foldl_nil,
      holds_offer (h.foldl_offer false batch now entries), lastOfKey_append_singleton,
      mem_append, mem_filter, mem_singleton, map_append, mem_append,
      map_singleton, mem_singleton]
    simp only [decide_eq_true_eq]
    tauto

omit [DecidableEq κ]

/-- The current keys of such a table. -/
theorem hasCurrent_hide_append (hnews : Forall₂ (IsVersionOf batch) entries news) :
    HasCurrent k (hideKeys p rows ++ news) ↔
      (HasCurrent k rows ∧ p k = false) ∨ k ∈ entries.map (·.1) := by
  constructor
  · rintro ⟨r, hr, hk, hc⟩
    rcases mem_append.mp hr with hr | hr
    · obtain ⟨hr, hc, hp⟩ := mem_hideKeys_current.mp ⟨hr, hc⟩
      rw [hk] at hp
      exact .inl ⟨⟨r, hr, hk, hc⟩, hp⟩
    · obtain ⟨e, he, hv⟩ := entry_of_mem_news hnews hr
      exact .inr (mem_map.mpr ⟨e, he, hv.key.symm.trans hk⟩)
  · rintro (⟨⟨r, hr, hk, hc⟩, hp⟩ | hm)
    · rw [← hk] at hp
      obtain ⟨hr, hc⟩ := mem_hideKeys_current.mpr ⟨hr, hc, hp⟩
      exact ⟨r, mem_append_left _ hr, hk, hc⟩
    · obtain ⟨e, he, rfl⟩ := mem_map.mp hm
      obtain ⟨r, hr, hv⟩ := news_of_mem_entry hnews he
      exact ⟨r, mem_append_right _ hr, hv.key, hv.current⟩

/-- **Frame**: the rows of keys that are neither hidden nor stored stay as they are. -/
theorem filter_hide_append {q : κ → Bool} (hnews : Forall₂ (IsVersionOf batch) entries news)
    (hp : ∀ k, q k = true → p k = false) (he : ∀ e ∈ entries, q e.1 = false) :
    (hideKeys p rows ++ news).filter (fun r => q r.key) = rows.filter fun r => q r.key := by
  have hnone : news.filter (fun r => q r.key) = [] := by
    refine filter_eq_nil_iff.mpr fun r hr => ?_
    obtain ⟨e, hm, hv⟩ := entry_of_mem_news hnews hr
    rw [hv.key, he e hm]
    exact Bool.false_ne_true
  have hkey : ∀ r : Versioned κ δ, (if p r.key then r.clear else r).key = r.key := by
    intro r
    split
    · rfl
    · rfl
  have hold : ((rows.map fun r => if p r.key then r.clear else r).filter fun r => q r.key) =
      rows.filter fun r => q r.key := by
    rw [filter_map]
    have hsame : (rows.filter ((fun r => q r.key) ∘ fun r => if p r.key then r.clear else r)) =
        rows.filter fun r => q r.key :=
      filter_congr fun r _ => by rw [Function.comp_apply, hkey]
    rw [hsame]
    conv_rhs => rw [← map_id (rows.filter fun r => q r.key)]
    refine map_congr_left fun r hr => ?_
    rw [if_neg (by rw [hp r.key (mem_filter.mp hr).2]; exact Bool.false_ne_true)]
    rfl
  rw [filter_append, hnone, append_nil]
  exact hold

end HiddenAndNew

/-! ## 7. Where rows come from -/

/-- Every row of `t'` is a row of `t` but for its flag, or was stored by `batch` for an entry. -/
def Descends (batch : Nat) (entries : List (κ × δ)) (t t' : VersionTable κ δ) : Prop :=
  ∀ r ∈ t'.rows, (∃ s ∈ t.rows, r = { s with current := r.current }) ∨
    (r.batch = batch ∧ (r.key, r.data) ∈ entries)

section Descends

variable {t' t'' : VersionTable κ δ}

section

omit [DecidableEq κ]

theorem Descends.refl : Descends batch entries t t := fun r hr => .inl ⟨r, hr, rfl⟩

theorem Descends.trans (h : Descends batch entries t t') (h' : Descends batch entries t' t'') :
    Descends batch entries t t'' := by
  intro r hr
  rcases h' r hr with ⟨s, hs, e⟩ | hn
  · rcases h s hs with ⟨u, hu, e'⟩ | ⟨hb, hm⟩
    · refine .inl ⟨u, hu, ?_⟩
      rw [e, e']
    · rw [e]
      exact .inr ⟨hb, hm⟩
  · exact .inr hn

theorem Descends.mono {entries' : List (κ × δ)} (h : Descends batch entries t t')
    (hs : ∀ e ∈ entries, e ∈ entries') : Descends batch entries' t t' := fun r hr =>
  (h r hr).imp_right fun hn => ⟨hn.1, hs _ hn.2⟩

/-- A pass over the rows that changes flags only. -/
theorem Descends.of_map (hf : ∀ r, f r = { r with current := (f r).current })
    (hrows : t'.rows = t.rows.map f) :
    Descends batch entries t t' := by
  intro r hr
  rw [hrows] at hr
  obtain ⟨s, hs, rfl⟩ := mem_map.mp hr
  exact .inl ⟨s, hs, hf s⟩

theorem clearIds_flag (ids : List Nat) (r : Versioned κ δ) : (if r.id ∈ ids then r.clear else r) =
    { r with current := (if r.id ∈ ids then r.clear else r).current } := by
  split
  · rfl
  · rfl

theorem Descends.hide (p : κ → Bool) : Descends batch entries t (hide p t) :=
  Descends.of_map (clearIds_flag _) rfl

theorem Descends.removeBatch (b : Nat) : Descends batch entries t (removeBatch b t) :=
  fun r hr => .inl ⟨r, (mem_filter.mp hr).1, rfl⟩

end

theorem Descends.offer (keep : Bool) (now : Nat) {d : δ} (hm : (k, d) ∈ entries) :
    Descends batch entries t (offer keep batch now k d t) := by
  have add : ∀ supersede, Descends batch entries t (addVersion supersede batch now k d t) := by
    intro supersede r hr
    rcases mem_append.mp hr with hr | hr
    · obtain ⟨s, hs, rfl⟩ := mem_map.mp hr
      exact .inl ⟨s, hs, clearIds_flag _ s⟩
    · rw [mem_singleton.mp hr]
      exact .inr ⟨rfl, hm⟩
  unfold Lib.offer
  split
  · split
    · exact Descends.refl
    · exact add true
  · exact add false

theorem Descends.foldl_offer (keep : Bool) (now : Nat) (offers : List (κ × δ))
    (hs : ∀ e ∈ offers, e ∈ entries) :
    Descends batch entries t (offers.foldl (fun t e => Lib.offer keep batch now e.1 e.2 t) t) := by
  induction offers generalizing t with
  | nil => exact Descends.refl
  | cons e offers ih =>
    exact (Descends.offer keep now (hs e mem_cons_self)).trans
      (ih fun e' he' => hs e' (mem_cons_of_mem _ he'))

theorem Descends.foldl_reelect (h : Coherent t) (ks : List κ) :
    Descends batch entries t (ks.foldl (fun t k => Lib.reelect k t) t) := by
  refine Descends.of_map (fun r => ?_) (foldl_reelect_rows h ks)
  split
  · rfl
  · rfl

end Descends

/-! ## 8. Ids are given out once -/

/-- A row of `t'` with an old id is a row of `t` but for its flag. -/
structure Grows (t t' : VersionTable κ δ) : Prop where
  nextId : t.nextId ≤ t'.nextId
  rows : ∀ r ∈ t'.rows, (∃ s ∈ t.rows, r = { s with current := r.current }) ∨ t.nextId ≤ r.id

section Grows

variable {t' t'' : VersionTable κ δ}

section

omit [DecidableEq κ]

theorem Grows.refl (t : VersionTable κ δ) : Grows t t := ⟨Nat.le_refl _, fun r hr => .inl ⟨r, hr, rfl⟩⟩

theorem Grows.trans (h : Grows t t') (h' : Grows t' t'') : Grows t t'' := by
  refine ⟨Nat.le_trans h.nextId h'.nextId, fun r hr => ?_⟩
  rcases h'.rows r hr with ⟨s, hs, e⟩ | hid
  · rcases h.rows s hs with ⟨u, hu, e'⟩ | hid
    · rw [e'] at e
      exact .inl ⟨u, hu, e⟩
    · rw [e]
      exact .inr hid
  · exact .inr (Nat.le_trans h.nextId hid)

/-- Flags and removals leave the ids alone. -/
theorem Grows.of_descends (batch : Nat) (h : Descends batch [] t t') (hn : t'.nextId = t.nextId) :
    Grows t t' := by
  refine ⟨Nat.le_of_eq hn.symm, fun r hr => ?_⟩
  rcases h r hr with hold | ⟨-, hm⟩
  · exact .inl hold
  · cases hm

end

theorem Grows.offer (keep : Bool) (batch now : Nat) (k : κ) (d : δ) (t : VersionTable κ δ) :
    Grows t (offer keep batch now k d t) := by
  have add : ∀ supersede, Grows t (addVersion supersede batch now k d t) := by
    intro supersede
    refine ⟨Nat.le_succ _, fun r hr => ?_⟩
    rcases mem_append.mp hr with hr | hr
    · obtain ⟨s, hs, rfl⟩ := mem_map.mp hr
      exact .inl ⟨s, hs, clearIds_flag _ s⟩
    · rw [mem_singleton.mp hr]
      exact .inr (Nat.le_refl _)
  unfold Lib.offer
  split
  · split
    · exact Grows.refl t
    · exact add true
  · exact add false

theorem Grows.foldl_offer (keep : Bool) (batch now : Nat) (entries : List (κ × δ))
    (t : VersionTable κ δ) :
    Grows t (entries.foldl (fun t e => Lib.offer keep batch now e.1 e.2 t) t) := by
  induction entries generalizing t with
  | nil => exact Grows.refl t
  | cons e entries ih => exact (Grows.offer keep batch now e.1 e.2 t).trans (ih _)

theorem nextId_reelect (k : κ) (t : VersionTable κ δ) : (reelect k t).nextId = t.nextId := by
  unfold reelect
  dsimp only
  split
  · rfl
  · rfl

theorem nextId_foldl_reelect (ks : List κ) (t : VersionTable κ δ) :
    (ks.foldl (fun t k => reelect k t) t).nextId = t.nextId := by
  induction ks generalizing t with
  | nil => rfl
  | cons k ks ih => exact (ih _).trans (nextId_reelect k t)

end Grows

/-! ## 9. What does not depend on the flag -/

section FlagFree

variable {β : Type} {f : Versioned κ δ → β}

/-- `f` does not read the flag. -/
def FlagFree (f : Versioned κ δ → β) : Prop := ∀ r b, f { r with current := b } = f r

omit [DecidableEq κ] in
theorem FlagFree.map_clearIds (hf : FlagFree f) (ids : List Nat) (rows : List (Versioned κ δ)) :
    (clearIds ids rows).map f = rows.map f := by
  unfold Lib.clearIds
  rw [map_map]
  refine map_congr_left fun r _ => ?_
  show f (if r.id ∈ ids then r.clear else r) = f r
  split
  · exact hf r false
  · rfl

theorem FlagFree.map_addVersion (hf : FlagFree f) (supersede : Bool) (batch now : Nat) (k : κ) (d : δ)
    (t : VersionTable κ δ) : (addVersion supersede batch now k d t).rows.map f =
      t.rows.map f ++ [f (newVersion batch now k d t)] := by
  unfold Lib.addVersion
  rw [map_append, hf.map_clearIds]
  rfl

omit [DecidableEq κ] in
theorem FlagFree.map_hide (hf : FlagFree f) (p : κ → Bool) (t : VersionTable κ δ) :
    (hide p t).rows.map f = t.rows.map f := hf.map_clearIds _ _

end FlagFree

/-! ## 10. Changes of the columns -/

section Recolumn

/-- Every row with new columns. -/
def recolumn (change : Versioned κ δ → δ) (t : VersionTable κ δ) : VersionTable κ δ :=
  { t with rows := t.rows.map fun r => { r with data := change r } }

variable {change : Versioned κ δ → δ}

omit [DecidableEq κ]

theorem mem_recolumn :
    s ∈ (recolumn change t).rows ↔ ∃ r ∈ t.rows, s = { r with data := change r } := by
  unfold recolumn
  rw [mem_map]
  exact exists_congr fun r => and_congr_right fun _ => eq_comm

theorem recolumn_self (h : ∀ r ∈ t.rows, change r = r.data) : recolumn change t = t := by
  have hrows : (t.rows.map fun r => { r with data := change r }) = t.rows := by
    refine (map_congr_left fun r hr => ?_).trans (map_id _)
    rw [h r hr]
    rfl
  unfold recolumn
  rw [hrows]

theorem recolumn_congr {change' : Versioned κ δ → δ} (h : ∀ r ∈ t.rows, change r = change' r) :
    recolumn change t = recolumn change' t := by
  unfold recolumn
  rw [map_congr_left fun r hr => by rw [h r hr]]

theorem recolumn_recolumn (change change' : Versioned κ δ → δ) (t : VersionTable κ δ) :
    recolumn change' (recolumn change t) =
      recolumn (fun r => change' { r with data := change r }) t := by
  unfold recolumn
  rw [map_map]
  rfl

theorem Coherent.recolumn (h : Coherent t) (change : Versioned κ δ → δ) : Coherent (recolumn change t) where
  nodup := by
    have e : (Lib.recolumn change t).rows.map (·.id) = t.rows.map (·.id) := by
      unfold Lib.recolumn
      rw [map_map]
      rfl
    rw [e]
    exact h.nodup
  fresh := by
    intro s hs
    obtain ⟨r, hr, rfl⟩ := mem_recolumn.mp hs
    exact h.fresh r hr
  versions := by
    intro a ha b hb ek ev
    obtain ⟨r, hr, rfl⟩ := mem_recolumn.mp ha
    obtain ⟨s, hs, rfl⟩ := mem_recolumn.mp hb
    rw [h.versions r hr s hs ek ev]
  newest := by
    intro a ha hc b hb ek
    obtain ⟨r, hr, rfl⟩ := mem_recolumn.mp ha
    obtain ⟨s, hs, rfl⟩ := mem_recolumn.mp hb
    exact h.newest r hr hc s hs ek

/-- **Changes of single rows, one after the other, are one change of all rows**, if no row is
    changed twice. -/
theorem foldl_recolumn_id {υ : Type} (idOf : υ → Nat) (change : υ → δ → δ) {us : List υ}
    (hn : (us.map idOf).Nodup) (t : VersionTable κ δ) :
    us.foldl (fun t u => recolumn (fun r => if r.id = idOf u then change u r.data else r.data) t) t =
      recolumn (fun r => match us.find? fun u => idOf u = r.id with
        | some u => change u r.data
        | none => r.data) t := by
  induction us generalizing t with
  | nil => exact (recolumn_self fun r _ => rfl).symm
  | cons u us ih =>
    rw [map_cons, nodup_cons] at hn
    rw [foldl_cons, ih hn.2, recolumn_recolumn]
    refine recolumn_congr fun r _ => ?_
    by_cases hid : r.id = idOf u
    · -- no later change names this row again
      have hnone : us.find? (fun v => idOf v = r.id) = none := by
        refine find?_eq_none.mpr fun v hv e => hn.1 ?_
        rw [← hid, ← of_decide_eq_true e]
        exact mem_map_of_mem hv
      rw [find?_cons_of_pos (by rw [hid]; exact decide_eq_true rfl)]
      rw [hnone, if_pos hid]
    · rw [find?_cons_of_neg (fun e => hid (of_decide_eq_true e).symm)]
      rw [if_neg hid]

end Recolumn

end AdsManagement.Lib
