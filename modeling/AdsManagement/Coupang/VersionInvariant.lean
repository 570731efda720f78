/-
  File:      Coupang/VersionInvariant.lean
  Subject:   ONE CURRENT ROW PER KEY: the invariant of the sale-line and ad-metric tables over
             every run of imports, deletions and rematches.

  * `importRow_rows` -- what one row of a file does to a table that has the invariant;
  * `restoreCurrent_eq` -- what a re-election of a list of keys does, in closed form;
  * `TableInv.importRows`, `TableInv.deleteRows`, `TableInv.rematch` -- each operation keeps
    the invariant;
  * `Reachable.inv` -- every reachable store has it.
-/
import AdsManagement.Coupang.VersionStore

namespace AdsManagement.Coupang

open Common Lib List Function

variable {δ : Type} {rows : List (StoredRow δ)}

/-- The invariant of one table. -/
structure TableInv (rows : List (StoredRow δ)) : Prop where
  ids : (rows.map (·.id)).Nodup
  clean : ∀ r ∈ rows, IsClean r.logicalKey
  keys : ∀ k, OneCurrent versionColumns (ofKey k rows)

variable {r : StoredRow δ} {k : String}

theorem mem_ofKey : r ∈ ofKey k rows ↔ r ∈ rows ∧ r.logicalKey = k := by
  simp [ofKey]

theorem ofKey_append (k : String) (l m : List (StoredRow δ)) :
    ofKey k (l ++ m) = ofKey k l ++ ofKey k m := by
  simp [ofKey]

variable {f : StoredRow δ → StoredRow δ}

/-- A change that keeps keys commutes with the selection of a key. -/
theorem ofKey_map (hf : ∀ r ∈ rows, (f r).logicalKey = r.logicalKey) (k : String) :
    ofKey k (rows.map f) = (ofKey k rows).map f := by
  unfold ofKey
  exact filter_map_of_keeps fun r hr => by rw [hf r hr]

theorem nodup_of_ids (h : (rows.map (·.id)).Nodup) : rows.Nodup := Nodup.of_map _ h

variable {s : StoredRow δ}

theorem eq_of_id (h : (rows.map (·.id)).Nodup) (hr : r ∈ rows) (hs : s ∈ rows) (e : r.id = s.id) : r = s :=
  inj_on_of_nodup_map h hr hs e

theorem importVersion_le_of_rank (h : versionRank r ≤ versionRank s) :
    r.importVersion ≤ s.importVersion := by
  rcases Prod.Lex.toLex_le_toLex.mp h with h | h
  · exact h.le
  · exact h.1.le

/-! ## 1. One row of a file -/

/-- The rows of a key lose their flags. -/
def clearKey (k : String) (rows : List (StoredRow δ)) : List (StoredRow δ) :=
  rows.map fun r => if r.logicalKey = k then r.clear else r

theorem clear_of_not_current (h : r.isCurrent = false) : r.clear = r := by
  cases r
  subst h
  rfl

variable {l : List (StoredRow δ)}

/-- Demoting the current rows of a key by their ids clears the key. -/
theorem clearCurrent_eq_clearKey (hids : (rows.map (·.id)).Nodup)
    (hl : ∀ r, r ∈ l ↔ r ∈ ofKey k rows ∧ r.isCurrent) :
    clearCurrent (l.map (·.id)) rows = clearKey k rows := by
  refine map_congr_left fun r hr => ?_
  by_cases hm : r ∈ l
  · have hk := mem_ofKey.mp ((hl r).mp hm).1
    rw [if_pos (mem_map_of_mem hm), if_pos hk.2]
  · have hid : r.id ∉ l.map (·.id) := by
      intro hid
      obtain ⟨s, hs, e⟩ := mem_map.mp hid
      have hs' := mem_ofKey.mp ((hl s).mp hs).1
      rw [eq_of_id hids hs'.1 hr e] at hs
      exact hm hs
    rw [if_neg hid]
    by_cases hk : r.logicalKey = k
    · rw [if_pos hk, clear_of_not_current]
      cases hc : r.isCurrent with
      | false => rfl
      | true => exact absurd ((hl r).mpr ⟨mem_ofKey.mpr ⟨hr, hk⟩, hc⟩) hm
    · rw [if_neg hk]

theorem mem_existingRows : r ∈ existingRows k rows ↔ r ∈ ofKey k rows := by
  unfold existingRows
  rw [mem_insertionSort]

/-- The first of the existing rows has the greatest version, of all rows of the key. -/
theorem importVersion_le_head {first : StoredRow δ} {rest : List (StoredRow δ)}
    (h : existingRows k rows = first :: rest) (hr : r ∈ ofKey k rows) :
    r.importVersion ≤ first.importVersion := by
  have hs := pairwise_insertionSort (fun a b : StoredRow δ => versionRank b ≤ versionRank a)
    (ofKey k rows)
  rw [show (ofKey k rows).insertionSort _ = first :: rest from h, pairwise_cons] at hs
  have hm := mem_existingRows.mpr hr
  rw [h] at hm
  rcases mem_cons.mp hm with rfl | hm
  · exact Nat.le_refl _
  · exact importVersion_le_of_rank (hs.1 r hm)

/-- What a new row may be: current, accepted and as new as every accepted row of its key; or
    not current, and then an ERROR row or no newer than the current one. -/
structure Placed (rows : List (StoredRow δ)) (n : StoredRow δ) : Prop where
  current : n.isCurrent = true → n.accepted = true ∧
    ∀ r ∈ ofKey n.logicalKey rows, r.accepted = true → r.importVersion ≤ n.importVersion
  skipped : n.isCurrent = false → n.accepted = true →
    ∃ c ∈ ofKey n.logicalKey rows, c.isCurrent = true ∧ n.importVersion ≤ c.importVersion

variable {row : ImportRow δ}

/-- The current rows the loop has found. -/
theorem mem_existingCurrentRows (code : String) (policy : ConflictPolicy) :
    r ∈ (planRow code policy row rows).existingCurrentRows ↔
      r ∈ ofKey row.logicalKey rows ∧ r.isCurrent := by
  show r ∈ (existingRows row.logicalKey rows).filter (·.isCurrent) ↔ _
  rw [mem_filter, mem_existingRows]

theorem length_existingCurrentRows (h : TableInv rows) (code : String) (policy : ConflictPolicy)
    (row : ImportRow δ) : (planRow code policy row rows).existingCurrentRows.length ≤ 1 := by
  show ((existingRows row.logicalKey rows).filter (·.isCurrent)).length ≤ 1
  have hp : (existingRows row.logicalKey rows).Perm (ofKey row.logicalKey rows) :=
    perm_insertionSort _ _
  rw [(hp.filter _).length_eq]
  exact (h.keys row.logicalKey).atMost

/-- The stored state of a row whose key has no current row. -/
theorem resolveStored_none (policy : ConflictPolicy) (status : RowValidationStatus)
    (latest : Option Nat) :
    let s := resolveCoupangRowStoredState status (resolveCoupangRowImportDecision policy none latest)
    s.supersedeExisting = false ∧ s.isCurrent = (status != .ERROR) := by
  cases status <;> exact ⟨rfl, rfl⟩

/-- The stored state of a row whose key has a current row of version `c`. -/
theorem resolveStored_some (policy : ConflictPolicy) (status : RowValidationStatus) {c latest : Nat}
    (hle : c ≤ latest) :
    let s := resolveCoupangRowStoredState status
      (resolveCoupangRowImportDecision policy (some c) (some latest))
    (s.isCurrent = true → status ≠ .ERROR ∧ s.supersedeExisting = true ∧ c ≤ s.importVersion) ∧
    (s.isCurrent = false → s.supersedeExisting = false ∧
      (status ≠ .ERROR → s.importVersion = c)) := by
  cases policy <;> cases status <;>
    simp [resolveCoupangRowStoredState, resolveCoupangRowImportDecision] <;> omega

variable {policy : ConflictPolicy} {code : String}

theorem storedState_planRow :
    (planRow code policy row rows).storedState =
      resolveCoupangRowStoredState (planRow code policy row rows).validationStatus
        (resolveCoupangRowImportDecision policy
          ((planRow code policy row rows).existingCurrentRows.head?.map (·.importVersion))
          ((existingRows row.logicalKey rows).head?.map (·.importVersion))) := rfl

theorem storedState_of_nil (h : (planRow code policy row rows).existingCurrentRows = []) :
    (planRow code policy row rows).storedState.supersedeExisting = false ∧
      (planRow code policy row rows).storedState.isCurrent =
        ((planRow code policy row rows).validationStatus != .ERROR) := by
  rw [storedState_planRow, h]
  exact resolveStored_none policy _ _

theorem storedState_of_singleton {c : StoredRow δ}
    (h : (planRow code policy row rows).existingCurrentRows = [c]) :
    let plan := planRow code policy row rows
    (plan.storedState.isCurrent = true → plan.validationStatus ≠ .ERROR ∧
      plan.storedState.supersedeExisting = true ∧ c.importVersion ≤ plan.storedState.importVersion) ∧
    (plan.storedState.isCurrent = false → plan.storedState.supersedeExisting = false ∧
      (plan.validationStatus ≠ .ERROR → plan.storedState.importVersion = c.importVersion)) := by
  intro plan
  have hc : c ∈ ofKey row.logicalKey rows := by
    have : c ∈ (planRow code policy row rows).existingCurrentRows := by
      rw [h]; exact mem_singleton.mpr rfl
    exact ((mem_existingCurrentRows code policy).mp this).1
  obtain ⟨first, rest, ef⟩ :=
    exists_cons_of_ne_nil (ne_nil_of_mem (mem_existingRows.mpr hc))
  have e : plan.storedState =
      resolveCoupangRowStoredState plan.validationStatus
        (resolveCoupangRowImportDecision policy
          (plan.existingCurrentRows.head?.map (·.importVersion))
          ((existingRows row.logicalKey rows).head?.map (·.importVersion))) := rfl
  rw [e, show plan.existingCurrentRows = [c] from h, ef]
  exact resolveStored_some policy _ (importVersion_le_head ef hc)

theorem clearKey_of_none (h : ∀ r ∈ ofKey k rows, r.isCurrent = false) :
    clearKey k rows = rows := by
  refine (map_congr_left fun r hr => ?_).trans (map_id rows)
  by_cases hk : r.logicalKey = k
  · rw [if_pos hk, clear_of_not_current (h r (mem_ofKey.mpr ⟨hr, hk⟩))]
    rfl
  · rw [if_neg hk]
    rfl

/-- **One row of a file**: the table gains the row, and the rows of its key lose their flags
    exactly when the new row is current. -/
theorem importRow_rows (h : TableInv rows) (code : String) (policy : ConflictPolicy) (batchId : Nat)
    (stamp : Stamp) (row : ImportRow δ) :
    let n := storedRow batchId stamp row (planRow code policy row rows)
    demoteRows (planRow code policy row rows) rows =
      (if n.isCurrent then clearKey n.logicalKey rows else rows) ∧ Placed rows n := by
  intro n
  have ncur : n.isCurrent = (planRow code policy row rows).storedState.isCurrent := rfl
  have nkey : n.logicalKey = row.logicalKey := rfl
  have nacc : n.accepted = ((planRow code policy row rows).validationStatus != .ERROR) := rfl
  have hinv := h.keys row.logicalKey
  unfold demoteRows
  match hl : (planRow code policy row rows).existingCurrentRows,
      length_existingCurrentRows h code policy row with
  | [], _ =>
    obtain ⟨hsup, hcur⟩ := storedState_of_nil hl
    have hnone : ∀ r ∈ ofKey row.logicalKey rows, r.isCurrent = false := by
      intro r hr
      cases hc : r.isCurrent with
      | false => rfl
      | true =>
        have := (mem_existingCurrentRows code policy).mpr ⟨hr, hc⟩
        rw [hl] at this
        cases this
    refine ⟨?_, ?_, ?_⟩
    · rw [nkey, clearKey_of_none hnone, hsup, ite_self]
      rfl
    · intro hn
      rw [nacc, ← hcur]
      refine ⟨hn, fun r hr ha => ?_⟩
      obtain ⟨c, hc, hcc⟩ := hinv.exists_current r hr ha
      have := hnone c hc
      rw [show c.isCurrent = true from hcc] at this
      cases this
    · intro hn ha
      rw [nacc, ← hcur, ← ncur, hn] at ha
      cases ha
  | [c], _ =>
    obtain ⟨hyes, hno⟩ := storedState_of_singleton hl
    have hc : c ∈ ofKey row.logicalKey rows ∧ c.isCurrent := by
      refine (mem_existingCurrentRows code policy).mp ?_
      rw [hl]
      exact mem_singleton.mpr rfl
    refine ⟨?_, ?_, ?_⟩
    · cases hn : n.isCurrent with
      | true =>
        rw [(hyes hn).2.1]
        refine clearCurrent_eq_clearKey h.ids fun r => ?_
        rw [← hl]
        exact mem_existingCurrentRows code policy
      | false => rw [(hno hn).1]; rfl
    · intro hn
      refine ⟨?_, fun r hr ha => ?_⟩
      · exact bne_iff_ne.mpr (hyes hn).1
      · exact Nat.le_trans (hinv.greatest c hc.1 hc.2 r hr ha) (hyes hn).2.2
    · intro hn ha
      exact ⟨c, hc.1, hc.2, ((hno hn).2 (bne_iff_ne.mp ha)).le⟩

/-! ## 2. An import keeps the invariant -/

theorem map_id_clearKey (k : String) (rows : List (StoredRow δ)) :
    (clearKey k rows).map (·.id) = rows.map (·.id) := by
  unfold clearKey
  rw [map_map]
  refine map_congr_left fun r _ => ?_
  by_cases hk : r.logicalKey = k
  · simp only [comp_apply, if_pos hk]; rfl
  · simp only [comp_apply, if_neg hk]

theorem ofKey_clearKey (k : String) (rows : List (StoredRow δ)) :
    ofKey k (clearKey k rows) = (ofKey k rows).map StoredRow.clear := by
  unfold clearKey
  rw [ofKey_map]
  · refine map_congr_left fun r hr => ?_
    rw [if_pos (mem_ofKey.mp hr).2]
  · intro r _
    split <;> rfl

variable {k' : String}

theorem ofKey_clearKey_of_ne (hne : k' ≠ k) (rows : List (StoredRow δ)) :
    ofKey k' (clearKey k rows) = ofKey k' rows := by
  unfold clearKey
  rw [ofKey_map]
  · refine (map_congr_left fun r hr => ?_).trans (map_id _)
    rw [if_neg (by rw [(mem_ofKey.mp hr).2]; exact hne)]
    rfl
  · intro r _
    split <;> rfl

variable {n : StoredRow δ}

/-- A placed row keeps the invariant. -/
theorem TableInv.place (h : TableInv rows) (hp : Placed rows n) (hid : ∀ r ∈ rows, r.id ≠ n.id)
    (hclean : IsClean n.logicalKey) :
    TableInv ((if n.isCurrent then clearKey n.logicalKey rows else rows) ++ [n]) where
  ids := by
    have e : (if n.isCurrent then clearKey n.logicalKey rows else rows).map (·.id) =
        rows.map (·.id) := by
      split
      · exact map_id_clearKey _ _
      · rfl
    rw [map_append, e]
    refine h.ids.append (nodup_singleton _) ?_
    intro i hi hn
    rw [map_singleton, mem_singleton] at hn
    obtain ⟨r, hr, rfl⟩ := mem_map.mp hi
    exact hid r hr hn
  clean := by
    intro r hr
    rcases mem_append.mp hr with hr | hr
    · split at hr
      · obtain ⟨s, hs, rfl⟩ := mem_map.mp hr
        split
        · exact h.clean s hs
        · exact h.clean s hs
      · exact h.clean r hr
    · rw [mem_singleton.mp hr]
      exact hclean
  keys := by
    intro k
    rw [ofKey_append]
    by_cases hk : n.logicalKey = k
    · have en : ofKey k [n] = [n] := by simp [ofKey, hk]
      subst hk
      rw [en]
      cases hn : n.isCurrent with
      | true =>
        obtain ⟨ha, hv⟩ := hp.current hn
        rw [if_pos rfl, ofKey_clearKey]
        exact OneCurrent.supersede (fun _ => rfl) (fun _ => rfl) (fun _ => rfl) hn ha hv
      | false =>
        exact (h.keys _).append_skipped hn (hp.skipped hn)
    · have en : ofKey k [n] = [] := by simp [ofKey, hk]
      rw [en, append_nil]
      split
      · rw [ofKey_clearKey_of_ne (Ne.symm hk)]
        exact h.keys k
      · exact h.keys k

variable {state : ImportState δ}

/-- One turn of the loop, as the placing of a row. -/
theorem importRow_eq_place (h : TableInv state.rows) (code : String) (policy : ConflictPolicy)
    (batchId : Nat) (entry : Stamp × ImportRow δ) :
    ∃ n : StoredRow δ, n.id = entry.1.id ∧ n.uploadBatchId = batchId ∧
      n.logicalKey = entry.2.logicalKey ∧ Placed state.rows n ∧
      (importRow code policy batchId state entry).rows =
        (if n.isCurrent then clearKey n.logicalKey state.rows else state.rows) ++ [n] := by
  obtain ⟨hrows, hp⟩ := importRow_rows h code policy batchId entry.1 entry.2
  refine ⟨_, rfl, rfl, rfl, hp, ?_⟩
  rw [← hrows]
  rfl

theorem mem_id_place (hr : r ∈ (if n.isCurrent then clearKey n.logicalKey rows else rows) ++ [n]) :
    (∃ s ∈ rows, s.id = r.id) ∨ r = n := by
  rcases mem_append.mp hr with hr | hr
  · refine .inl ?_
    split at hr
    · obtain ⟨s, hs, rfl⟩ := mem_map.mp hr
      exact ⟨s, hs, by split <;> rfl⟩
    · exact ⟨r, hr, rfl⟩
  · exact .inr (mem_singleton.mp hr)

variable {entries : List (Stamp × ImportRow δ)}

/-- One turn of the loop keeps the invariant, and the later stamps stay fresh. -/
theorem TableInv.turn (h : TableInv state.rows) (code : String) (policy : ConflictPolicy) (batchId : Nat)
    {entry : Stamp × ImportRow δ} (hf : FreshStamps ((entry :: entries).map (·.1)) state.rows)
    (hc : IsClean entry.2.logicalKey) :
    TableInv (importRow code policy batchId state entry).rows ∧
      FreshStamps (entries.map (·.1)) (importRow code policy batchId state entry).rows := by
  obtain ⟨n, hid, -, hkey, hp, hrows⟩ := importRow_eq_place h code policy batchId entry
  have hnew : ∀ r ∈ state.rows, r.id ≠ n.id := by
    intro r hr
    rw [hid]
    exact hf.fresh entry.1 mem_cons_self r hr
  have hnd := nodup_cons.mp hf.nodup
  rw [hrows]
  refine ⟨h.place hp hnew (by rw [hkey]; exact hc), hnd.2, ?_⟩
  intro s hs r hr
  rcases mem_id_place hr with ⟨t, ht, e⟩ | rfl
  · rw [← e]
    exact hf.fresh s (mem_cons_of_mem _ hs) t ht
  · rw [hid]
    intro e
    exact hnd.1 (mem_map.mpr ⟨s, hs, e.symm⟩)

/-- The loop of an import keeps the invariant. -/
theorem TableInv.foldl_importRow (code : String) (policy : ConflictPolicy) (batchId : Nat) :
    ∀ (entries : List (Stamp × ImportRow δ)) (state : ImportState δ), TableInv state.rows →
      FreshStamps (entries.map (·.1)) state.rows →
      (∀ entry ∈ entries, IsClean entry.2.logicalKey) →
      TableInv (entries.foldl (importRow code policy batchId) state).rows
  | [], _, h, _, _ => h
  | entry :: entries, state, h, hf, hc => by
    obtain ⟨h', hf'⟩ := h.turn code policy batchId hf (hc entry mem_cons_self)
    exact TableInv.foldl_importRow code policy batchId entries _ h' hf' fun e he =>
      hc e (mem_cons_of_mem _ he)

theorem TableInv.importRows (h : TableInv rows) (code : String) (policy : ConflictPolicy) (batchId : Nat)
    (hf : FreshStamps (entries.map (·.1)) rows) (hc : ∀ entry ∈ entries, IsClean entry.2.logicalKey) :
    TableInv (importRows code policy batchId entries rows).rows :=
  TableInv.foldl_importRow code policy batchId entries _ h hf hc

/-! ## 3. Re-election -/

/-- The id of the row that is elected for a key. -/
def elected (elect : List (StoredRow δ) → Option (StoredRow δ)) (k : String)
    (rows : List (StoredRow δ)) : Option Nat :=
  (elect ((candidates k rows).map StoredRow.clear)).map (·.id)

/-- A row with the flag the election gives it. -/
def restored (elect : List (StoredRow δ) → Option (StoredRow δ)) (rows : List (StoredRow δ))
    (r : StoredRow δ) : StoredRow δ :=
  { r with isCurrent := decide (elected elect r.logicalKey rows = some r.id) }

variable {elect : List (StoredRow δ) → Option (StoredRow δ)}

theorem restored_of_elected (h : elected elect r.logicalKey rows = some r.id) :
    restored elect rows r = { r with isCurrent := true } := by
  unfold restored
  rw [decide_eq_true h]

theorem restored_of_ne (h : elected elect r.logicalKey rows ≠ some r.id) :
    restored elect rows r = r.clear := by
  unfold restored
  rw [decide_eq_false h]
  rfl

theorem candidates_eq (k : String) (rows : List (StoredRow δ)) :
    candidates k rows = (ofKey k rows).filter (·.accepted) := by
  unfold ofKey
  rw [filter_filter]
  exact filter_congr fun r _ => Bool.and_comm _ _

theorem mem_candidates :
    r ∈ candidates k rows ↔ r ∈ rows ∧ r.logicalKey = k ∧ r.accepted = true := by
  simp [candidates]

theorem candidates_clearKey (k : String) (rows : List (StoredRow δ)) :
    candidates k (clearKey k rows) = (candidates k rows).map StoredRow.clear := by
  rw [candidates_eq, candidates_eq, ofKey_clearKey, filter_map]
  rfl

theorem elected_congr {m : List (StoredRow δ)} (h : ofKey k l = ofKey k m) :
    elected elect k l = elected elect k m := by
  unfold elected
  rw [candidates_eq, candidates_eq, h]

/-- The elected row is an accepted row of the key. -/
theorem exists_of_elected (he : Elects versionRank elect) {i : Nat} (h : elected elect k rows = some i) :
    ∃ c ∈ candidates k rows, c.id = i ∧ ∀ r ∈ candidates k rows, versionRank r ≤ versionRank c := by
  obtain ⟨x, hx, rfl⟩ := Option.map_eq_some_iff.mp h
  have ht := he.top _ _ hx
  obtain ⟨c, hc, rfl⟩ := mem_map.mp ht.mem
  exact ⟨c, hc, rfl, fun r hr => ht.le r.clear (mem_map_of_mem hr)⟩

section

variable (he : Elects versionRank elect) (hids : (rows.map (·.id)).Nodup)
include he hids

theorem restoreKey_eq (k : String) : restoreKey elect rows k =
      rows.map fun r => if r.logicalKey = k then restored elect rows r else r := by
  have hel : elected elect k rows = (elect (candidates k (clearKey k rows))).map (·.id) := by
    rw [candidates_clearKey]
    rfl
  unfold restoreKey
  cases hx : elect (candidates k (clearKey k rows)) with
  | none =>
    rw [hx] at hel
    unfold clearKey at hx
    simp only [hx]
    refine map_congr_left fun r _ => ?_
    by_cases hk : r.logicalKey = k
    · rw [if_pos hk, if_pos hk, restored_of_ne]
      rw [hk, hel]
      exact fun e => by cases e
    · rw [if_neg hk, if_neg hk]
  | some latest =>
    rw [hx] at hel
    obtain ⟨c, hc, hcid, -⟩ := exists_of_elected he hel
    unfold clearKey at hx
    simp only [hx]
    rw [map_map]
    refine map_congr_left fun r hr => ?_
    by_cases hk : r.logicalKey = k
    · simp only [comp_apply, if_pos hk]
      by_cases hi : r.id = latest.id
      · rw [if_pos (show r.clear.id = latest.id from hi), restored_of_elected]
        · rfl
        · rw [hk, hel, hi]
          rfl
      · rw [if_neg (show ¬ r.clear.id = latest.id from hi), restored_of_ne]
        rw [hk, hel]
        exact fun e => hi (Option.some.inj e).symm
    · simp only [comp_apply, if_neg hk]
      have hi : r.id ≠ latest.id := by
        intro hi
        have hm := mem_candidates.mp hc
        rw [eq_of_id hids hr hm.1 (hi.trans hcid.symm)] at hk
        exact hk hm.2.1
      rw [if_neg hi]

theorem ofKey_restoreKey_of_ne (hne : k' ≠ k) : ofKey k' (restoreKey elect rows k) = ofKey k' rows := by
  rw [restoreKey_eq he hids, ofKey_map]
  · refine (map_congr_left fun r hr => ?_).trans (map_id _)
    rw [if_neg (by rw [(mem_ofKey.mp hr).2]; exact hne)]
    rfl
  · intro r _
    split <;> rfl

theorem map_id_restoreKey (k : String) : (restoreKey elect rows k).map (·.id) = rows.map (·.id) := by
  rw [restoreKey_eq he hids, map_map]
  refine map_congr_left fun r _ => ?_
  simp only [comp_apply]
  split <;> rfl

end

/-- **A re-election in closed form**: the rows of the listed keys get the flag of their own
    key's election, the other rows stay as they are. -/
theorem restoreCurrent_eq (he : Elects versionRank elect) :
    ∀ (keys : List String) (rows : List (StoredRow δ)),
      keys.Nodup → (rows.map (·.id)).Nodup → restoreCurrent elect keys rows =
        rows.map fun r => if r.logicalKey ∈ keys then restored elect rows r else r
  | [], rows, _, _ => by
    refine ((map_congr_left fun r _ => ?_).trans (map_id rows)).symm
    rw [if_neg not_mem_nil]
    rfl
  | k :: keys, rows, hnd, hids => by
    obtain ⟨hk, hnd⟩ := nodup_cons.mp hnd
    have hids' : ((restoreKey elect rows k).map (·.id)).Nodup := by
      rw [map_id_restoreKey he hids]
      exact hids
    show restoreCurrent elect keys (restoreKey elect rows k) = _
    rw [restoreCurrent_eq he keys _ hnd hids']
    -- the election of a later key sees the rows of that key as they were
    have hlater : ∀ k' ∈ keys,
        elected elect k' (restoreKey elect rows k) = elected elect k' rows := by
      intro k' hk'
      refine elected_congr (ofKey_restoreKey_of_ne he hids ?_)
      rintro rfl
      exact hk hk'
    have hres : ∀ r : StoredRow δ, r.logicalKey ∈ keys →
        restored elect (restoreKey elect rows k) r = restored elect rows r := by
      intro r hr
      unfold restored
      rw [hlater _ hr]
    rw [map_congr_left (g := fun r => if r.logicalKey ∈ keys then restored elect rows r else r)
      (fun r _ => by
        by_cases hr : r.logicalKey ∈ keys
        · rw [if_pos hr, if_pos hr, hres r hr]
        · rw [if_neg hr, if_neg hr]), restoreKey_eq he hids, map_map]
    refine map_congr_left fun r _ => ?_
    simp only [comp_apply, mem_cons]
    by_cases hrk : r.logicalKey = k
    · rw [if_pos hrk, if_pos (Or.inl hrk)]
      have : (restored elect rows r).logicalKey ∉ keys := by
        show r.logicalKey ∉ keys
        rw [hrk]
        exact hk
      rw [if_neg this]
    · rw [if_neg hrk]
      simp only [hrk, false_or]

/-! ## 4. A deletion keeps the invariant -/

/-- The rows a deletion leaves. -/
def kept (batchId : Nat) (rows : List (StoredRow δ)) : List (StoredRow δ) :=
  rows.filter fun r => r.uploadBatchId ≠ batchId

/-- The keys of the rows a deletion removes. -/
def deletedKeys (batchId : Nat) (rows : List (StoredRow δ)) : List String :=
  uniqueNonEmpty ((rows.filter fun r => r.uploadBatchId = batchId).map fun r => some r.logicalKey)

variable {batchId : Nat}

theorem mem_kept :
    r ∈ kept batchId rows ↔ r ∈ rows ∧ r.uploadBatchId ≠ batchId := by
  simp [kept]

theorem ids_kept (h : (rows.map (·.id)).Nodup) (batchId : Nat) :
    ((kept batchId rows).map (·.id)).Nodup :=
  h.sublist (filter_sublist.map _)

theorem mem_deletedKeys (h : TableInv rows) :
    k ∈ deletedKeys batchId rows ↔ ∃ r ∈ rows, r.uploadBatchId = batchId ∧ r.logicalKey = k := by
  unfold deletedKeys
  rw [mem_uniqueNonEmpty]
  · simp only [mem_map, mem_filter, decide_eq_true_eq, Option.some.injEq, and_assoc]
  · intro s hs
    obtain ⟨r, hr, e⟩ := mem_map.mp hs
    cases e
    exact h.clean r (mem_filter.mp hr).1

/-- **A deletion in closed form.** -/
theorem deleteRows_eq (he : Elects versionRank elect) (h : (rows.map (·.id)).Nodup) (batchId : Nat) :
    deleteRows elect batchId rows = (kept batchId rows).map fun r =>
      if r.logicalKey ∈ deletedKeys batchId rows then restored elect (kept batchId rows) r else r :=
  restoreCurrent_eq he _ _ (nodup_eraseDups _) (ids_kept h batchId)

/-- The elected row, and no other, is current afterwards. -/
theorem oneCurrent_restored (he : Elects versionRank elect) (hids : (rows.map (·.id)).Nodup) (k : String) :
    OneCurrent versionColumns ((ofKey k rows).map (restored elect rows)) := by
  have hnd : (ofKey k rows).Nodup := (nodup_of_ids hids).filter _
  have hcur : ∀ r ∈ ofKey k rows, (restored elect rows r).isCurrent = true ↔
      elected elect k rows = some r.id := by
    intro r hr
    unfold restored
    rw [(mem_ofKey.mp hr).2, decide_eq_true_iff]
  cases hel : elected elect k rows with
  | none =>
    refine OneCurrent.of_mark none hnd ?_ (fun _ => rfl) (fun _ => rfl)
      (fun x hx => by cases hx) (fun _ r hr => ?_)
    · intro r hr
      refine (hcur r hr).trans ?_
      rw [hel]
      exact ⟨fun e => absurd e.symm (Option.some_ne_none _),
        fun e => absurd e.symm (Option.some_ne_none _)⟩
    · cases ha : versionColumns.accepted r with
      | false => rfl
      | true =>
        obtain ⟨hm, hk⟩ := mem_ofKey.mp hr
        have hc : r.clear ∈ (candidates k rows).map StoredRow.clear :=
          mem_map_of_mem (mem_candidates.mpr ⟨hm, hk, ha⟩)
        obtain ⟨x, hx⟩ := he.found _ (ne_nil_of_mem hc)
        unfold elected at hel
        rw [hx] at hel
        cases hel
  | some i =>
    obtain ⟨c, hc, rfl, hmax⟩ := exists_of_elected he hel
    obtain ⟨hcm, hck, hca⟩ := mem_candidates.mp hc
    refine OneCurrent.of_mark (some c) hnd ?_ (fun _ => rfl) (fun _ => rfl) ?_ (fun e => by cases e)
    · intro r hr
      refine (hcur r hr).trans ?_
      rw [hel]
      refine ⟨fun e => ?_, fun e => by cases e; rfl⟩
      rw [eq_of_id hids hcm (mem_ofKey.mp hr).1 (Option.some.inj e)]
    · intro x hx
      cases hx
      refine ⟨mem_ofKey.mpr ⟨hcm, hck⟩, hca, fun r hr ha => ?_⟩
      obtain ⟨hm, hk⟩ := mem_ofKey.mp hr
      exact importVersion_le_of_rank (hmax r (mem_candidates.mpr ⟨hm, hk, ha⟩))

theorem TableInv.deleteRows (h : TableInv rows) (he : Elects versionRank elect) (batchId : Nat) :
    TableInv (deleteRows elect batchId rows) := by
  have hkey : ∀ r ∈ kept batchId rows,
      (if r.logicalKey ∈ deletedKeys batchId rows then restored elect (kept batchId rows) r
        else r).logicalKey = r.logicalKey := by
    intro r _
    split <;> rfl
  rw [deleteRows_eq he h.ids]
  refine ⟨?_, ?_, fun k => ?_⟩
  · rw [map_map]
    rw [map_congr_left (g := fun r : StoredRow δ => r.id) (fun r _ => by
      simp only [comp_apply]; split <;> rfl)]
    exact ids_kept h.ids batchId
  · intro r hr
    obtain ⟨s, hs, rfl⟩ := mem_map.mp hr
    rw [hkey s hs]
    exact h.clean s (mem_kept.mp hs).1
  · rw [ofKey_map hkey]
    by_cases hk : k ∈ deletedKeys batchId rows
    · rw [map_congr_left (g := restored elect (kept batchId rows)) (fun r hr => by
        rw [if_pos (by rw [(mem_ofKey.mp hr).2]; exact hk)])]
      exact oneCurrent_restored he (ids_kept h.ids batchId) k
    · -- no row of the key is deleted
      have e : ofKey k (kept batchId rows) = ofKey k rows := by
        unfold ofKey kept
        rw [filter_filter]
        refine filter_congr fun r hr => ?_
        by_cases hrk : r.logicalKey = k
        · have : r.uploadBatchId ≠ batchId := fun hb =>
            hk ((mem_deletedKeys h).mpr ⟨r, hr, hb, hrk⟩)
          simp [this]
        · simp [hrk]
      rw [map_congr_left (g := fun r => r) (fun r hr => by
        rw [if_neg (by rw [(mem_ofKey.mp hr).2]; exact hk)]), map_id', e]
      exact h.keys k

/-! ## 5. A rematch keeps the invariant -/

theorem TableInv.map (h : TableInv rows) (hid : ∀ r ∈ rows, (f r).id = r.id)
    (hkey : ∀ r ∈ rows, (f r).logicalKey = r.logicalKey)
    (hf : ∀ r ∈ rows, (f r).isCurrent = r.isCurrent ∧ (f r).importVersion = r.importVersion ∧
      (f r).accepted = r.accepted) : TableInv (rows.map f) where
  ids := by
    have e : rows.map ((fun r : StoredRow δ => r.id) ∘ f) = rows.map (·.id) :=
      map_congr_left hid
    rw [map_map, e]
    exact h.ids
  clean := by
    intro r hr
    obtain ⟨s, hs, rfl⟩ := mem_map.mp hr
    rw [hkey s hs]
    exact h.clean s hs
  keys := by
    intro k
    rw [ofKey_map hkey]
    exact (h.keys k).map fun r hr => hf r (mem_ofKey.mp hr).1

theorem accepted_iff : r.accepted = true ↔ r.validationStatus ≠ .ERROR :=
  bne_iff_ne

theorem validationStatusFor_nil_ne_error (warnings : List RowIssue) (productId : Option String) :
    validationStatusFor [] warnings productId ≠ .ERROR :=
  fun e => validationStatusFor_eq_error_iff.mp e rfl

/-- What a rematch keeps of a row. -/
structure Rematched (r s : StoredRow δ) : Prop where
  id : s.id = r.id
  logicalKey : s.logicalKey = r.logicalKey
  isCurrent : s.isCurrent = r.isCurrent
  importVersion : s.importVersion = r.importVersion
  accepted : s.accepted = true

theorem rematched_saleLine (matchText : MatchText) (r : CoupangSaleLine) :
    Rematched r (rematchSaleLine matchText r) := by
  unfold rematchSaleLine
  refine ⟨rfl, rfl, rfl, rfl, ?_⟩
  rw [accepted_iff]
  exact validationStatusFor_nil_ne_error _ _

theorem rematched_adMetric (matchText : MatchText) (r : CoupangAdMetric) :
    Rematched r (rematchAdMetric matchText r) := by
  unfold rematchAdMetric
  refine ⟨rfl, rfl, rfl, rfl, ?_⟩
  rw [accepted_iff]
  dsimp only
  exact validationStatusFor_nil_ne_error _ _

/-- A rematch changes only rows that are accepted, and leaves them accepted. -/
theorem TableInv.rematch (h : TableInv rows) {p : StoredRow δ → Bool} (hf : ∀ r, Rematched r (f r))
    (hp : ∀ r, p r = true → r.accepted = true) :
    TableInv (rows.map fun r => if p r then f r else r) := by
  refine h.map (fun r _ => ?_) (fun r _ => ?_) (fun r _ => ?_)
  · split
    · exact (hf r).id
    · rfl
  · split
    · exact (hf r).logicalKey
    · rfl
  · split
    · rename_i hpr
      rw [hp r hpr]
      exact ⟨(hf r).isCurrent, (hf r).importVersion, (hf r).accepted⟩
    · exact ⟨rfl, rfl, rfl⟩

/-! ## 6. Every run -/

/-- The invariant of the store. -/
structure StoreInv (s : CoupangStore) : Prop where
  saleLines : TableInv s.saleLines
  adMetrics : TableInv s.adMetrics

section

variable (hash : RecordHash) (matchText : MatchText)

theorem stamps_saleEntries (file : List (Stamp × ParsedCoupangSalesRowResult)) :
    (saleEntries hash matchText file).map (·.1) = file.map (·.1) := by
  unfold saleEntries
  rw [map_map]
  rfl

theorem isClean_saleEntries (file : List (Stamp × ParsedCoupangSalesRowResult)) :
    ∀ entry ∈ saleEntries hash matchText file, IsClean entry.2.logicalKey := by
  intro entry he
  obtain ⟨x, -, rfl⟩ := mem_map.mp he
  unfold saleImportRow
  dsimp only
  cases x.2.parsedRow with
  | none => exact isClean_fallbackRowKey hash _
  | some parsed => exact isClean_coupangSaleLineKey parsed

theorem stamps_adEntries (file : List (Stamp × CoupangAdsImportRow)) :
    (adEntries hash matchText file).map (·.1) = file.map (·.1) := by
  unfold adEntries
  rw [map_map]
  rfl

theorem isClean_adEntries (file : List (Stamp × CoupangAdsImportRow)) :
    ∀ entry ∈ adEntries hash matchText file, IsClean entry.2.logicalKey := by
  intro entry he
  obtain ⟨x, -, rfl⟩ := mem_map.mp he
  unfold adImportRow
  dsimp only
  cases x.2.parsedRow with
  | none => exact isClean_fallbackRowKey hash _
  | some parsed => exact isClean_coupangAdMetricKey parsed

end

variable {s : CoupangStore}

section

variable (h : StoreInv s) (hash : RecordHash) (matchText : MatchText) (policy : ConflictPolicy)
  (batchId : Nat)
include h

theorem StoreInv.importSales {file : List (Stamp × ParsedCoupangSalesRowResult)}
    (hf : FreshStamps (file.map (·.1)) s.saleLines) :
    StoreInv (importSalesXlsx hash matchText policy batchId file s) where
  saleLines := h.saleLines.importRows _ policy batchId (by rw [stamps_saleEntries]; exact hf)
    (isClean_saleEntries hash matchText file)
  adMetrics := h.adMetrics

theorem StoreInv.importAds {file : List (Stamp × CoupangAdsImportRow)}
    (hf : FreshStamps (file.map (·.1)) s.adMetrics) :
    StoreInv (importAdsXlsx hash matchText policy batchId file s) where
  saleLines := h.saleLines
  adMetrics := h.adMetrics.importRows _ policy batchId (by rw [stamps_adEntries]; exact hf)
    (isClean_adEntries hash matchText file)

end

theorem StoreInv.rematch (h : StoreInv s) (matchText : MatchText) (fromDate toDate : Int) :
    StoreInv (rematch matchText fromDate toDate s) where
  saleLines := by
    refine h.saleLines.rematch (rematched_saleLine matchText) ?_
    intro r hr
    simp only [Bool.and_eq_true] at hr
    exact hr.1.2
  adMetrics := by
    refine h.adMetrics.rematch (rematched_adMetric matchText) ?_
    intro r hr
    simp only [Bool.and_eq_true] at hr
    exact hr.1.2

variable {hash : RecordHash}

/-- One operation keeps the invariant. -/
theorem StoreInv.step {t : CoupangStore} (h : StoreInv s) (hst : Step hash s t) :
    StoreInv t := by
  cases hst with
  | importSales matchText policy batchId file _ fresh _ =>
    exact h.importSales hash matchText policy batchId fresh
  | importAds matchText policy batchId file _ fresh _ =>
    exact h.importAds hash matchText policy batchId fresh
  | delete electLine electMetric batchId _ hLine hMetric =>
    exact ⟨h.saleLines.deleteRows hLine batchId, h.adMetrics.deleteRows hMetric batchId⟩
  | rematch matchText fromDate toDate _ => exact h.rematch matchText fromDate toDate

theorem TableInv.nil : TableInv ([] : List (StoredRow δ)) where
  ids := nodup_nil
  clean := by intro r hr; cases hr
  keys := fun _ => OneCurrent.nil versionColumns

/-- **Every reachable store has the invariant.** -/
theorem Reachable.inv (h : Reachable hash s) : StoreInv s := by
  induction h with
  | start => exact ⟨TableInv.nil, TableInv.nil⟩
  | step _ hst ih => exact ih.step hst

/-- The current rows of a key. -/
def currentRows (k : String) (rows : List (StoredRow δ)) : List (StoredRow δ) :=
  (ofKey k rows).filter (·.isCurrent)

/-- **One current sale line per key**, in every run: at most one row of a key is current; one is
    when a row of the key without ERROR is stored; it has the greatest version of those; and no
    ERROR row is current. -/
theorem sale_lines_one_current {hash : RecordHash} {s : CoupangStore} (h : Reachable hash s)
    (k : String) :
    (currentRows k s.saleLines).length ≤ 1 ∧
    ((currentRows k s.saleLines).length = 1 ↔
      ∃ r ∈ s.saleLines, r.logicalKey = k ∧ r.validationStatus ≠ .ERROR) ∧
    (∀ c ∈ currentRows k s.saleLines, ∀ r ∈ s.saleLines, r.logicalKey = k →
      r.validationStatus ≠ .ERROR → r.importVersion ≤ c.importVersion) ∧
    (∀ r ∈ s.saleLines, r.validationStatus = .ERROR → r.isCurrent = false) := by
  have hk := h.inv.saleLines.keys k
  refine ⟨hk.atMost, ?_, ?_, ?_⟩
  · refine hk.length_eq_one_iff.trans ?_
    constructor
    · rintro ⟨r, hr, ha⟩
      obtain ⟨hm, hkey⟩ := mem_ofKey.mp hr
      exact ⟨r, hm, hkey, accepted_iff.mp ha⟩
    · rintro ⟨r, hm, hkey, ha⟩
      exact ⟨r, mem_ofKey.mpr ⟨hm, hkey⟩, accepted_iff.mpr ha⟩
  · intro c hc r hr hkey ha
    obtain ⟨hcm, hcur⟩ := mem_filter.mp hc
    exact hk.greatest c hcm hcur r (mem_ofKey.mpr ⟨hr, hkey⟩) (accepted_iff.mpr ha)
  · intro r hr he
    cases hc : r.isCurrent with
    | false => rfl
    | true =>
      have ha := (h.inv.saleLines.keys r.logicalKey).accepted r (mem_ofKey.mpr ⟨hr, rfl⟩) hc
      exact absurd he (accepted_iff.mp ha)

/-! ## 7. A run

  One sales file is imported, and imported again with SKIP. -/

/-- A digest for runs in which every row parses. -/
def zeroHash : RecordHash where
  hash _ := String.ofList (replicate 64 '0')
  hex _ := by
    refine ⟨by rw [String.length_ofList]; rfl, fun c hc => ?_⟩
    rw [String.toList_ofList] at hc
    rw [eq_of_mem_replicate hc]
    decide

def noMatch : MatchText := fun _ _ =>
  { productId := none, matchRuleId := none, reason := .NO_MATCH, candidates := [] }

def sampleSaleRow : ParsedCoupangSalesRowResult where
  rowNumber := 2
  rawRow := []
  sourceRowHash := ""
  parsedRow := some
    { optionId := some "1", optionName := "red", productName := "cup", registeredProductId := none
      category := none, saleMethod := none, salesKrw := 1000, orderCount := 1, salesQuantity := 1
      totalSalesKrw := 1000, totalSalesQuantity := 1, cancelAmountKrw := 0, cancelQuantity := 0
      instantCancelQuantity := 0, netSalesKrw := 1000, saleDate := some 20000 }
  issues := []

/-- The sample row is imported as batch `n`, with id `n` and at time `n`. -/
def sampleImport (policy : ConflictPolicy) (n : Nat) (s : CoupangStore) : CoupangStore :=
  importSalesXlsx zeroHash noMatch policy n [(⟨n, n⟩, sampleSaleRow)] s

def importedOnce : CoupangStore := sampleImport .OVERWRITE 1 ⟨[], []⟩

def importedTwice : CoupangStore := sampleImport .SKIP 2 importedOnce

theorem sampleImport_step (policy : ConflictPolicy) {n : Nat} (hid : ∀ r ∈ s.saleLines, r.id ≠ n)
    (hl : ∀ r ∈ s.saleLines, r.uploadBatchId ≠ n) (hm : ∀ r ∈ s.adMetrics, r.uploadBatchId ≠ n) :
    Step zeroHash s (sampleImport policy n s) := by
  refine Step.importSales noMatch policy n [(⟨n, n⟩, sampleSaleRow)] s
    ⟨nodup_singleton _, ?_⟩ ⟨hl, hm⟩
  intro stamp hs r hr
  rw [map_singleton, mem_singleton] at hs
  rw [hs]
  exact hid r hr

theorem reachable_importedOnce : Reachable zeroHash importedOnce :=
  Reachable.start.step (sampleImport_step .OVERWRITE (by decide) (by decide) (by decide))

theorem reachable_importedTwice : Reachable zeroHash importedTwice :=
  reachable_importedOnce.step
    (sampleImport_step .SKIP (by decide +kernel) (by decide +kernel) (by decide +kernel))

theorem sale_lines_one_current_importedTwice :
    (currentRows "2024-10-04:1:cup:red" importedTwice.saleLines).length = 1 ∧
      ∀ r ∈ importedTwice.saleLines, r.validationStatus = .ERROR → r.isCurrent = false := by
  have h := sale_lines_one_current reachable_importedTwice "2024-10-04:1:cup:red"
  exact ⟨h.2.1.mpr (by decide +kernel), h.2.2.2⟩

end AdsManagement.Coupang
