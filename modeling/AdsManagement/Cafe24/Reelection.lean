/-
  File:      Cafe24/Reelection.lean
  Subject:   RE-ELECTION: `restoreCurrentCafe24OrderLines` in closed form.

  The keys are taken in chunks; of the candidates of a chunk, newest first, the first usable one
  of each key becomes current. The order ends with the id, so there are no ties.

  * `restoreCurrentCafe24OrderLines_lines` -- every listed key gets the flag of its own election.
-/
import AdsManagement.Coupang.UploadInverse
import AdsManagement.Cafe24.UploadStore

namespace AdsManagement.Cafe24

open Common Lib Coupang List Function

/-! ## 1. The order of the lines -/

section

variable (lines : List Cafe24OrderLine)

def sortLines : List Cafe24OrderLine :=
  lines.insertionSort fun a b => lineRank b ≤ lineRank a

/-- `ORDER BY importVersion DESC, createdAt DESC, id DESC LIMIT 1`. -/
def lineElect : Option Cafe24OrderLine := (sortLines lines).head?

theorem pairwise_sortLines : (sortLines lines).Pairwise fun a b => lineRank b ≤ lineRank a := by
  exact pairwise_insertionSort _ lines

theorem perm_sortLines : (sortLines lines).Perm lines :=
  perm_insertionSort _ lines

end

theorem elects_lineElect : Elects lineRank lineElect where
  top lines x h := by
    have hp := pairwise_sortLines lines
    refine ⟨(perm_sortLines lines).subset (mem_of_mem_head? h), fun y hy => ?_⟩
    obtain ⟨rest, hrest⟩ := head?_eq_some_iff.mp h
    have hm := (perm_sortLines lines).symm.subset hy
    rw [hrest] at hp hm
    rcases mem_cons.mp hm with rfl | hm
    · exact le_refl _
    · exact (pairwise_cons.mp hp).1 y hm
  found lines hne := by
    have hs : sortLines lines ≠ [] := fun e => hne (by
      have := (perm_sortLines lines).length_eq
      rw [e] at this
      exact length_eq_zero_iff.mp this.symm)
    obtain ⟨x, rest, hx⟩ := exists_cons_of_ne_nil hs
    exact ⟨x, by unfold lineElect; rw [hx]; rfl⟩

variable {a b : Cafe24OrderLine}

/-- The order of the lines refines the one the invariant needs. -/
theorem versionRank_le_of_lineRank (h : lineRank a ≤ lineRank b) :
    versionRank a ≤ versionRank b := by
  unfold lineRank at h
  unfold versionRank
  rw [Prod.Lex.toLex_le_toLex] at h ⊢
  rcases h with h | ⟨e, h⟩
  · exact .inl h
  · rw [Prod.Lex.toLex_le_toLex] at h
    refine .inr ⟨e, ?_⟩
    rcases h with h | ⟨e', -⟩
    · exact h.le
    · exact e'.le

theorem elects_versionRank_lineElect : Elects versionRank lineElect where
  top lines x h := ⟨(elects_lineElect.top lines x h).mem, fun y hy =>
    versionRank_le_of_lineRank ((elects_lineElect.top lines x h).le y hy)⟩
  found := elects_lineElect.found

theorem id_eq_of_lineRank (h : lineRank a = lineRank b) : a.id = b.id := by
  unfold lineRank at h
  simp only [toLex_inj, Prod.mk.injEq] at h
  exact h.2.2

variable {lines : List Cafe24OrderLine}

/-- Sorting and filtering commute where ids are distinct. -/
theorem filter_sortLines (hids : (lines.map (·.id)).Nodup) (p : Cafe24OrderLine → Bool) :
    (sortLines lines).filter p = sortLines (lines.filter p) := by
  have hperm : ((sortLines lines).filter p).Perm (sortLines (lines.filter p)) :=
    ((perm_sortLines lines).filter p).trans (perm_sortLines _).symm
  refine hperm.eq_of_pairwise ?_ ((pairwise_sortLines lines).filter p) (pairwise_sortLines _)
  intro a b ha hb hab hba
  have hm : ∀ x ∈ (sortLines lines).filter p, x ∈ lines := fun x hx =>
    (perm_sortLines lines).subset (mem_filter.mp hx).1
  exact eq_of_id hids (hm a ha) (hm b (hperm.symm.subset hb)) (id_eq_of_lineRank (le_antisymm hba hab))

/-- One candidate of `latestByKey`. -/
def noteLatest (usable : Nat → Bool) (latest : List (String × Nat)) (candidate : Cafe24OrderLine) :
    List (String × Nat) :=
  if (latest.map (·.1)).contains candidate.logicalKey then latest
  else if usable candidate.uploadBatchId then latest ++ [(candidate.logicalKey, candidate.id)]
  else latest

/-- The loop keeps the first usable candidate of each key. -/
theorem mem_foldl_noteLatest (usable : Nat → Bool) (cands : List Cafe24OrderLine) (k : String) (i : Nat) :
    (k, i) ∈ cands.foldl (noteLatest usable) [] ↔
      ((cands.filter fun c => c.logicalKey = k && usable c.uploadBatchId).head?.map (·.id)) = some i := by
  induction cands using reverseRecOn generalizing k i with
  | nil => simp
  | append_singleton cands c ih =>
    rw [foldl_append, foldl_cons, foldl_nil, filter_append, head?_append]
    generalize cands.foldl (noteLatest usable) [] = latest at ih ⊢
    have hkey : (latest.map (·.1)).contains c.logicalKey = true ↔
        (cands.filter fun d => d.logicalKey = c.logicalKey && usable d.uploadBatchId).head? ≠ none := by
      rw [contains_iff_mem]
      constructor
      · intro hm hn
        obtain ⟨⟨k', i'⟩, hp, rfl⟩ := mem_map.mp hm
        have := (ih _ _).mp hp
        rw [hn] at this
        cases this
      · intro hn
        obtain ⟨d, hd⟩ := Option.ne_none_iff_exists'.mp hn
        exact mem_map.mpr ⟨(c.logicalKey, d.id), (ih _ _).mpr (by rw [hd]; rfl), rfl⟩
    unfold noteLatest
    by_cases hu : usable c.uploadBatchId = true
    · by_cases hk : c.logicalKey = k
      · subst hk
        have hc : ([c].filter fun d => d.logicalKey = c.logicalKey && usable d.uploadBatchId) = [c] := by
          simp [hu]
        rw [hc]
        by_cases hin : (latest.map (·.1)).contains c.logicalKey = true
        · obtain ⟨d, hd⟩ := Option.ne_none_iff_exists'.mp (hkey.mp hin)
          rw [if_pos hin, ih, hd]
          rfl
        · have hnone : (cands.filter fun d =>
              d.logicalKey = c.logicalKey && usable d.uploadBatchId).head? = none := by
            by_contra hne
            exact hin (hkey.mpr hne)
          rw [if_neg hin, if_pos hu, mem_append, ih, hnone]
          simp [eq_comm]
      · have hc : ([c].filter fun d => d.logicalKey = k && usable d.uploadBatchId) = [] := by
          simp [hk]
        rw [hc, head?_nil, Option.or_none, ← ih]
        split
        · rfl
        · rw [mem_append, mem_singleton, Prod.mk.injEq]
          exact or_iff_left fun e => hk e.1.symm
    · have hc : ([c].filter fun d => d.logicalKey = k && usable d.uploadBatchId) = [] := by
        simp [hu]
      rw [hc, head?_nil, Option.or_none, ← ih, if_neg hu, ite_self]

/-- Every line that may be elected belongs to a usable batch. -/
def AllUsable (batches : List Cafe24UploadBatch) (lines : List Cafe24OrderLine) : Prop :=
  ∀ line ∈ lines, line.accepted = true → usableBatch ⟨batches, lines, []⟩ line.uploadBatchId = true

variable {batches : List Cafe24UploadBatch}
variable {lines' : List Cafe24OrderLine}

theorem usableBatch_congr (h : lines.map (·.uploadBatchId) = lines'.map (·.uploadBatchId)) (batchId : Nat) :
    usableBatch ⟨batches, lines, []⟩ batchId = usableBatch ⟨batches, lines', []⟩ batchId := by
  have hc : ∀ l : List Cafe24OrderLine,
      storedRowCount l batchId = (l.map (·.uploadBatchId)).countP fun b => b = batchId := by
    intro l
    rw [countP_map]
    rfl
  unfold usableBatch
  simp only [hc, h]

/-- The lines of a chunk of keys lose their flags. -/
def clearKeys (keys : List String) (lines : List Cafe24OrderLine) : List Cafe24OrderLine :=
  lines.map fun line => if keys.contains line.logicalKey then line.clear else line

variable {keys : List String}
variable {k : String}

theorem candidates_clearKeys (hk : k ∈ keys) (lines : List Cafe24OrderLine) :
    candidates k (clearKeys keys lines) = (candidates k lines).map StoredRow.clear := by
  unfold candidates clearKeys
  rw [filter_map]
  have e : (fun r : Cafe24OrderLine => decide (r.logicalKey = k) && r.accepted) ∘
      (fun line => if keys.contains line.logicalKey then line.clear else line) =
      fun r => decide (r.logicalKey = k) && r.accepted := by
    funext r
    simp only [comp_apply]
    split <;> rfl
  rw [e]
  refine map_congr_left fun r hr => ?_
  have hrk : r.logicalKey = k := by
    have := (mem_filter.mp hr).2
    simp only [Bool.and_eq_true, decide_eq_true_eq] at this
    exact this.1
  rw [if_pos (by rw [hrk]; exact contains_iff_mem.mpr hk)]

theorem map_id_clearKeys (keys : List String) (lines : List Cafe24OrderLine) :
    (clearKeys keys lines).map (·.id) = lines.map (·.id) := by
  unfold clearKeys
  rw [map_map]
  refine map_congr_left fun r _ => ?_
  simp only [comp_apply]
  split <;> rfl

/-- **One chunk of a re-election** marks the elected line of each of its keys. -/
theorem mem_latestByKey (hids : (lines.map (·.id)).Nodup) (husable : AllUsable batches lines)
    (hk : k ∈ keys) (i : Nat) :
    (k, i) ∈ latestByKey (usableBatch ⟨batches, clearKeys keys lines, []⟩) keys (clearKeys keys lines) ↔
      elected lineElect k lines = some i := by
  have hb : (clearKeys keys lines).map (·.uploadBatchId) = lines.map (·.uploadBatchId) := by
    unfold clearKeys
    rw [map_map]
    refine map_congr_left fun r _ => ?_
    simp only [comp_apply]
    split <;> rfl
  show (k, i) ∈ foldl (noteLatest _) [] (sortLines ((clearKeys keys lines).filter
    fun line => keys.contains line.logicalKey && line.accepted)) ↔ _
  rw [mem_foldl_noteLatest, filter_sortLines]
  · have e : (((clearKeys keys lines).filter fun line => keys.contains line.logicalKey && line.accepted).filter
        fun c => c.logicalKey = k && usableBatch ⟨batches, clearKeys keys lines, []⟩ c.uploadBatchId) =
        (candidates k lines).map StoredRow.clear := by
      rw [← candidates_clearKeys hk, filter_filter]
      refine filter_congr fun r hr => ?_
      by_cases hrk : r.logicalKey = k
      · cases ha : r.accepted with
        | false => simp
        | true =>
          obtain ⟨s, hs, rfl⟩ := mem_map.mp hr
          have hu : usableBatch ⟨batches, lines, []⟩ s.uploadBatchId = true := by
            refine husable s hs ?_
            rw [← ha]
            split <;> rfl
          have hsb : (if keys.contains s.logicalKey then s.clear else s).uploadBatchId =
              s.uploadBatchId := by
            split <;> rfl
          rw [hsb, usableBatch_congr hb, hu, hrk]
          simp [hk]
      · simp [hrk]
    rw [e]
    rfl
  · rw [← map_id_clearKeys keys] at hids
    exact hids.sublist (filter_sublist.map _)

/-- Only keys of the chunk are re-elected. -/
theorem mem_keys_of_latestByKey {usable : Nat → Bool} {i : Nat} (h : (k, i) ∈ latestByKey usable keys lines) :
    k ∈ keys := by
  have h' := (mem_foldl_noteLatest usable _ k i).mp h
  obtain ⟨c, hc, -⟩ := Option.map_eq_some_iff.mp h'
  obtain ⟨hm, hk⟩ := mem_filter.mp (mem_of_mem_head? hc)
  have hm' := (mem_filter.mp ((perm_insertionSort _ _).subset hm)).2
  simp only [Bool.and_eq_true, decide_eq_true_eq, contains_iff_mem] at hk hm'
  rw [← hk.1]
  exact hm'.1

/-- One chunk of a re-election, in closed form. -/
theorem restoreChunk_eq (hids : (lines.map (·.id)).Nodup) (husable : AllUsable batches lines)
    (keys : List String) :
    restoreChunk batches lines keys =
      lines.map fun r => if r.logicalKey ∈ keys then restored lineElect lines r else r := by
  show (clearKeys keys lines).map (fun line : Cafe24OrderLine =>
    if ((latestByKey (usableBatch ⟨batches, clearKeys keys lines, []⟩) keys
        (clearKeys keys lines)).map (·.2)).contains line.id then { line with isCurrent := true }
    else line) = _
  generalize hl : latestByKey (usableBatch ⟨batches, clearKeys keys lines, []⟩) keys
    (clearKeys keys lines) = latest
  have hmem : ∀ r ∈ lines, r.id ∈ latest.map (·.2) ↔
      r.logicalKey ∈ keys ∧ elected lineElect r.logicalKey lines = some r.id := by
    intro r hr
    constructor
    · intro hm
      obtain ⟨⟨k, i⟩, hp, rfl⟩ := mem_map.mp hm
      rw [← hl] at hp
      have hk := mem_keys_of_latestByKey hp
      have hel := (mem_latestByKey hids husable hk _).mp hp
      obtain ⟨c, hc, hcid, -⟩ := exists_of_elected elects_versionRank_lineElect hel
      obtain ⟨hcm, hck, -⟩ := mem_candidates.mp hc
      rw [← eq_of_id hids hcm hr hcid, hck]
      exact ⟨hk, hel.trans (congrArg some hcid.symm)⟩
    · rintro ⟨hk, hel⟩
      refine mem_map.mpr ⟨(r.logicalKey, r.id), ?_, rfl⟩
      rw [← hl]
      exact (mem_latestByKey hids husable hk _).mpr hel
  unfold clearKeys
  rw [map_map]
  refine map_congr_left fun r hr => ?_
  simp only [comp_apply, contains_iff_mem]
  by_cases hk : r.logicalKey ∈ keys
  · rw [if_pos hk, if_pos hk]
    by_cases hel : elected lineElect r.logicalKey lines = some r.id
    · rw [if_pos (show r.clear.id ∈ latest.map (·.2) from (hmem r hr).mpr ⟨hk, hel⟩),
        restored_of_elected hel]
      rfl
    · rw [if_neg (show ¬ r.clear.id ∈ latest.map (·.2) from fun h => hel ((hmem r hr).mp h).2),
        restored_of_ne hel]
  · rw [if_neg hk, if_neg hk, if_neg fun h => hk ((hmem r hr).mp h).1]

/-- Re-election leaves everything but the flags. -/
theorem AllUsable.map (h : AllUsable batches lines) {f : Cafe24OrderLine → Cafe24OrderLine}
    (hf : ∀ r, (f r).uploadBatchId = r.uploadBatchId ∧ (f r).accepted = r.accepted) :
    AllUsable batches (lines.map f) := by
  have hb : (lines.map f).map (·.uploadBatchId) = lines.map (·.uploadBatchId) := by
    rw [map_map]
    exact map_congr_left fun r _ => (hf r).1
  intro line hl ha
  obtain ⟨r, hr, rfl⟩ := mem_map.mp hl
  rw [(hf r).2] at ha
  rw [usableBatch_congr hb, (hf r).1]
  exact h r hr ha

theorem restored_congr {elect : List Cafe24OrderLine → Option Cafe24OrderLine} {r : Cafe24OrderLine}
    (h : elected elect r.logicalKey lines = elected elect r.logicalKey lines') :
    restored elect lines r = restored elect lines' r := by
  unfold restored
  rw [h]

/-- **The re-election in closed form**: chunk after chunk, the lines of the listed keys get the
    flag of their own key's election. -/
theorem foldl_restoreChunk_eq :
    ∀ (parts : List (List String)) {lines : List Cafe24OrderLine}, parts.flatten.Nodup →
      (lines.map (·.id)).Nodup → AllUsable batches lines →
      parts.foldl (restoreChunk batches) lines =
        lines.map fun r => if r.logicalKey ∈ parts.flatten then restored lineElect lines r else r
  | [], lines, _, _, _ => by
    refine ((map_congr_left fun r _ => ?_).trans (map_id lines)).symm
    rw [flatten_nil, if_neg not_mem_nil]
    rfl
  | keys :: parts, lines, hnd, hids, husable => by
    rw [flatten_cons, nodup_append] at hnd
    have hcol : ∀ r : Cafe24OrderLine,
        (if r.logicalKey ∈ keys then restored lineElect lines r else r).logicalKey = r.logicalKey ∧
        (if r.logicalKey ∈ keys then restored lineElect lines r else r).id = r.id ∧
        (if r.logicalKey ∈ keys then restored lineElect lines r else r).uploadBatchId =
          r.uploadBatchId ∧
        (if r.logicalKey ∈ keys then restored lineElect lines r else r).accepted = r.accepted := by
      intro r
      split <;> exact ⟨rfl, rfl, rfl, rfl⟩
    rw [foldl_cons, restoreChunk_eq hids husable]
    have hids' : ((lines.map fun r => if r.logicalKey ∈ keys then restored lineElect lines r else r).map
        (·.id)).Nodup := by
      rw [map_map]
      exact (map_congr_left fun r _ => (hcol r).2.1) ▸ hids
    rw [foldl_restoreChunk_eq parts hnd.2.1 hids' (husable.map fun r => (hcol r).2.2), map_map]
    -- the election of a later key sees the lines of that key as they were
    have hlater : ∀ k ∈ parts.flatten, elected lineElect k
        (lines.map fun r => if r.logicalKey ∈ keys then restored lineElect lines r else r) =
        elected lineElect k lines := by
      intro k hk
      refine elected_congr ?_
      rw [ofKey_map fun r _ => (hcol r).1]
      refine (map_congr_left fun r hr => ?_).trans (map_id _)
      rw [if_neg fun hm => hnd.2.2 _ hm k hk (mem_ofKey.mp hr).2]
      rfl
    refine map_congr_left fun r _ => ?_
    simp only [comp_apply, (hcol r).1, flatten_cons, mem_append]
    by_cases hr : r.logicalKey ∈ keys
    · have hn : r.logicalKey ∉ parts.flatten := fun h => hnd.2.2 _ hr _ h rfl
      rw [if_neg hn, if_pos hr, if_pos (.inl hr)]
    · by_cases hp : r.logicalKey ∈ parts.flatten
      · have hel := hlater _ hp
        rw [if_pos hp, if_neg hr, if_pos (.inr hp)]
        exact restored_congr hel
      · rw [if_neg hp, if_neg hr, if_neg (not_or.mpr ⟨hr, hp⟩)]

theorem restoreCurrentCafe24OrderLines_lines {store : Cafe24Store} (hids : (store.lines.map (·.id)).Nodup)
    (husable : AllUsable store.batches store.lines) (hclean : ∀ k ∈ keys, IsClean k) :
    (restoreCurrentCafe24OrderLines keys store).lines =
      store.lines.map fun r => if r.logicalKey ∈ keys then restored lineElect store.lines r else r := by
  have hflat := flatten_chunks (show 0 < 500 by decide) (uniqueNonEmpty (keys.map some))
  show (chunks 500 (uniqueNonEmpty (keys.map some))).foldl (restoreChunk store.batches) store.lines = _
  rw [foldl_restoreChunk_eq _ (by rw [hflat]; exact nodup_eraseDups _) hids husable, hflat]
  refine map_congr_left fun r _ => ?_
  have hm : r.logicalKey ∈ uniqueNonEmpty (keys.map some) ↔ r.logicalKey ∈ keys := by
    rw [mem_uniqueNonEmpty]
    · simp
    · intro s hs
      obtain ⟨k, hk, e⟩ := mem_map.mp hs
      rw [← Option.some.inj e]
      exact hclean k hk
  simp only [hm]

end AdsManagement.Cafe24
