/-
  File:      Coupang/UploadInverse.lean
  Subject:   DOES `deleteUpload` UNDO AN IMPORT? On the other columns always, on the current
             flags exactly when the current row of every touched key outranks the other
             accepted rows of the key by (importVersion, createdAt).

  A skipped duplicate is stored with the version of the row it duplicates and a later
  `createdAt`. The re-election of `deleteUpload` runs for every key of the deleted batch,
  also where the batch held no current row, and then the duplicate wins.

  * `deleteRows_importRows` -- import and deletion together, in closed form;
  * `restored_eq_self_iff` -- when an election confirms the current row;
  * `deletions_commute` -- several deletions.
-/
import AdsManagement.Coupang.VersionInvariant

namespace AdsManagement.Coupang

open Common Lib List Function

variable {δ : Type} {rows : List (StoredRow δ)}

/-! ## 1. What an import does to the stored rows -/

/-- A change that at most clears the flags of rows with a listed key. -/
def Clears (keys : List String) (f : StoredRow δ → StoredRow δ) : Prop :=
  ∀ r, f r = r ∨ (f r = r.clear ∧ r.logicalKey ∈ keys)

theorem kept_append (batchId : Nat) (l m : List (StoredRow δ)) :
    kept batchId (l ++ m) = kept batchId l ++ kept batchId m := by
  simp [kept]

variable {f : StoredRow δ → StoredRow δ}

theorem kept_map (hf : ∀ r, (f r).uploadBatchId = r.uploadBatchId) (batchId : Nat)
    (rows : List (StoredRow δ)) :
    kept batchId (rows.map f) = (kept batchId rows).map f := by
  unfold kept
  exact filter_map_of_keeps fun r _ => by rw [hf r]

/-- The keys of the rows of a batch, in the order of the table. -/
def batchKeys (batchId : Nat) (rows : List (StoredRow δ)) : List String :=
  (rows.filter fun r => r.uploadBatchId = batchId).map (·.logicalKey)

theorem batchKeys_append (batchId : Nat) (l m : List (StoredRow δ)) :
    batchKeys batchId (l ++ m) = batchKeys batchId l ++ batchKeys batchId m := by
  simp [batchKeys]

theorem batchKeys_clearKey (batchId : Nat) (k : String) (rows : List (StoredRow δ)) :
    batchKeys batchId (clearKey k rows) = batchKeys batchId rows := by
  unfold batchKeys clearKey
  rw [filter_map, map_map]
  have e : (fun r : StoredRow δ => decide (r.uploadBatchId = batchId)) ∘
      (fun r => if r.logicalKey = k then r.clear else r) =
      fun r => decide (r.uploadBatchId = batchId) := by
    funext r
    simp only [comp_apply]
    split <;> rfl
  rw [e]
  refine map_congr_left fun r _ => ?_
  simp only [comp_apply]
  split <;> rfl

/-- The loop of an import: the other batches keep their rows up to flags of the file's keys,
    and the batch gains one row for each row of the file. -/
theorem foldl_importRow_kept (code : String) (policy : ConflictPolicy) (batchId : Nat) :
    ∀ (entries : List (Stamp × ImportRow δ)) (state : ImportState δ), TableInv state.rows →
      FreshStamps (entries.map (·.1)) state.rows →
      (∀ entry ∈ entries, IsClean entry.2.logicalKey) →
      (∃ f, Clears (entries.map (·.2.logicalKey)) f ∧
        kept batchId (entries.foldl (importRow code policy batchId) state).rows =
          (kept batchId state.rows).map f) ∧
      batchKeys batchId (entries.foldl (importRow code policy batchId) state).rows =
        batchKeys batchId state.rows ++ entries.map (·.2.logicalKey)
  | [], state, _, _, _ =>
    ⟨⟨fun r => r, fun _ => .inl rfl, (map_id' _).symm⟩, (append_nil _).symm⟩
  | entry :: entries, state, h, hf, hc => by
    obtain ⟨n, -, hbatch, hkey, -, hrows⟩ := importRow_eq_place h code policy batchId entry
    obtain ⟨h', hf'⟩ := h.turn code policy batchId hf (hc entry mem_cons_self)
    obtain ⟨⟨f, hclears, hkept⟩, hkeys⟩ := foldl_importRow_kept code policy batchId entries _ h' hf'
      fun e he => hc e (mem_cons_of_mem _ he)
    have hn : kept batchId [n] = [] := by simp [kept, hbatch]
    have hnk : batchKeys batchId [n] = [n.logicalKey] := by simp [batchKeys, hbatch]
    rw [foldl_cons, hkept, hkeys, hrows, kept_append, hn, append_nil, batchKeys_append, hnk]
    constructor
    · cases n.isCurrent with
      | false =>
        refine ⟨f, fun r => ?_, rfl⟩
        exact (hclears r).imp_right fun hr => ⟨hr.1, mem_cons_of_mem _ hr.2⟩
      | true =>
        refine ⟨fun r => f (if r.logicalKey = n.logicalKey then r.clear else r), fun r => ?_, ?_⟩
        · by_cases hk : r.logicalKey = n.logicalKey
          · simp only [if_pos hk]
            refine .inr ⟨?_, by rw [hk, hkey]; exact mem_cons_self⟩
            rcases hclears r.clear with e | e
            · exact e
            · exact e.1
          · simp only [if_neg hk]
            exact (hclears r).imp_right fun hr => ⟨hr.1, mem_cons_of_mem _ hr.2⟩
        · rw [if_pos rfl]
          unfold clearKey
          rw [kept_map (fun r => by split <;> rfl), map_map]
          rfl
    · have e : batchKeys batchId (if n.isCurrent then clearKey n.logicalKey state.rows
          else state.rows) = batchKeys batchId state.rows := by
        split
        · exact batchKeys_clearKey _ _ _
        · rfl
      rw [e, hkey, append_assoc]
      rfl

/-! ## 2. Import and deletion together -/

variable {keys : List String}

theorem Clears.candidates (hf : Clears keys f) (k : String) (rows : List (StoredRow δ)) :
    (candidates k (rows.map f)).map StoredRow.clear = (candidates k rows).map StoredRow.clear := by
  have hcol : ∀ r : StoredRow δ, (f r).logicalKey = r.logicalKey ∧ (f r).accepted = r.accepted ∧
      (f r).clear = r.clear := by
    intro r
    rcases hf r with e | e
    · rw [e]; exact ⟨rfl, rfl, rfl⟩
    · rw [e.1]; exact ⟨rfl, rfl, rfl⟩
  unfold Coupang.candidates
  rw [filter_map, map_map]
  have e : (fun r : StoredRow δ => decide (r.logicalKey = k) && r.accepted) ∘ f =
      fun r => decide (r.logicalKey = k) && r.accepted := by
    funext r
    simp only [comp_apply, (hcol r).1, (hcol r).2.1]
  rw [e]
  exact map_congr_left fun r _ => (hcol r).2.2

/-- Whatever flags an import has cleared, the election overwrites them. -/
theorem Clears.restored (hf : Clears keys f) (elect : List (StoredRow δ) → Option (StoredRow δ))
    (rows : List (StoredRow δ)) (r : StoredRow δ) :
    restored elect (rows.map f) (f r) = restored elect rows r := by
  have hel : ∀ k, elected elect k (rows.map f) = elected elect k rows := by
    intro k
    unfold elected
    rw [hf.candidates]
  unfold Coupang.restored
  rcases hf r with e | e
  · rw [e, hel]
  · rw [e.1, hel]
    rfl

variable {batchId : Nat} {elect : List (StoredRow δ) → Option (StoredRow δ)}
variable {entries : List (Stamp × ImportRow δ)}

/-- **Importing a file and deleting its batch**: the table is what it was, except that the rows
    of the file's keys have the flag of a new election. -/
theorem deleteRows_importRows (h : TableInv rows) (he : Elects versionRank elect) (code : String)
    (policy : ConflictPolicy) (hf : FreshStamps (entries.map (·.1)) rows)
    (hc : ∀ entry ∈ entries, IsClean entry.2.logicalKey) (hnew : ∀ r ∈ rows, r.uploadBatchId ≠ batchId) :
    deleteRows elect batchId (importRows code policy batchId entries rows).rows =
      rows.map fun r =>
        if r.logicalKey ∈ entries.map (·.2.logicalKey) then restored elect rows r else r := by
  have hinv := h.importRows code policy batchId hf hc
  obtain ⟨⟨f, hclears, hkept⟩, hkeys⟩ := foldl_importRow_kept code policy batchId entries
    { rows, validRowCount := 0, warningCount := 0, errorCount := 0 } h hf hc
  have hrows : kept batchId rows = rows := filter_eq_self.mpr fun r hr => by simp [hnew r hr]
  have hnone : batchKeys batchId rows = [] := by
    unfold batchKeys
    rw [filter_eq_nil_iff.mpr fun r hr => by simp [hnew r hr]]
    rfl
  have hmem : ∀ k, k ∈ deletedKeys batchId (importRows code policy batchId entries rows).rows ↔
      k ∈ entries.map (·.2.logicalKey) := by
    intro k
    rw [mem_deletedKeys hinv]
    have : (∃ r ∈ (importRows code policy batchId entries rows).rows,
        r.uploadBatchId = batchId ∧ r.logicalKey = k) ↔
        k ∈ batchKeys batchId (importRows code policy batchId entries rows).rows := by
      unfold batchKeys
      simp only [mem_map, mem_filter, decide_eq_true_eq, and_assoc]
    rw [this]
    show k ∈ batchKeys batchId (entries.foldl (importRow code policy batchId) _).rows ↔ _
    rw [hkeys, hnone, nil_append]
  have hk : kept batchId (importRows code policy batchId entries rows).rows = rows.map f := by
    rw [hrows] at hkept
    exact hkept
  rw [deleteRows_eq he hinv.ids, hk, map_map]
  refine map_congr_left fun r _ => ?_
  simp only [comp_apply]
  have hfk : (f r).logicalKey = r.logicalKey := by
    rcases hclears r with e | e
    · rw [e]
    · rw [e.1]; rfl
  by_cases hr : r.logicalKey ∈ entries.map (·.2.logicalKey)
  · rw [if_pos (by rw [hfk]; exact (hmem _).mpr hr), if_pos hr, hclears.restored]
  · rw [if_neg (by rw [hfk]; exact fun hh => hr ((hmem _).mp hh)), if_neg hr]
    exact (hclears r).resolve_right fun e => hr e.2

/-! ## 3. When an election confirms the current row -/

/-- The current row of the key outranks its other accepted rows. -/
def CurrentLeads (k : String) (rows : List (StoredRow δ)) : Prop :=
  ∀ c ∈ currentRows k rows, Leads versionRank (candidates k rows) c

instance [DecidableEq δ] (k : String) (rows : List (StoredRow δ)) : Decidable (CurrentLeads k rows) :=
  inferInstanceAs (Decidable (∀ c ∈ currentRows k rows, Leads versionRank (candidates k rows) c))

variable {r : StoredRow δ}

theorem restored_eq_self_iff_flag : restored elect rows r = r ↔
      (r.isCurrent = true ↔ elected elect r.logicalKey rows = some r.id) := by
  constructor
  · intro e
    have hc := congrArg StoredRow.isCurrent e
    rw [← hc]
    exact decide_eq_true_iff
  · intro e
    by_cases hel : elected elect r.logicalKey rows = some r.id
    · rw [restored_of_elected hel]
      have := e.mpr hel
      cases r
      subst this
      rfl
    · rw [restored_of_ne hel, clear_of_not_current]
      cases hc : r.isCurrent with
      | false => rfl
      | true => exact absurd (e.mp hc) hel

variable {k : String}

theorem mem_currentRows :
    r ∈ currentRows k rows ↔ r ∈ rows ∧ r.logicalKey = k ∧ r.isCurrent = true := by
  unfold currentRows
  rw [mem_filter, mem_ofKey, and_assoc]

/-- A leader among the candidates is the leader among them with cleared flags. -/
theorem leads_clear_iff (hids : (rows.map (·.id)).Nodup) {c : StoredRow δ} (hc : c ∈ rows) :
    Leads versionRank ((candidates k rows).map StoredRow.clear) c.clear ↔
      Leads versionRank (candidates k rows) c := by
  have hinj : ∀ y ∈ candidates k rows, y.clear = c.clear → y = c := by
    intro y hy e
    exact eq_of_id hids (mem_candidates.mp hy).1 hc (show y.clear.id = c.clear.id by rw [e])
  constructor
  · rintro ⟨hm, hlt⟩
    obtain ⟨y, hy, e⟩ := mem_map.mp hm
    rw [hinj y hy e] at hy
    refine ⟨hy, fun z hz hne => ?_⟩
    exact hlt z.clear (mem_map_of_mem hz) fun e => hne (hinj z hz e)
  · rintro ⟨hm, hlt⟩
    refine ⟨mem_map_of_mem hm, fun x hx hne => ?_⟩
    obtain ⟨y, hy, rfl⟩ := mem_map.mp hx
    exact hlt y hy fun e => hne (by rw [e])

/-- **Every election confirms the flags of a key exactly when its current row leads.** -/
theorem restored_eq_self_iff (hids : (rows.map (·.id)).Nodup)
    (hk : OneCurrent versionColumns (ofKey k rows)) :
    (∀ elect, Elects versionRank elect → ∀ r ∈ ofKey k rows, restored elect rows r = r) ↔
      CurrentLeads k rows := by
  constructor
  · intro h c hc
    obtain ⟨hcm, hck, hcc⟩ := mem_currentRows.mp hc
    rw [← leads_clear_iff hids hcm, ← elect_eq_some_iff_forall]
    intro elect he
    have hel := (restored_eq_self_iff_flag.mp (h elect he c (mem_ofKey.mpr ⟨hcm, hck⟩))).mp hcc
    rw [hck] at hel
    obtain ⟨x, hx, hid⟩ := Option.map_eq_some_iff.mp hel
    obtain ⟨y, hy, rfl⟩ := mem_map.mp (he.top _ _ hx).mem
    rw [eq_of_id hids (mem_candidates.mp hy).1 hcm hid] at hx
    exact hx
  · intro h elect he r hr
    obtain ⟨hrm, hrk⟩ := mem_ofKey.mp hr
    rw [restored_eq_self_iff_flag, hrk]
    constructor
    · intro hcur
      have hl := (leads_clear_iff hids hrm).mpr (h r (mem_currentRows.mpr ⟨hrm, hrk, hcur⟩))
      unfold elected
      rw [hl.elect_eq he]
      rfl
    · intro hel
      obtain ⟨c, hc, hid, -⟩ := exists_of_elected he hel
      obtain ⟨hcm, hck, hca⟩ := mem_candidates.mp hc
      obtain ⟨d, hd, hdc⟩ := hk.exists_current c (mem_ofKey.mpr ⟨hcm, hck⟩) hca
      obtain ⟨hdm, hdk⟩ := mem_ofKey.mp hd
      have hl := (leads_clear_iff hids hdm).mpr (h d (mem_currentRows.mpr ⟨hdm, hdk, hdc⟩))
      unfold elected at hel
      rw [hl.elect_eq he] at hel
      have e : d.id = r.id := Option.some.inj hel
      rw [← eq_of_id hids hdm hrm e]
      exact hdc

/-- The table is restored by every election exactly when the current row of every key of the
    file leads. -/
theorem deleteRows_importRows_eq_iff (h : TableInv rows) (code : String) (policy : ConflictPolicy)
    (hf : FreshStamps (entries.map (·.1)) rows) (hc : ∀ entry ∈ entries, IsClean entry.2.logicalKey)
    (hnew : ∀ r ∈ rows, r.uploadBatchId ≠ batchId) :
    (∀ elect, Elects versionRank elect →
      deleteRows elect batchId (importRows code policy batchId entries rows).rows = rows) ↔
      ∀ k ∈ entries.map (·.2.logicalKey), CurrentLeads k rows := by
  constructor
  · intro hall k hk
    rw [← restored_eq_self_iff h.ids (h.keys k)]
    intro elect he r hr
    obtain ⟨hrm, hrk⟩ := mem_ofKey.mp hr
    have e := hall elect he
    rw [deleteRows_importRows h he code policy hf hc hnew] at e
    have hr' := map_inj_left.mp (e.trans (map_id' rows).symm) r hrm
    rwa [if_pos (by rw [hrk]; exact hk)] at hr'
  · intro hall elect he
    rw [deleteRows_importRows h he code policy hf hc hnew]
    refine (map_congr_left fun r hr => ?_).trans (map_id' rows)
    by_cases hk : r.logicalKey ∈ entries.map (·.2.logicalKey)
    · rw [if_pos hk]
      exact (restored_eq_self_iff h.ids (h.keys _)).mpr (hall _ hk) elect he r
        (mem_ofKey.mpr ⟨hr, rfl⟩)
    · rw [if_neg hk]

/-! ## 4. Deleting a batch without a current row of the key -/

/-- Keeping the current rows of a list keeps the invariant. -/
theorem oneCurrent_kept (hk : OneCurrent versionColumns (ofKey k rows))
    (hcur : ∀ r ∈ rows, r.uploadBatchId = batchId → r.logicalKey = k → r.isCurrent = false) :
    OneCurrent versionColumns (ofKey k (kept batchId rows)) := by
  have hsub : ∀ r, r ∈ ofKey k (kept batchId rows) → r ∈ ofKey k rows := by
    intro r hr
    obtain ⟨hm, hrk⟩ := mem_ofKey.mp hr
    exact mem_ofKey.mpr ⟨(mem_kept.mp hm).1, hrk⟩
  refine ⟨?_, ?_, ?_, ?_⟩
  · have hs : (ofKey k (kept batchId rows)).Sublist (ofKey k rows) := filter_sublist.filter _
    exact (hs.filter _).length_le.trans hk.atMost
  · exact fun c hc => hk.accepted c (hsub c hc)
  · intro r hr ha
    obtain ⟨c, hc, hcc⟩ := hk.exists_current r (hsub r hr) ha
    obtain ⟨hcm, hck⟩ := mem_ofKey.mp hc
    refine ⟨c, mem_ofKey.mpr ⟨mem_kept.mpr ⟨hcm, fun hb => ?_⟩, hck⟩, hcc⟩
    have := hcur c hcm hb hck
    rw [show c.isCurrent = true from hcc] at this
    cases this
  · exact fun c hc hcc r hr ha => hk.greatest c (hsub c hc) hcc r (hsub r hr) ha

theorem currentRows_kept
    (hcur : ∀ r ∈ rows, r.uploadBatchId = batchId → r.logicalKey = k → r.isCurrent = false) :
    currentRows k (kept batchId rows) = currentRows k rows := by
  unfold currentRows ofKey kept
  rw [filter_filter, filter_filter, filter_filter]
  refine filter_congr fun r hr => ?_
  by_cases hb : r.uploadBatchId = batchId
  · by_cases hk : r.logicalKey = k
    · simp [hcur r hr hb hk]
    · simp [hk]
  · simp [hb]

theorem not_current_of_currentRows (h : ∀ r ∈ currentRows k rows, r.uploadBatchId ≠ batchId) :
    ∀ r ∈ rows, r.uploadBatchId = batchId → r.logicalKey = k → r.isCurrent = false := by
  intro r hr hb hk
  cases hc : r.isCurrent with
  | false => rfl
  | true => exact absurd hb (h r (mem_currentRows.mpr ⟨hr, hk, hc⟩))

/-- The current row of a key survives the deletion of a batch that does not hold it, in every
    election, exactly when the batch has no row of the key or the current row leads among the
    rows that stay. -/
theorem currentRows_deleteRows_eq_iff (h : TableInv rows)
    (hcur : ∀ r ∈ rows, r.uploadBatchId = batchId → r.logicalKey = k → r.isCurrent = false) :
    (∀ elect, Elects versionRank elect →
      currentRows k (deleteRows elect batchId rows) = currentRows k rows) ↔
      (∀ r ∈ rows, r.uploadBatchId = batchId → r.logicalKey ≠ k) ∨
        CurrentLeads k (kept batchId rows) := by
  have hids := ids_kept h.ids batchId
  have hform : ∀ elect, Elects versionRank elect → ofKey k (deleteRows elect batchId rows) =
      if k ∈ deletedKeys batchId rows then
        (ofKey k (kept batchId rows)).map (restored elect (kept batchId rows))
      else ofKey k (kept batchId rows) := by
    intro elect he
    rw [deleteRows_eq he h.ids, ofKey_map (fun r _ => by split <;> rfl)]
    split
    · rename_i hk
      exact map_congr_left fun r hr => by rw [if_pos (by rw [(mem_ofKey.mp hr).2]; exact hk)]
    · rename_i hk
      refine (map_congr_left fun r hr => ?_).trans (map_id' _)
      rw [if_neg (by rw [(mem_ofKey.mp hr).2]; exact hk)]
  by_cases hk : k ∈ deletedKeys batchId rows
  · obtain ⟨r, hr, hb, hrk⟩ := (mem_deletedKeys h).mp hk
    have hno : ¬ ∀ r ∈ rows, r.uploadBatchId = batchId → r.logicalKey ≠ k :=
      fun hall => hall r hr hb hrk
    rw [or_iff_right hno, ← restored_eq_self_iff hids (oneCurrent_kept (h.keys k) hcur)]
    refine forall₂_congr fun elect he => ?_
    rw [← currentRows_kept hcur]
    unfold currentRows
    rw [hform elect he, if_pos hk]
    constructor
    · intro e r hr
      rw [restored_eq_self_iff_flag, ← decide_eq_true_iff (p := elected _ _ _ = _)]
      constructor
      · intro hc
        have hm : r ∈ (ofKey k (kept batchId rows)).filter (·.isCurrent) :=
          mem_filter.mpr ⟨hr, hc⟩
        rw [← e] at hm
        obtain ⟨hm, -⟩ := mem_filter.mp hm
        obtain ⟨s, hs, es⟩ := mem_map.mp hm
        have : s = r := eq_of_id hids (mem_ofKey.mp hs).1 (mem_ofKey.mp hr).1
          (show (restored elect (kept batchId rows) s).id = r.id by rw [es])
        rw [← es, this] at hc
        exact hc
      · intro hc
        have hm : restored elect (kept batchId rows) r ∈
            ((ofKey k (kept batchId rows)).map (restored elect (kept batchId rows))).filter
              (·.isCurrent) := mem_filter.mpr ⟨mem_map_of_mem hr, hc⟩
        rw [e] at hm
        obtain ⟨hm, hcc⟩ := mem_filter.mp hm
        have : restored elect (kept batchId rows) r = r :=
          eq_of_id hids (mem_ofKey.mp hm).1 (mem_ofKey.mp hr).1 rfl
        rwa [this] at hcc
    · intro hall
      rw [(map_congr_left fun r hr => hall r hr).trans (map_id' _)]
  · have hno : ∀ r ∈ rows, r.uploadBatchId = batchId → r.logicalKey ≠ k :=
      fun r hr hb hrk => hk ((mem_deletedKeys h).mpr ⟨r, hr, hb, hrk⟩)
    refine iff_of_true (fun elect he => ?_) (.inl hno)
    unfold currentRows
    rw [hform elect he, if_neg hk]
    exact currentRows_kept hcur

/-! ## 5. The store -/

variable {hash : RecordHash} {s : CoupangStore}

/-- The keys of a sales file. -/
def saleFileKeys (hash : RecordHash) (matchText : MatchText)
    (file : List (Stamp × ParsedCoupangSalesRowResult)) : List String :=
  (saleEntries hash matchText file).map (·.2.logicalKey)

/-- The keys of an ads file. -/
def adFileKeys (hash : RecordHash) (matchText : MatchText)
    (file : List (Stamp × CoupangAdsImportRow)) : List String :=
  (adEntries hash matchText file).map (·.2.logicalKey)

/-- A batch without rows in a table leaves the table alone. -/
theorem deleteRows_of_new (hnew : ∀ r ∈ rows, r.uploadBatchId ≠ batchId) :
    deleteRows elect batchId rows = rows := by
  have e : rows.filter (fun r => r.uploadBatchId = batchId) = [] :=
    filter_eq_nil_iff.mpr fun r hr => by simp [hnew r hr]
  have e' : rows.filter (fun r => r.uploadBatchId ≠ batchId) = rows :=
    filter_eq_self.mpr fun r hr => by simp [hnew r hr]
  unfold deleteRows
  rw [e, e']
  rfl

theorem deleteUpload_importSales_iff (h : StoreInv s) (matchText : MatchText) (policy : ConflictPolicy)
    {file : List (Stamp × ParsedCoupangSalesRowResult)} (hf : FreshStamps (file.map (·.1)) s.saleLines)
    (hnew : NewBatch batchId s) :
    (∀ electLine electMetric, Elects versionRank electLine → Elects versionRank electMetric →
      deleteUpload electLine electMetric batchId
        (importSalesXlsx hash matchText policy batchId file s) = s) ↔
      ∀ k ∈ saleFileKeys hash matchText file, CurrentLeads k s.saleLines := by
  rw [← stamps_saleEntries hash matchText] at hf
  rw [saleFileKeys, ← deleteRows_importRows_eq_iff h.saleLines
    "COUPANG_SALE_LINE_ALREADY_CURRENT" policy hf (isClean_saleEntries hash matchText file) hnew.saleLines]
  constructor
  · intro hall elect he
    exact congrArg CoupangStore.saleLines (hall elect _ he (elects_argmax versionRank))
  · intro hall electLine electMetric hLine _
    exact congrArg₂ CoupangStore.mk (hall electLine hLine) (deleteRows_of_new hnew.adMetrics)

theorem deleteUpload_importAds_iff (h : StoreInv s) (matchText : MatchText) (policy : ConflictPolicy)
    {file : List (Stamp × CoupangAdsImportRow)} (hf : FreshStamps (file.map (·.1)) s.adMetrics)
    (hnew : NewBatch batchId s) :
    (∀ electLine electMetric, Elects versionRank electLine → Elects versionRank electMetric →
      deleteUpload electLine electMetric batchId
        (importAdsXlsx hash matchText policy batchId file s) = s) ↔
      ∀ k ∈ adFileKeys hash matchText file, CurrentLeads k s.adMetrics := by
  rw [← stamps_adEntries hash matchText] at hf
  rw [adFileKeys, ← deleteRows_importRows_eq_iff h.adMetrics
    "COUPANG_AD_METRIC_ALREADY_CURRENT" policy hf (isClean_adEntries hash matchText file) hnew.adMetrics]
  constructor
  · intro hall elect he
    exact congrArg CoupangStore.adMetrics (hall _ elect (elects_argmax versionRank) he)
  · intro hall electLine electMetric _ hMetric
    exact congrArg₂ CoupangStore.mk (deleteRows_of_new hnew.saleLines) (hall electMetric hMetric)

/-- **When a deletion undoes an import.** From every reachable store, importing a file and
    deleting its batch gives the store back, whatever the database answers among equals,
    exactly when in the store before the import the current row of every key of the file
    outranks the other accepted rows of the key. A batch without the current row of a key can be
    deleted without changing that row exactly when it has no row of the key or the current row
    outranks the accepted rows that stay. -/
theorem deleteUpload_inverse_iff (h : Reachable hash s) :
    (∀ matchText policy batchId file, FreshStamps (file.map (·.1)) s.saleLines →
      NewBatch batchId s →
      ((∀ electLine electMetric, Elects versionRank electLine → Elects versionRank electMetric →
        deleteUpload electLine electMetric batchId
          (importSalesXlsx hash matchText policy batchId file s) = s) ↔
        ∀ k ∈ saleFileKeys hash matchText file, CurrentLeads k s.saleLines)) ∧
    (∀ matchText policy batchId file, FreshStamps (file.map (·.1)) s.adMetrics →
      NewBatch batchId s →
      ((∀ electLine electMetric, Elects versionRank electLine → Elects versionRank electMetric →
        deleteUpload electLine electMetric batchId
          (importAdsXlsx hash matchText policy batchId file s) = s) ↔
        ∀ k ∈ adFileKeys hash matchText file, CurrentLeads k s.adMetrics)) ∧
    (∀ batchId k, (∀ r ∈ currentRows k s.saleLines, r.uploadBatchId ≠ batchId) →
      ((∀ electLine electMetric, Elects versionRank electLine → Elects versionRank electMetric →
        currentRows k (deleteUpload electLine electMetric batchId s).saleLines =
          currentRows k s.saleLines) ↔
        (∀ r ∈ s.saleLines, r.uploadBatchId = batchId → r.logicalKey ≠ k) ∨
          CurrentLeads k (kept batchId s.saleLines))) ∧
    (∀ batchId k, (∀ r ∈ currentRows k s.adMetrics, r.uploadBatchId ≠ batchId) →
      ((∀ electLine electMetric, Elects versionRank electLine → Elects versionRank electMetric →
        currentRows k (deleteUpload electLine electMetric batchId s).adMetrics =
          currentRows k s.adMetrics) ↔
        (∀ r ∈ s.adMetrics, r.uploadBatchId = batchId → r.logicalKey ≠ k) ∨
          CurrentLeads k (kept batchId s.adMetrics))) := by
  have hinv := h.inv
  refine ⟨fun matchText policy batchId file hf hnew =>
      deleteUpload_importSales_iff hinv matchText policy hf hnew,
    fun matchText policy batchId file hf hnew =>
      deleteUpload_importAds_iff hinv matchText policy hf hnew, ?_, ?_⟩
  · intro batchId k hb
    rw [← currentRows_deleteRows_eq_iff hinv.saleLines (not_current_of_currentRows hb)]
    exact ⟨fun hall elect he => hall elect _ he (elects_argmax versionRank),
      fun hall electLine _ hLine _ => hall electLine hLine⟩
  · intro batchId k hb
    rw [← currentRows_deleteRows_eq_iff hinv.adMetrics (not_current_of_currentRows hb)]
    exact ⟨fun hall elect he => hall _ elect (elects_argmax versionRank) he,
      fun hall _ electMetric _ hMetric => hall electMetric hMetric⟩

/-- A second import of the sample row, skipped, can be undone. -/
theorem deleteUpload_inverse_importedOnce :
    deleteUpload (argmax versionRank) (argmax versionRank) 2
      (sampleImport .SKIP 2 importedOnce) = importedOnce := by
  have h := (deleteUpload_inverse_iff reachable_importedOnce).1 noMatch .SKIP 2
    [(⟨2, 2⟩, sampleSaleRow)] ⟨nodup_singleton _, by decide +kernel⟩
    ⟨by decide +kernel, by decide +kernel⟩
  exact h.mpr (by decide +kernel) _ _ (elects_argmax versionRank) (elects_argmax versionRank)

/-- **A skipped duplicate takes over**: the sample row is stored twice, the second time skipped;
    a third import of it, deleted at once, leaves the skipped row current. -/
theorem deleteUpload_not_inverse :
    ¬ ∀ (hash : RecordHash) (s : CoupangStore), Reachable hash s →
      ∀ (matchText : MatchText) (policy : ConflictPolicy) (batchId : Nat)
        (file : List (Stamp × ParsedCoupangSalesRowResult)),
        FreshStamps (file.map (·.1)) s.saleLines → NewBatch batchId s →
        ∀ electLine electMetric, Elects versionRank electLine → Elects versionRank electMetric →
          deleteUpload electLine electMetric batchId
            (importSalesXlsx hash matchText policy batchId file s) = s := by
  intro hall
  have h := hall zeroHash importedTwice reachable_importedTwice noMatch .SKIP 3
    [(⟨3, 3⟩, sampleSaleRow)] ⟨nodup_singleton _, by decide +kernel⟩
    ⟨by decide +kernel, by decide +kernel⟩ (argmax versionRank) (argmax versionRank)
    (elects_argmax versionRank) (elects_argmax versionRank)
  revert h
  decide +kernel

/-! ## 6. Several deletions -/

/-- The rows of the other batches; where a deleted row had their key, the election among them decides. -/
def deleteTogether (elect : List (StoredRow δ) → Option (StoredRow δ)) (batchIds : List Nat)
    (rows : List (StoredRow δ)) : List (StoredRow δ) :=
  let remaining := rows.filter fun r => r.uploadBatchId ∉ batchIds
  remaining.map fun r => { r with
    isCurrent :=
      if ∃ d ∈ rows, d.uploadBatchId ∈ batchIds ∧ d.logicalKey = r.logicalKey then
        decide (elected elect r.logicalKey remaining = some r.id)
      else r.isCurrent }

/-- An election does not read the flags. -/
theorem elected_flags (flag : StoredRow δ → Bool) (k : String) (l : List (StoredRow δ)) :
    elected elect k (l.map fun r => { r with isCurrent := flag r }) = elected elect k l := by
  unfold elected candidates
  rw [filter_map, map_map]
  rfl

variable {later : List (StoredRow δ) → Option (StoredRow δ)}

/-- Two elections, one for some keys and one for the others. -/
theorem elected_ite {P : String → Prop} [DecidablePred P] (he : Elects versionRank elect)
    (hl : Elects versionRank later) (k : String) (rows : List (StoredRow δ)) :
    elected (fun l => if ∃ c ∈ l, P c.logicalKey then later l else elect l) k rows =
      if P k then elected later k rows else elected elect k rows := by
  have hkey : ∀ c ∈ (candidates k rows).map StoredRow.clear, c.logicalKey = k := by
    intro c hc
    obtain ⟨r, hr, rfl⟩ := mem_map.mp hc
    exact (mem_candidates.mp hr).2.1
  unfold elected
  generalize (candidates k rows).map StoredRow.clear = l at hkey
  dsimp only
  by_cases hk : P k
  · cases l with
    | nil =>
      have hnone : ∀ {elect : List (StoredRow δ) → Option (StoredRow δ)}, Elects versionRank elect →
          elect [] = none := fun he => Option.eq_none_iff_forall_ne_some.mpr fun x hx =>
        not_mem_nil (he.top [] x hx).mem
      simp [hnone he, hnone hl]
    | cons c l =>
      have hc : ∃ d ∈ c :: l, P d.logicalKey := ⟨c, mem_cons_self, hkey c mem_cons_self ▸ hk⟩
      rw [if_pos hc, if_pos hk]
  · have hc : ¬ ∃ d ∈ l, P d.logicalKey := fun ⟨d, hd, hp⟩ => hk (hkey d hd ▸ hp)
    rw [if_neg hc, if_neg hk]

/-- A deletion before others: for a key that a later one hits again, the later election decides. -/
theorem deleteTogether_deleteRows (h : TableInv rows) (he : Elects versionRank elect)
    (hl : Elects versionRank later) (b : Nat) (batchIds : List Nat) :
    deleteTogether later batchIds (deleteRows elect b rows) =
      deleteTogether (fun l => if ∃ c ∈ l, ∃ d ∈ kept b rows, d.uploadBatchId ∈ batchIds ∧
        d.logicalKey = c.logicalKey then later l else elect l) (b :: batchIds) rows := by
  have hfirst : deleteRows elect b rows = (kept b rows).map fun r => { r with
      isCurrent := if r.logicalKey ∈ deletedKeys b rows then
        decide (elected elect r.logicalKey (kept b rows) = some r.id) else r.isCurrent } := by
    rw [deleteRows_eq he h.ids]
    exact map_congr_left fun r _ => by split <;> rfl
  have hremaining : (rows.filter fun r => r.uploadBatchId ∉ b :: batchIds) =
      (kept b rows).filter fun r => r.uploadBatchId ∉ batchIds := by
    unfold kept
    rw [filter_filter]
    exact filter_congr fun r _ => by simp [Bool.and_comm]
  rw [hfirst]
  unfold deleteTogether
  rw [filter_map, map_map, hremaining]
  refine map_congr_left fun r _ => congrArg (fun c : Bool => { r with isCurrent := c }) ?_
  -- the row's key is hit by the first deletion or by a later one
  have hhit : (∃ d ∈ rows, d.uploadBatchId ∈ b :: batchIds ∧ d.logicalKey = r.logicalKey) ↔
      r.logicalKey ∈ deletedKeys b rows ∨
        ∃ d ∈ kept b rows, d.uploadBatchId ∈ batchIds ∧ d.logicalKey = r.logicalKey := by
    rw [mem_deletedKeys h]
    grind [mem_kept]
  simp only [mem_map, exists_exists_and_eq_and, hhit, elected_ite (P := fun k => ∃ d ∈ kept b rows,
    d.uploadBatchId ∈ batchIds ∧ d.logicalKey = k) he hl]
  by_cases hlater : ∃ d ∈ kept b rows, d.uploadBatchId ∈ batchIds ∧ d.logicalKey = r.logicalKey
  · rw [if_pos hlater, if_pos (.inr hlater), if_pos hlater]
    exact congrArg (fun e => decide (e = some r.id)) (elected_flags _ _ _)
  · have hsame : ofKey r.logicalKey ((kept b rows).filter fun r => r.uploadBatchId ∉ batchIds) =
        ofKey r.logicalKey (kept b rows) := by
      unfold ofKey
      rw [filter_filter]
      exact filter_congr fun d hd => by grind
    rw [if_neg hlater, if_neg hlater, elected_congr hsame]
    simp only [hlater, or_false]

/-- Deletions one after the other; among equals the database chooses anew each time. -/
def Deletions : List Nat → List (StoredRow δ) → List (StoredRow δ) → Prop
  | [], rows, rows' => rows' = rows
  | b :: batchIds, rows, rows' =>
    ∃ elect, Elects versionRank elect ∧ Deletions batchIds (deleteRows elect b rows) rows'

/-- **Several deletions in closed form**: whatever the database has chosen each time, one election
    at the end does as well. -/
theorem deletions_iff (h : TableInv rows) (batchIds : List Nat) {rows' : List (StoredRow δ)} :
    Deletions batchIds rows rows' ↔
      ∃ elect, Elects versionRank elect ∧ rows' = deleteTogether elect batchIds rows := by
  induction batchIds generalizing rows with
  | nil =>
    have hnil : ∀ elect, deleteTogether elect [] rows = rows := fun _ => by simp [deleteTogether]
    simp only [Deletions, hnil]
    exact ⟨fun e => ⟨_, elects_argmax versionRank, e⟩, fun ⟨_, _, e⟩ => e⟩
  | cons b batchIds ih =>
    constructor
    · rintro ⟨elect, he, hd⟩
      obtain ⟨later, hl, rfl⟩ := (ih (h.deleteRows he b)).mp hd
      refine ⟨_, ⟨fun l x hx => ?_, fun l hne => ?_⟩, deleteTogether_deleteRows h he hl b batchIds⟩
      · split at hx
        · exact hl.top l x hx
        · exact he.top l x hx
      · split
        · exact hl.found l hne
        · exact he.found l hne
    · rintro ⟨elect, he, rfl⟩
      refine ⟨elect, he, (ih (h.deleteRows he b)).mpr ⟨elect, he, ?_⟩⟩
      rw [deleteTogether_deleteRows h he he]
      simp only [ite_self]

/-- `deleteUpload` for one batch after the other. -/
def DeletesUploads : List Nat → CoupangStore → CoupangStore → Prop
  | [], s, t => t = s
  | b :: batchIds, s, t =>
    ∃ electLine electMetric, Elects versionRank electLine ∧ Elects versionRank electMetric ∧
      DeletesUploads batchIds (deleteUpload electLine electMetric b s) t

theorem deletesUploads_iff (batchIds : List Nat) (s t : CoupangStore) :
    DeletesUploads batchIds s t ↔
      Deletions batchIds s.saleLines t.saleLines ∧ Deletions batchIds s.adMetrics t.adMetrics := by
  induction batchIds generalizing s with
  | nil =>
    constructor
    · rintro rfl
      exact ⟨rfl, rfl⟩
    · rintro ⟨hLine, hMetric⟩
      exact congrArg₂ CoupangStore.mk hLine hMetric
  | cons b batchIds ih =>
    constructor
    · rintro ⟨electLine, electMetric, hLine, hMetric, hd⟩
      obtain ⟨hl, hm⟩ := (ih _).mp hd
      exact ⟨⟨electLine, hLine, hl⟩, electMetric, hMetric, hm⟩
    · rintro ⟨⟨electLine, hLine, hl⟩, electMetric, hMetric, hm⟩
      exact ⟨electLine, electMetric, hLine, hMetric, (ih _).mpr ⟨hl, hm⟩⟩

/-- **Deletions commute.** Several of them, each with the database's own choice among equals, leave
    the rows of the other batches; a key that lost a row has its current row elected among these,
    and every other row keeps its flag. So what they can leave depends on the set of the batches
    alone, not on the order in which they run, nor on how often one is repeated. -/
theorem deletions_commute (h : Reachable hash s) (batchIds : List Nat) (t : CoupangStore) :
    (DeletesUploads batchIds s t ↔
      ∃ electLine electMetric, Elects versionRank electLine ∧ Elects versionRank electMetric ∧
        t = ⟨deleteTogether electLine batchIds s.saleLines,
          deleteTogether electMetric batchIds s.adMetrics⟩) ∧
    ∀ batchIds', (∀ b, b ∈ batchIds ↔ b ∈ batchIds') →
      (DeletesUploads batchIds s t ↔ DeletesUploads batchIds' s t) := by
  have hset : ∀ batchIds, DeletesUploads batchIds s t ↔
      ∃ electLine electMetric, Elects versionRank electLine ∧ Elects versionRank electMetric ∧
        t = ⟨deleteTogether electLine batchIds s.saleLines,
          deleteTogether electMetric batchIds s.adMetrics⟩ := by
    intro batchIds
    rw [deletesUploads_iff, deletions_iff h.inv.saleLines, deletions_iff h.inv.adMetrics]
    constructor
    · rintro ⟨⟨electLine, hLine, hl⟩, electMetric, hMetric, hm⟩
      exact ⟨electLine, electMetric, hLine, hMetric, congrArg₂ CoupangStore.mk hl hm⟩
    · rintro ⟨electLine, electMetric, hLine, hMetric, rfl⟩
      exact ⟨⟨electLine, hLine, rfl⟩, electMetric, hMetric, rfl⟩
  refine ⟨hset batchIds, fun batchIds' hsame => ?_⟩
  rw [hset, hset]
  simp only [deleteTogether, hsame]

/-- The sample row imported a third time. -/
def importedThrice : CoupangStore := sampleImport .OVERWRITE 3 importedTwice

/-- The first and the third batch deleted, in another order and one of them twice: the skipped row of
    the second is current. -/
theorem deletions_commute_importedThrice :
    let left := deleteTogether (argmax versionRank) [1, 3] importedThrice.saleLines
    left.map (fun r => (r.uploadBatchId, r.isCurrent)) = [(2, true)] ∧
      DeletesUploads [3, 1, 3] importedThrice ⟨left, []⟩ := by
  refine ⟨by decide +kernel, ?_⟩
  have hr : Reachable zeroHash importedThrice := reachable_importedTwice.step
    (sampleImport_step .OVERWRITE (by decide +kernel) (by decide +kernel) (by decide +kernel))
  have h := deletions_commute hr [1, 3]
    ⟨deleteTogether (argmax versionRank) [1, 3] importedThrice.saleLines, []⟩
  exact (h.2 [3, 1, 3] fun b => by simp only [mem_cons, not_mem_nil, or_false]; omega).mp
    (h.1.mpr ⟨_, _, elects_argmax versionRank, elects_argmax versionRank, rfl⟩)

end AdsManagement.Coupang
