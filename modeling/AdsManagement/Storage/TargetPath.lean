/-
  File:      Storage/TargetPath.lean
  Subject:   WHERE A STORED FILE LIES (safeTargetPath of local-file-storage.ts over
             storage-reference.ts).

  The local adapter joins a key to its root segment by segment. A key that is accepted has only
  plain segments, so the join keeps them all (`pathResolve_key`).

  * `pathResolve`, `pathRelative`, `safeTargetPath` -- the path of a key;
  * `StaysInside` -- what an accepted key says about its path;
  * `references_sound_iff` -- every accepted key stays inside, and its reference is read back if
    and only if the key holds no separator of lines or paragraphs: `.` does not match those two,
    and `normalizeStorageKey` accepts them.
-/
import AdsManagement.Storage.References

namespace AdsManagement.Storage

open Common Lib List

/-! ## 1. Paths -/

/-- `path.posix.resolve(...paths)` of a process that works in `cwd`. -/
def pathResolve (cwd : List Char) (paths : List (List Char)) : List Char :=
  let (resolvedPath, resolvedAbsolute) := (cwd :: paths).foldr
    (fun path (done : List Char × Bool) =>
      if done.2 || path = [] then done else (path ++ '/' :: done.1, path.head? = some '/')) ([], false)
  let body := join '/' (normalizeSegments (!resolvedAbsolute) (resolvedPath.splitOn '/'))
  if resolvedAbsolute then '/' :: body else if body = [] then ['.'] else body

/-- The way from one list of segments to another. -/
def relativeSegments : List (List Char) → List (List Char) → List (List Char)
  | a :: start, b :: target =>
    if a = b then relativeSegments start target
    else replicate (start.length + 1) ['.', '.'] ++ b :: target
  | start, target => replicate start.length ['.', '.'] ++ target

/-- `path.posix.relative(start, target)`. -/
def pathRelative (cwd start target : List Char) : List Char :=
  let segments (path : List Char) := ((pathResolve cwd [path]).splitOn '/').filter (· ≠ [])
  join '/' (relativeSegments (segments start) (segments target))

/-- The path of a key below the root of the adapter, before the file system is asked. -/
def safeTargetPath (cwd rootPath : List Char) (key : String) : Except StorageError (List Char) :=
  let targetPath := pathResolve cwd (rootPath :: key.toList.splitOn '/')
  let relative := pathRelative cwd rootPath targetPath
  if relative = [] || relative = ['.', '.'] || ['.', '.', '/'].isPrefixOf relative ||
      relative.head? = some '/' then
    .error .InvalidStorageKeyError
  else .ok targetPath

/-! ## 2. Plain segments -/

/-- A segment that stands for itself in a path. -/
structure Plain (segment : List Char) : Prop where
  nonempty : segment ≠ []
  dot : segment ≠ ['.']
  dots : segment ≠ ['.', '.']
  slash : '/' ∉ segment

/-- The absolute path of plain segments. -/
def pathOf (segments : List (List Char)) : List Char := '/' :: join '/' segments

/-- A path that goes on below another one, by plain segments. -/
def StrictlyBelow (path directory : List Char) : Prop :=
  ∃ front rest : List (List Char), (∀ s ∈ front ++ rest, Plain s) ∧ rest ≠ [] ∧
    directory = pathOf front ∧ path = pathOf (front ++ rest)

variable {segments rest : List (List Char)} {key key' k : String} {cwd root : List Char}

theorem normalizeSegments_append (hplain : ∀ s ∈ rest, Plain s) (above : Bool) :
    normalizeSegments above (segments ++ rest ++ [[]]) = normalizeSegments above segments ++ rest := by
  unfold normalizeSegments
  rw [append_assoc, foldl_append]
  generalize segments.foldl _ [] = done
  induction rest generalizing done with
  | nil => simp
  | cons s rest ih =>
    have hs : Plain s := hplain s mem_cons_self
    rw [cons_append, foldl_cons, if_neg (by simp [hs.nonempty, hs.dot]), if_neg hs.dots,
      ih (fun t ht => hplain t (mem_cons_of_mem _ ht)), append_assoc]
    rfl

theorem notMem_splitOn {l s : List Char} (h : s ∈ l.splitOn '/') : '/' ∉ s := by
  induction l generalizing s with
  | nil =>
    rw [splitOn_nil, mem_singleton] at h
    simp [h]
  | cons c l ih =>
    obtain ⟨head, tail, hl⟩ := exists_cons_of_ne_nil (splitOn_ne_nil '/' l)
    rw [splitOn_cons_eq_if_modifyHead] at h
    split at h
    · rcases mem_cons.mp h with rfl | h
      · exact not_mem_nil
      · exact ih h
    · rename_i hc
      rw [hl] at h ih
      rcases mem_cons.mp h with rfl | h
      · intro hs
        rcases mem_cons.mp hs with e | hs
        · exact hc (by rw [← e]; rfl)
        · exact ih mem_cons_self hs
      · exact ih (mem_cons_of_mem _ h)

/-- Below the root of the file system only plain segments stay. -/
theorem plain_normalizeSegments (hslash : ∀ s ∈ segments, '/' ∉ s) :
    ∀ s ∈ normalizeSegments false segments, Plain s := by
  unfold normalizeSegments
  suffices h : ∀ done : List (List Char), (∀ s ∈ done, Plain s) →
      ∀ s ∈ segments.foldl _ done, Plain s from h [] (fun _ hs => absurd hs not_mem_nil)
  induction segments with
  | nil => exact fun _ h => h
  | cons t segments ih =>
    intro done hdone
    refine ih (fun s hs => hslash s (mem_cons_of_mem _ hs)) _ ?_
    simp only [Bool.false_eq_true, if_false]
    split
    · exact hdone
    · rename_i hempty
      split
      · split
        · exact fun _ hs => absurd hs not_mem_nil
        · split
          · exact fun s hs => hdone s (dropLast_subset _ hs)
          · exact hdone
      · rename_i hdots
        intro s hs
        rcases mem_append.mp hs with hs | hs
        · exact hdone s hs
        · rw [mem_singleton.mp hs]
          exact ⟨fun e => hempty (.inl e), fun e => hempty (.inr e), hdots,
            hslash t mem_cons_self⟩

theorem splitOn_join_plain (hplain : ∀ s ∈ segments, Plain s) (hne : segments ≠ []) :
    (join '/' segments).splitOn '/' = segments := by
  rw [splitOn_join hne, pieces_of_not_mem fun s hs => (hplain s hs).slash]

theorem splitOn_slash (l : List Char) : ('/' :: l).splitOn '/' = [] :: l.splitOn '/' := by
  rw [splitOn_cons_eq_if_modifyHead]
  rfl

theorem filter_splitOn_pathOf (hplain : ∀ s ∈ segments, Plain s) :
    ((pathOf segments).splitOn '/').filter (· ≠ []) = segments := by
  unfold pathOf
  rw [splitOn_slash]
  cases hs : segments with
  | nil => rfl
  | cons s rest =>
    rw [← hs, splitOn_join_plain hplain (by rw [hs]; exact cons_ne_nil _ _),
      filter_cons_of_neg (by simp), filter_eq_self.mpr]
    exact fun t ht => decide_eq_true (hplain t ht).nonempty

/-! ## 3. Resolved paths -/

/-- What a root stands for in a process that works in `cwd`. -/
def basePath (cwd root : List Char) : List Char :=
  if root = [] then cwd else if root.head? = some '/' then root else cwd ++ '/' :: root

/-- The segments of a resolved root. -/
def rootSegments (cwd root : List Char) : List (List Char) :=
  normalizeSegments false ((basePath cwd root).splitOn '/')

theorem plain_rootSegments : ∀ s ∈ rootSegments cwd root, Plain s :=
  plain_normalizeSegments fun _ hs => notMem_splitOn hs

theorem foldr_plain (hplain : ∀ s ∈ rest, Plain s) :
    rest.foldr (fun path (done : List Char × Bool) =>
      if done.2 || path = [] then done else (path ++ '/' :: done.1, path.head? = some '/')) ([], false) =
    (rest.flatMap (· ++ ['/']), false) := by
  induction rest with
  | nil => rfl
  | cons s rest ih =>
    have hs : Plain s := hplain s mem_cons_self
    have hhead : s.head? ≠ some '/' := fun e => hs.slash (mem_of_head? e)
    rw [foldr_cons, ih fun t ht => hplain t (mem_cons_of_mem _ ht)]
    simp [hs.nonempty, hhead]

theorem splitOn_flatMap (hplain : ∀ s ∈ rest, Plain s) :
    (rest.flatMap (· ++ ['/'])).splitOn '/' = rest ++ [[]] := by
  induction rest with
  | nil => rfl
  | cons s rest ih =>
    rw [flatMap_cons, append_assoc, singleton_append, splitOn_append_cons_self,
      splitOn_eq_singleton (hplain s mem_cons_self).slash,
      ih fun t ht => hplain t (mem_cons_of_mem _ ht)]
    rfl

/-- **Plain segments are kept below the root they are joined to.** -/
theorem pathResolve_plain (hcwd : cwd.head? = some '/') (hplain : ∀ s ∈ rest, Plain s) :
    pathResolve cwd (root :: rest) = pathOf (rootSegments cwd root ++ rest) := by
  have hfold : (cwd :: root :: rest).foldr
      (fun path (done : List Char × Bool) =>
        if done.2 || path = [] then done else (path ++ '/' :: done.1, path.head? = some '/')) ([], false) =
      (basePath cwd root ++ '/' :: rest.flatMap (· ++ ['/']), true) := by
    have hne : cwd ≠ [] := fun e => by rw [e] at hcwd; cases hcwd
    rw [foldr_cons, foldr_cons, foldr_plain hplain]
    unfold basePath
    by_cases hroot : root = []
    · simp [hroot, hne, hcwd]
    · by_cases habs : root.head? = some '/'
      · simp [hroot, habs]
      · simp [hroot, habs, hne, hcwd]
  unfold pathResolve
  rw [hfold]
  simp only [Bool.not_true, if_true]
  rw [splitOn_append_cons_self, splitOn_flatMap hplain, ← append_assoc,
    normalizeSegments_append hplain]
  rfl

theorem pathResolve_root (hcwd : cwd.head? = some '/') :
    pathResolve cwd [root] = pathOf (rootSegments cwd root) := by
  rw [pathResolve_plain hcwd (fun _ hs => absurd hs not_mem_nil), append_nil]

/-- A resolved path is resolved to itself. -/
theorem rootSegments_pathOf (hplain : ∀ s ∈ segments, Plain s) :
    rootSegments cwd (pathOf segments) = segments := by
  have hbase : basePath cwd (pathOf segments) = '/' :: join '/' segments := rfl
  unfold rootSegments
  rw [hbase, splitOn_slash]
  by_cases hne : segments = []
  · rw [hne]
    rfl
  · have h := @normalizeSegments_append [[]] segments hplain false
    unfold normalizeSegments at h ⊢
    rw [foldl_append] at h
    rw [splitOn_join_plain hplain hne]
    exact h

theorem relativeSegments_append (front : List (List Char)) (rest : List (List Char)) :
    relativeSegments front (front ++ rest) = rest := by
  induction front with
  | nil => cases rest <;> rfl
  | cons s front ih =>
    rw [cons_append, relativeSegments, if_pos rfl, ih]

/-! ## 4. Accepted keys -/

theorem plain_segments (h : normalizeStorageKey key = .ok k) : ∀ s ∈ key.toList.splitOn '/', Plain s := by
  obtain ⟨-, -, -, -, hsegments⟩ := normalizeStorageKey_eq_ok h
  intro s hs
  have := hsegments s hs
  unfold isForbiddenSegment at this
  simp only [Bool.or_eq_false_iff, decide_eq_false_iff_not] at this
  exact ⟨this.1.1.1.1, this.1.1.1.2, this.1.1.2, notMem_splitOn hs⟩

theorem pathResolve_key (h : normalizeStorageKey key = .ok k) (hcwd : cwd.head? = some '/') :
    pathResolve cwd (root :: key.toList.splitOn '/') =
      pathOf (rootSegments cwd root ++ key.toList.splitOn '/') :=
  pathResolve_plain hcwd (plain_segments h)

/-- What an accepted key says: it is its own normal form, its segments are plain, its path lies
    strictly below any root, and no other accepted key has the same path there. -/
structure StaysInside (key : String) : Prop where
  fixed : normalizeStorageKey key = .ok key
  segments : ∀ s ∈ key.toList.splitOn '/', s ≠ [] ∧ s ≠ ['.'] ∧ s ≠ ['.', '.']
  below : ∀ cwd root : List Char, cwd.head? = some '/' →
    StrictlyBelow (pathResolve cwd (root :: key.toList.splitOn '/')) (pathResolve cwd [root])
  safe : ∀ cwd root : List Char, cwd.head? = some '/' →
    safeTargetPath cwd (pathResolve cwd [root]) key = .ok (pathResolve cwd (root :: key.toList.splitOn '/'))
  distinct : ∀ key' k', normalizeStorageKey key' = .ok k' → ∀ cwd root : List Char, cwd.head? = some '/' →
    pathResolve cwd (root :: key.toList.splitOn '/') = pathResolve cwd (root :: key'.toList.splitOn '/') →
    key = key'

theorem safeTargetPath_key (h : normalizeStorageKey key = .ok k) (hcwd : cwd.head? = some '/') :
    safeTargetPath cwd (pathResolve cwd [root]) key =
      .ok (pathResolve cwd (root :: key.toList.splitOn '/')) := by
  have hplain := plain_segments h
  have hall : ∀ s ∈ rootSegments cwd root ++ key.toList.splitOn '/', Plain s := by
    intro s hs
    rcases mem_append.mp hs with hs | hs
    · exact plain_rootSegments s hs
    · exact hplain s hs
  have htarget : pathResolve cwd (pathResolve cwd [root] :: key.toList.splitOn '/') =
      pathOf (rootSegments cwd root ++ key.toList.splitOn '/') := by
    rw [pathResolve_key h hcwd, pathResolve_root hcwd, rootSegments_pathOf plain_rootSegments]
  have hrelative : pathRelative cwd (pathResolve cwd [root])
      (pathOf (rootSegments cwd root ++ key.toList.splitOn '/')) = key.toList := by
    unfold pathRelative
    simp only [pathResolve_root hcwd, rootSegments_pathOf hall, rootSegments_pathOf plain_rootSegments]
    rw [filter_splitOn_pathOf hall, filter_splitOn_pathOf plain_rootSegments, relativeSegments_append]
    exact intercalate_splitOn '/'
  -- the key has no segment `..`, so the relative path does not leave the root
  have hdots : ∀ rest, key.toList ≠ '.' :: '.' :: '/' :: rest := by
    intro rest e
    refine (hplain ['.', '.'] ?_).dots rfl
    rw [e, show '.' :: '.' :: '/' :: rest = ['.', '.'] ++ '/' :: rest from rfl,
      splitOn_append_cons_self]
    exact mem_append_left _ (by decide)
  have hlone : key.toList ≠ ['.', '.'] := fun e => (hplain ['.', '.'] (by rw [e]; decide)).dots rfl
  have hempty : key.toList ≠ [] := fun e => (hplain [] (by rw [e]; decide)).nonempty rfl
  have habsolute : key.toList.head? ≠ some '/' := by
    intro e
    obtain ⟨rest, hrest⟩ := head?_eq_some_iff.mp e
    refine (hplain [] ?_).nonempty rfl
    rw [hrest, splitOn_slash]
    exact mem_cons_self
  unfold safeTargetPath
  simp only [htarget, hrelative]
  rw [if_neg, pathResolve_key h hcwd]
  simp only [Bool.or_eq_true, decide_eq_true_eq, not_or]
  refine ⟨⟨⟨hempty, hlone⟩, fun hp => ?_⟩, habsolute⟩
  obtain ⟨rest, hrest⟩ := isPrefixOf_iff_prefix.mp hp
  exact hdots rest hrest.symm

theorem staysInside (h : normalizeStorageKey key = .ok k) : StaysInside key where
  fixed := by rw [h, (normalizeStorageKey_eq_ok h).1]
  segments := fun s hs => ⟨(plain_segments h s hs).nonempty, (plain_segments h s hs).dot,
    (plain_segments h s hs).dots⟩
  below := by
    intro cwd root hcwd
    refine ⟨rootSegments cwd root, key.toList.splitOn '/', ?_, splitOn_ne_nil _ _,
      pathResolve_root hcwd, pathResolve_key h hcwd⟩
    intro s hs
    rcases mem_append.mp hs with hs | hs
    · exact plain_rootSegments s hs
    · exact plain_segments h s hs
  safe := fun _ _ hcwd => safeTargetPath_key h hcwd
  distinct := by
    intro key' k' h' cwd root hcwd e
    rw [pathResolve_key h hcwd, pathResolve_key h' hcwd] at e
    have hsegs := congrArg (fun path => (splitOn '/' path).filter (· ≠ [])) e
    have hall : ∀ {key k : String}, normalizeStorageKey key = .ok k →
        ∀ s ∈ rootSegments cwd root ++ key.toList.splitOn '/', Plain s := by
      intro key k h s hs
      rcases mem_append.mp hs with hs | hs
      · exact plain_rootSegments s hs
      · exact plain_segments h s hs
    simp only [filter_splitOn_pathOf (hall h), filter_splitOn_pathOf (hall h')] at hsegs
    exact String.toList_inj.mp (splitOn_inj (append_cancel_left hsegs))

/-- A reference whose key holds a character that `.` does not match is taken for no reference. -/
theorem parse_storageReference_separator {provider value : String}
    (h : storageReference provider key = .ok value) (hline : key.toList.any isLineTerminator = true) :
    parseStorageReference value = .ok none := by
  have hparts := (storageReference_eq_ok h).2
  rw [hline] at hparts
  unfold parseStorageReference
  rw [hparts]
  rfl

/-- Of the characters that `.` does not match, an accepted key can hold two. -/
theorem any_isLineTerminator (h : normalizeStorageKey key = .ok k) :
    key.toList.any isLineTerminator = false ↔ ∀ c ∈ key.toList, c.toNat ≠ 0x2028 ∧ c.toNat ≠ 0x2029 := by
  obtain ⟨-, -, -, hcontrol, -⟩ := normalizeStorageKey_eq_ok h
  rw [any_eq_false]
  refine forall₂_congr fun c hc => ?_
  have hplain : c.toNat ≠ 10 ∧ c.toNat ≠ 13 := by
    have := hcontrol _ hc
    simp only [isControlChar, Bool.or_eq_false_iff, decide_eq_false_iff_not] at this
    omega
  simp [isLineTerminator, hplain.1, hplain.2]

/-- **Every accepted key stays inside; its reference is read back if and only if it holds neither
    U+2028 nor U+2029.** -/
theorem references_sound_iff (provider key : String) :
    (∀ k, normalizeStorageKey key = .ok k → StaysInside key) ∧
    ∀ value, storageReference provider key = .ok value →
      (parseStorageReference value = .ok (some ⟨provider, key⟩) ↔
        ∀ c ∈ key.toList, c.toNat ≠ 0x2028 ∧ c.toNat ≠ 0x2029) := by
  refine ⟨fun k => staysInside, fun value h => ?_⟩
  obtain ⟨k, hk⟩ : ∃ k, normalizeStorageKey key = .ok k := by
    unfold storageReference at h
    split at h
    · exact (nomatch h)
    · cases hk : normalizeStorageKey key with
      | error e => rw [hk] at h; cases h
      | ok k => exact ⟨k, rfl⟩
  rw [← any_isLineTerminator hk]
  constructor
  · intro hparse
    by_contra hline
    rw [parse_storageReference_separator h (Bool.of_not_eq_false hline)] at hparse
    cases hparse
  · exact parse_storageReference h

/-- A name with a separator of lines is accepted, and its reference reads as no reference. -/
theorem reference_lost : ¬ ∀ provider key value : String, storageReference provider key = .ok value →
    parseStorageReference value = .ok (some ⟨provider, key⟩) := by
  intro h
  have haccepted : storageReference "local" "a\u2028b" = .ok "local:a\u2028b" := by decide
  have hread := h _ _ _ haccepted
  rw [parse_storageReference_separator haccepted (by decide)] at hread
  cases hread

end AdsManagement.Storage
