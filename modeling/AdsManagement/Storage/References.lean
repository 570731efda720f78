/-
  File:      Storage/References.lean
  Subject:   THE NAMES OF STORED FILES: keys and references (storage-reference.ts) and the object
             names of Supabase (supabase-file-storage.ts).

  A record refers to a file by a provider and a key. The key is a path; the adapter of a domain
  puts its domain before it, and behind `trash/` where the key is one of the trash.

  * `normalizeStorageKey` -- the keys that are accepted, unchanged;
  * `storageReference`, `parseStorageReference` -- a reference and its parts;
  * `remoteKey` -- the name of the object of a key;
  * `parse_storageReference` -- a reference is parsed back;
  * `remoteKey_scoped` -- an object's name lies under one of four prefixes.
-/
import Mathlib.Data.List.Infix
import AdsManagement.Common.Patterns
import AdsManagement.Common.Text
import AdsManagement.Lib.Fallible
import AdsManagement.Lib.Separated

namespace AdsManagement.Storage

open Common Lib

/-- The errors of file-storage.ts, without their texts. -/
inductive StorageError where
  | InvalidStorageKeyError
  | StorageObjectNotFoundError
  | StorageIntegrityError
  | StorageObjectTooLargeError
  | StorageAccessDeniedError
  | StorageProviderUnavailableError
  | StorageProviderRequestError
deriving DecidableEq

/-! ## 1. Keys -/

/-- The segments of a path with `.` and `..` resolved. -/
def normalizeSegments (allowAboveRoot : Bool) (segments : List (List Char)) : List (List Char) :=
  segments.foldl (fun done segment =>
    if segment = [] ∨ segment = ['.'] then done
    else if segment = ['.', '.'] then
      match done.getLast? with
      | none => if allowAboveRoot then [segment] else []
      | some last =>
        if last ≠ ['.', '.'] then done.dropLast
        else if allowAboveRoot then done ++ [segment] else done
    else done ++ [segment]) []

/-- `path.posix.normalize`. -/
def posixNormalize (path : List Char) : List Char :=
  if path = [] then ['.']
  else
    let isAbsolute : Bool := path.head? = some '/'
    let trailingSeparator : Bool := path.getLast? = some '/'
    let body := join '/' (normalizeSegments (!isAbsolute) (path.splitOn '/'))
    if body = [] then
      if isAbsolute then ['/'] else if trailingSeparator then ['.', '/'] else ['.']
    else
      let body := if trailingSeparator then body ++ ['/'] else body
      if isAbsolute then '/' :: body else body

/-- `[\u0000-\u001f\u007f]`. -/
def isControlChar (c : Char) : Bool := c.toNat ≤ 0x1f || c.toNat = 0x7f

/-- `^(?:con|prn|aux|nul|clock\$|conin\$|conout\$|com[1-9]|lpt[1-9])(?:\.|$)` in either case. -/
def isReservedName (segment : List Char) : Bool :=
  let stem := (segment.takeWhile (· ≠ '.')).map Char.toLower
  ["con", "prn", "aux", "nul", "clock$", "conin$", "conout$"].any (·.toList = stem) ||
    ["com", "lpt"].any fun port => stem.length = 4 && port.toList.isPrefixOf stem &&
      (stem.getLast?.any fun c => '1' ≤ c && c ≤ '9')

def isForbiddenSegment (segment : List Char) : Bool :=
  segment = [] || segment = ['.'] || segment = ['.', '.'] ||
    (segment.getLast?.any fun c => c = '.' || c = ' ') || isReservedName segment

def normalizeStorageKey (key : String) : Except StorageError String :=
  let chars := key.toList
  if key = "" || 1024 < utf16Length chars || chars.contains '\x00' || chars.contains '\\' ||
      chars.contains ':' || chars.any isControlChar || chars.head? = some '/' then
    .error .InvalidStorageKeyError
  else
    let normalized := posixNormalize chars
    if normalized = ['.'] || normalized = ['.', '.'] || ['.', '.', '/'].isPrefixOf normalized ||
        normalized ≠ chars || (normalized.splitOn '/').any isForbiddenSegment then
      .error .InvalidStorageKeyError
    else .ok key

/-! ## 2. References -/

structure StorageReference where
  provider : String
  key : String

/-- `^[a-z][a-z0-9-]{0,31}$`. -/
def isProviderName (provider : List Char) : Bool :=
  (provider.head?.any fun c => 'a' ≤ c && c ≤ 'z') && provider.length ≤ 32 &&
    provider.all fun c => ('a' ≤ c && c ≤ 'z') || c.isDigit || c = '-'

def storageReference (provider key : String) : Except StorageError String :=
  if !isProviderName provider.toList then .error .InvalidStorageKeyError
  else (normalizeStorageKey key).map fun key => provider ++ ":" ++ key

/-- `^([a-z][a-z0-9-]{0,31}):(.+)$`; a provider has no colon, so the first one ends it. -/
def referenceParts (value : List Char) : Option (List Char × List Char) :=
  let provider := value.takeWhile (· ≠ ':')
  match value.dropWhile (· ≠ ':') with
  | ':' :: key =>
    if isProviderName provider && key ≠ [] && !key.any isLineTerminator then some (provider, key) else none
  | _ => none

def parseStorageReference (value : String) : Except StorageError (Option StorageReference) :=
  match referenceParts value.toList with
  | none => .ok none
  | some (provider, key) =>
    (normalizeStorageKey (String.ofList key)).map fun key => some ⟨String.ofList provider, key⟩

/-! ## 3. Objects -/

inductive SupabaseStorageDomain where
  | uploads
  | reports
deriving DecidableEq

def SupabaseStorageDomain.text : SupabaseStorageDomain → String
  | .uploads => "uploads"
  | .reports => "reports"

/-- `^[0-9a-f]{8}-[0-9a-f-]{27}$` in either case. -/
def isTrashId (trashId : List Char) : Bool :=
  trashId.length = 36 && (trashId.take 8).all isHex && trashId[8]? = some '-' &&
    (trashId.drop 9).all fun c => isHex c || c = '-'

def trashPrefix : List Char := "trash/".toList

def remoteKey (domain : SupabaseStorageDomain) (key : String) : Except StorageError String := do
  let normalized ← normalizeStorageKey key
  if trashPrefix.isPrefixOf normalized.toList then
    let trashId := normalized.toList.drop trashPrefix.length
    if !isTrashId trashId || trashId.contains '/' then .error .StorageProviderRequestError
    else return "trash/" ++ domain.text ++ "/" ++ String.ofList trashId
  else return domain.text ++ "/" ++ normalized

/-! ## 4. What the names say -/

theorem normalizeStorageKey_eq_ok {key k : String} (h : normalizeStorageKey key = .ok k) :
    k = key ∧ key ≠ "" ∧ ':' ∉ key.toList ∧ (∀ c ∈ key.toList, isControlChar c = false) ∧
      ∀ segment ∈ key.toList.splitOn '/', isForbiddenSegment segment = false := by
  unfold normalizeStorageKey at h
  dsimp only at h
  split at h
  · exact (nomatch h)
  · rename_i h1
    split at h
    · exact (nomatch h)
    · rename_i h2
      cases h
      simp only [Bool.or_eq_true, decide_eq_true_eq, List.contains_iff_mem, not_or,
        Bool.not_eq_true, List.any_eq_false, not_not] at h1 h2
      refine ⟨rfl, h1.1.1.1.1.1.1, h1.1.1.2, h1.1.2, fun segment hs => ?_⟩
      rw [← h2.1.2] at hs
      exact h2.2 segment hs

theorem colon_notMem_of_isProviderName {provider : List Char} (h : isProviderName provider = true) :
    ':' ∉ provider := by
  intro hmem
  unfold isProviderName at h
  rw [Bool.and_eq_true, List.all_eq_true] at h
  have := h.2 _ hmem
  revert this
  decide

section

variable {provider key value : String} (h : storageReference provider key = .ok value)
include h

/-- A reference is cut at the colon between the provider and an accepted key. -/
theorem storageReference_eq_ok : normalizeStorageKey key = .ok key ∧ referenceParts value.toList =
      if key.toList.any isLineTerminator = true then none else some (provider.toList, key.toList) := by
  unfold storageReference at h
  split at h
  · exact (nomatch h)
  · rename_i hp
    have hname : isProviderName provider.toList = true := by simpa using hp
    obtain ⟨k, hk, rfl⟩ := map_eq_ok.mp h
    obtain ⟨rfl, hne, -, -, -⟩ := normalizeStorageKey_eq_ok hk
    have hall : ∀ c ∈ provider.toList, decide (c ≠ ':') = true := fun c hc =>
      decide_eq_true fun h => colon_notMem_of_isProviderName hname (h ▸ hc)
    have hchars : (provider ++ ":" ++ k).toList = provider.toList ++ ':' :: k.toList := by simp
    have hempty : k.toList ≠ [] := fun h => hne (String.toList_inj.mp h)
    refine ⟨hk, ?_⟩
    unfold referenceParts
    rw [hchars, List.takeWhile_append_of_pos hall, List.dropWhile_append_of_pos hall]
    cases hline : k.toList.any isLineTerminator <;> simp [hname, hline, hempty]

/-- **A reference is parsed back**, unless the key holds a separator of lines or paragraphs. -/
theorem parse_storageReference (hline : key.toList.any isLineTerminator = false) :
    parseStorageReference value = .ok (some ⟨provider, key⟩) := by
  obtain ⟨hk, hparts⟩ := storageReference_eq_ok h
  rw [hline] at hparts
  unfold parseStorageReference
  rw [hparts, if_neg Bool.false_ne_true]
  simp only [String.ofList_toList, hk]
  rfl

end

/-- The prefixes that the objects of the application have. -/
def applicationPrefixes : List String := ["uploads/", "reports/", "trash/uploads/", "trash/reports/"]

def InApplicationScope (name : String) : Prop := ∃ p ∈ applicationPrefixes, p.toList <+: name.toList

instance (name : String) : Decidable (InApplicationScope name) :=
  inferInstanceAs (Decidable (∃ p ∈ applicationPrefixes, p.toList <+: name.toList))

/-- **The name of an object lies under one of the prefixes.** -/
theorem remoteKey_scoped {domain : SupabaseStorageDomain} {key name : String}
    (h : remoteKey domain key = .ok name) : InApplicationScope name := by
  unfold remoteKey at h
  cases hk : normalizeStorageKey key with
  | error e => rw [hk] at h; cases h
  | ok k =>
    rw [hk] at h
    change (if trashPrefix.isPrefixOf k.toList then _ else _) = _ at h
    split at h
    · split at h
      · exact (nomatch h)
      · cases h
        cases domain with
        | uploads => exact ⟨"trash/uploads/", by decide, ⟨k.toList.drop 6, by simp [SupabaseStorageDomain.text, trashPrefix]⟩⟩
        | reports => exact ⟨"trash/reports/", by decide, ⟨k.toList.drop 6, by simp [SupabaseStorageDomain.text, trashPrefix]⟩⟩
    · cases h
      cases domain with
      | uploads => exact ⟨"uploads/", by decide, ⟨k.toList, by simp [SupabaseStorageDomain.text]⟩⟩
      | reports => exact ⟨"reports/", by decide, ⟨k.toList, by simp [SupabaseStorageDomain.text]⟩⟩

end AdsManagement.Storage
