/-
  File:      Storage/TombstoneSafety.lean
  Subject:   RETAINED FILES ARE NOT LOST: a copy is deleted only after the other one has been
             inspected under the fence, or by a purge.

  Until a transaction runs into its limit, whoever has the fence is the only one to delete. A call
  outside it can only fill a key that is empty, so what the holder has inspected stays as it is
  until the holder itself deletes. What the row says needs no such condition: a transaction that
  has lost the fence does not commit.

  * `PhaseOk` -- what a call may rely on where it stands;
  * `TombstoneInv` -- the invariant; one lemma each for a move, a publication, a deletion and a
    write of the row;
  * `retained_files_kept` -- over every reachable world; `purge_or_expiry_loses_copies` -- the two
    ways in which a row that is not purged can be left without a copy.
-/
import AdsManagement.Storage.Tombstones

namespace AdsManagement.Storage

open Function

variable {π : Type}

/-! ## 1. The invariant -/

/-- The object a call works with, once it has one. -/
def TombstonePhase.object : TombstonePhase → Option StoredObject
  | .locking (.retain expected) => some expected
  | .locking (.reconcile expected) => some expected
  | .reading (.retain expected) => some expected
  | .reading (.reconcile expected) => some expected
  | .checkingTarget _ object => some object
  | .inspectingTarget _ object => some object
  | .readingSource _ object => some object
  | .putting _ object => some object
  | .verifying _ object => some object
  | .deletingSource _ object => some object
  | .checkingSource _ object => some object
  | .inspectingAgain object => some object
  | .committing _ object => some object
  | .findingRecord object => some object
  | .purgeFindingOriginal object => some object
  | .purgeFindingTrash object _ => some object
  | .purgeInspectingOriginal object _ _ => some object
  | .purgeInspectingTrash object _ _ => some object
  | .purgeDeletingOriginal object _ _ => some object
  | .purgeDeletingTrash object _ => some object
  | .purgeConfirmingOriginal object => some object
  | .purgeConfirmingTrash object => some object
  | .purgeCommitting object => some object
  | _ => none

/-- The purge has passed its checks: the row is retained, as long as the purge has the fence, and the
    batch of an upload is gone. -/
def PurgeAllowed (w : TombstoneWorld π) (held : Prop) : Prop :=
  ∃ row, w.row = some row ∧ (held → row.state = .RETAINED) ∧
    (row.domain = .META_UPLOAD → w.recordPresent = false)

/-- The purge has passed its checks. -/
def TombstonePhase.purging : TombstonePhase → Bool
  | .purgeFindingOriginal _ => true
  | .purgeFindingTrash _ _ => true
  | .purgeInspectingOriginal _ _ _ => true
  | .purgeInspectingTrash _ _ _ => true
  | .purgeDeletingOriginal _ _ _ => true
  | .purgeDeletingTrash _ _ => true
  | .purgeConfirmingOriginal _ => true
  | .purgeConfirmingTrash _ => true
  | .purgeCommitting _ => true
  | _ => false

/-- The key a call has inspected and relies on. -/
def TombstonePhase.inspected : TombstonePhase → Option (ObjectKey × StoredObject)
  | .deletingSource job object => some (job.target, object)
  | .checkingSource job object => some (job.target, object)
  | .committing job object => some (job.target, object)
  | _ => none

/-- What a call may rely on, with the fence or without it. -/
structure PhaseOk (w : TombstoneWorld π) (held : Prop) (phase : TombstonePhase) : Prop where
  creating : ∀ source, phase = .creating source → w.row = none → w.original = some source
  inspected : w.expired = false → ∀ key object, phase.inspected = some (key, object) →
    w.object key = some object
  finding : held → ∀ object, phase = .findingRecord object →
    ∃ row, w.row = some row ∧ row.state = .RETAINED
  purging : phase.purging = true → PurgeAllowed w held

structure TombstoneInv (w : TombstoneWorld π) : Prop where
  held : ∀ p, w.holder = some p → (w.phase p).locked = true
  fence : w.expired = false → ∀ p, (w.phase p).locked = true → w.holder = some p
  object : ∀ p object, (w.phase p).object = some object → ∃ row, w.row = some row ∧ row.object = object
  phases : ∀ p, PhaseOk w (w.holder = some p) (w.phase p)
  copy : w.expired = false → ∀ row, w.row = some row → row.state ≠ .PURGED →
    w.hasCopy row.object = true ∨ w.purgeTookLast = true
  record : ∀ row, w.row = some row → row.domain = .META_UPLOAD →
    row.state = .PURGED ∨ w.purgeTookLast = true → w.recordPresent = false
  untouched : w.row = none → w.purgeTookLast = false

variable {phase : TombstonePhase} {object : StoredObject} {key : ObjectKey}

theorem locked_of_inspected (h : phase.inspected = some (key, object)) : phase.locked = true := by
  cases phase <;> first | rfl | cases h

theorem locked_of_purging (h : phase.purging = true) : phase.locked = true := by
  cases phase <;> first | rfl | cases h

theorem inspected_of_purging (h : phase.purging = true) : phase.inspected = none := by
  cases phase <;> first | rfl | cases h

variable {w w' : TombstoneWorld π} {held : Prop}

/-- A purge that has passed its checks relies on nothing else. -/
theorem phaseOk_of_purging (hp : phase.purging = true) (ha : PurgeAllowed w held) :
    PhaseOk w held phase := by
  refine ⟨fun source hc => ?_, fun _ key object hi => ?_, fun _ object hf => ?_, fun _ => ha⟩
  · rw [hc] at hp
    cases hp
  · rw [inspected_of_purging hp] at hi
    cases hi
  · rw [hf] at hp
    cases hp

/-- A call that has inspected a key relies on nothing else. -/
theorem phaseOk_of_inspected (hi : phase.inspected = some (key, object))
    (hg : w.expired = false → w.object key = some object) : PhaseOk w held phase := by
  refine ⟨fun source hc => ?_, fun he key' object' hi' => ?_, fun _ object' hf => ?_, fun hp => ?_⟩
  · rw [hc] at hi
    cases hi
  · cases hi.symm.trans hi'
    exact hg he
  · rw [hf] at hi
    cases hi
  · rw [inspected_of_purging hp] at hi
    cases hi

variable {job : TombstoneJob}

theorem phaseOk_cleaned (hg : w.expired = false → w.object job.target = some object) :
    PhaseOk w held (job.cleaned object) := by
  cases job with
  | rollBack => exact ⟨nofun, nofun, nofun, nofun⟩
  | _ => exact phaseOk_of_inspected rfl hg

/-- What a call relies on survives where the row stays, the fence is not taken and the key it has
    inspected is not changed. -/
theorem PhaseOk.mono {held' : Prop} (h : PhaseOk w held phase) (hh : held' → held) (hr : w'.row = w.row)
    (ho : w.row = none → w'.original = w.original)
    (hb : w.recordPresent = false → w'.recordPresent = false)
    (hi : w'.expired = false → w.expired = false ∧ ∀ key object, phase.inspected = some (key, object) →
      w.object key = some object → w'.object key = some object) : PhaseOk w' held' phase := by
  refine ⟨fun source hc hn => ?_, fun he key object hk => ?_, fun hd object hf => ?_, fun hp => ?_⟩
  · have hn : w.row = none := hr.symm.trans hn
    exact (ho hn).trans (h.creating source hc hn)
  · obtain ⟨he, hkeep⟩ := hi he
    exact hkeep key object hk (h.inspected he key object hk)
  · obtain ⟨row, hrow, hst⟩ := h.finding (hh hd) object hf
    exact ⟨row, hr.trans hrow, hst⟩
  · obtain ⟨row, hrow, hst, hmeta⟩ := h.purging hp
    exact ⟨row, hr.trans hrow, fun hd => hst (hh hd), fun hd => hb (hmeta hd)⟩

variable {p : π}

/-- No other call has inspected a key while one is under the fence, until a transaction expires. -/
theorem TombstoneInv.alone (h : TombstoneInv w) (he : w.expired = false) (hp : (w.phase p).locked = true)
    {q : π} (hq : q ≠ p) : (w.phase q).locked = false := by
  by_contra hl
  have hq' := h.fence he q (by simpa using hl)
  rw [h.fence he p hp] at hq'
  exact hq (Option.some.inj hq').symm

theorem TombstoneInv.row_of_object (h : TombstoneInv w) (hp : (w.phase p).object = some object) :
    w.row ≠ none := by
  obtain ⟨row, hr, -⟩ := h.object p object hp
  rw [hr]
  exact nofun

/-! ## 2. Changes of the storage and of the row -/

theorem object_store_other {key' : ObjectKey} (hne : key' ≠ key) (o : Option StoredObject) :
    (w.store key o).object key' = w.object key' := by
  cases key <;> cases key' <;> first | rfl | exact absurd rfl hne

theorem hasCopy_of_object (h : w.object key = some object) : w.hasCopy object = true := by
  cases key with
  | original => simp [TombstoneWorld.hasCopy, show w.original = some object from h]
  | trash => simp [TombstoneWorld.hasCopy, show w.trash = some object from h]

theorem object_of_hasCopy (h : w.hasCopy object = true) : ∃ key, w.object key = some object := by
  simp only [TombstoneWorld.hasCopy, Bool.or_eq_true, decide_eq_true_eq] at h
  rcases h with h | h
  · exact ⟨.original, h⟩
  · exact ⟨.trash, h⟩

@[simp] theorem store_row (w : TombstoneWorld π) (key : ObjectKey) (o : Option StoredObject) :
    (w.store key o).row = w.row := by
  cases key <;> rfl

@[simp] theorem store_phase (w : TombstoneWorld π) (key : ObjectKey) (o : Option StoredObject) :
    (w.store key o).phase = w.phase := by
  cases key <;> rfl

@[simp] theorem store_holder (w : TombstoneWorld π) (key : ObjectKey) (o : Option StoredObject) :
    (w.store key o).holder = w.holder := by
  cases key <;> rfl

@[simp] theorem store_recordPresent (w : TombstoneWorld π) (key : ObjectKey) (o : Option StoredObject) :
    (w.store key o).recordPresent = w.recordPresent := by
  cases key <;> rfl

@[simp] theorem store_purgeTookLast (w : TombstoneWorld π) (key : ObjectKey) (o : Option StoredObject) :
    (w.store key o).purgeTookLast = w.purgeTookLast := by
  cases key <;> rfl

@[simp] theorem store_expired (w : TombstoneWorld π) (key : ObjectKey) (o : Option StoredObject) :
    (w.store key o).expired = w.expired := by
  cases key <;> rfl

section

variable (h : TombstoneInv w)
include h

/-- **A publication** under a key that was empty. -/
theorem TombstoneInv.publish {published : StoredObject} (hn : w.row ≠ none) (hk : w.object key = none) :
    TombstoneInv (w.store key (some published)) := by
  have hkeep : ∀ key' object, w.object key' = some object →
      (w.store key (some published)).object key' = some object := by
    intro key' object ho
    have hne : key' ≠ key := by
      rintro rfl
      rw [hk] at ho
      cases ho
    rw [object_store_other hne]
    exact ho
  refine ⟨by simpa using h.held, by simpa using h.fence, by simpa using h.object, fun p => ?_,
    fun he row hr hs => ?_, by simpa using h.record, by simpa using h.untouched⟩
  · rw [store_phase, store_holder]
    refine (h.phases p).mono id (store_row ..) (fun hno => absurd hno hn)
      (store_recordPresent w key _).trans fun he => ⟨(store_expired w key _).symm.trans he, fun key' object _ => ?_⟩
    exact hkeep key' object
  · rw [store_expired] at he
    rw [store_row] at hr
    rw [store_purgeTookLast]
    rcases h.copy he row hr hs with hc | ht
    · obtain ⟨key', ho⟩ := object_of_hasCopy hc
      exact .inl (hasCopy_of_object (hkeep _ _ ho))
    · exact .inr ht

/-- A deletion by a call under the fence leaves what the other calls rely on. -/
theorem TombstoneInv.others (hp : (w.phase p).locked = true) (hn : w.row ≠ none)
    (key : ObjectKey) {q : π} (hq : q ≠ p) : PhaseOk (w.store key none) (w.holder = some q) (w.phase q) := by
  refine (h.phases q).mono id (store_row ..) (fun hno => absurd hno hn) (store_recordPresent w key _).trans
    fun he => ?_
  have he : w.expired = false := (store_expired w key _).symm.trans he
  refine ⟨he, fun key' object hi => ?_⟩
  have hl := h.alone he hp hq
  rw [locked_of_inspected hi] at hl
  cases hl

/-- **A deletion under the fence**, of the key that is not the copy's. -/
theorem TombstoneInv.clean (hp : w.phase p = .deletingSource job object) :
    TombstoneInv (w.store job.target.other none) := by
  have hl : (w.phase p).locked = true := by rw [hp]; rfl
  have ho : (w.phase p).object = some object := by rw [hp]; rfl
  have hok := fun he => (h.phases p).inspected he job.target object (by rw [hp]; rfl)
  have hne : job.target ≠ job.target.other := by cases job.target <;> exact nofun
  have htarget : w.expired = false → (w.store job.target.other none).object job.target = some object :=
    fun he => (object_store_other hne none).trans (hok he)
  refine ⟨by simpa using h.held, by simpa using h.fence, by simpa using h.object, fun q => ?_,
    fun he row hr hs => ?_, by simpa using h.record, by simpa using h.untouched⟩
  · rw [store_phase, store_holder]
    by_cases hq : q = p
    · rw [hq, hp]
      exact phaseOk_of_inspected rfl fun he => htarget ((store_expired w _ _).symm.trans he)
    · exact h.others hl (h.row_of_object ho) _ hq
  · rw [store_row] at hr
    obtain ⟨row', hr', hobj⟩ := h.object p object ho
    cases hr.symm.trans hr'
    exact .inl (hobj ▸ hasCopy_of_object (htarget ((store_expired w _ _).symm.trans he)))

/-- **A deletion of a purge.** -/
theorem TombstoneInv.purgeDelete (key : ObjectKey) (hp : (w.phase p).purging = true)
    (ho : (w.phase p).object = some object) :
    TombstoneInv (w.purgeDelete key object) := by
  have hl := locked_of_purging hp
  have hphase : (w.purgeDelete key object).phase = w.phase := store_phase ..
  have hholder : (w.purgeDelete key object).holder = w.holder := store_holder ..
  have hexpired : (w.purgeDelete key object).expired = w.expired := store_expired ..
  have hrow : (w.purgeDelete key object).row = w.row := store_row ..
  have hrecord : (w.purgeDelete key object).recordPresent = w.recordPresent := store_recordPresent ..
  obtain ⟨row, hr, hst, hmeta⟩ := (h.phases p).purging hp
  refine ⟨?_, ?_, ?_, fun q => ?_, fun he row' hr' hs => ?_, fun row' hr' hd _ => ?_, fun hno => ?_⟩
  · rw [hphase, hholder]
    exact h.held
  · rw [hphase, hholder, hexpired]
    exact h.fence
  · rw [hphase, hrow]
    exact h.object
  · rw [hphase, hholder]
    by_cases hq : q = p
    · rw [hq]
      exact phaseOk_of_purging hp ⟨row, hrow.trans hr, hst, fun hd => hrecord.trans (hmeta hd)⟩
    · have hok := h.others hl (h.row_of_object ho) key hq
      exact ⟨hok.creating, hok.inspected, hok.finding, hok.purging⟩
  · rw [hrow] at hr'
    obtain ⟨row'', hr'', hobj⟩ := h.object p object ho
    cases hr'.symm.trans hr''
    show (w.store key none).hasCopy row'.object = true ∨ _
    rw [hobj]
    cases hc : (w.store key none).hasCopy object with
    | true => exact .inl rfl
    | false =>
      right
      simp [TombstoneWorld.purgeDelete, hc]
  · rw [hrow] at hr'
    cases hr.symm.trans hr'
    exact hrecord.trans (hmeta hd)
  · exact absurd (hrow.symm.trans hno) (h.row_of_object ho)

/-- **A write of the row** that leaves the object it records. -/
theorem TombstoneInv.setRow {f : Tombstone → Tombstone}
    (hobj : ∀ row, (f row).object = row.object) (hdom : ∀ row, (f row).domain = row.domain)
    (hret : ∀ q, w.holder = some q → (∃ object, w.phase q = .findingRecord object) ∨ (w.phase q).purging = true →
      ∀ row, row.state = .RETAINED → (f row).state = .RETAINED)
    (hcopy : w.expired = false → ∀ row, w.row = some row → (f row).state ≠ .PURGED →
      w.hasCopy row.object = true ∨ w.purgeTookLast = true)
    (hrec : ∀ row, w.row = some row → row.domain = .META_UPLOAD → (f row).state = .PURGED →
      w.recordPresent = false) : TombstoneInv { w with row := w.row.map f } := by
  refine ⟨h.held, h.fence, fun p object ho => ?_, fun q => ⟨fun source hc hno => ?_, (h.phases q).inspected,
    fun hh object hf => ?_, fun hp => ?_⟩, fun he row hr hs => ?_, fun row hr hd hc => ?_, fun hno => ?_⟩
  · obtain ⟨row, hr, hrow⟩ := h.object p object ho
    exact ⟨f row, by simp [hr], (hobj row).trans hrow⟩
  · exact (h.phases q).creating source hc (Option.map_eq_none_iff.mp hno)
  · obtain ⟨row, hr, hs⟩ := (h.phases q).finding hh object hf
    exact ⟨f row, by simp [hr], hret q hh (.inl ⟨object, hf⟩) row hs⟩
  · obtain ⟨row, hr, hs, hmeta⟩ := (h.phases q).purging hp
    exact ⟨f row, by simp [hr], fun hh => hret q hh (.inr hp) row (hs hh), fun hd => hmeta (hdom row ▸ hd)⟩
  · obtain ⟨row', hr', rfl⟩ := Option.map_eq_some_iff.mp hr
    rw [hobj]
    exact hcopy he row' hr' hs
  · obtain ⟨row', hr', rfl⟩ := Option.map_eq_some_iff.mp hr
    rw [hdom] at hd
    rcases hc with hp | ht
    · exact hrec row' hr' hd hp
    · exact h.record row' hr' hd (.inr ht)
  · exact h.untouched (Option.map_eq_none_iff.mp hno)

/-- `recordRetentionFailure` leaves a retained row, and a purged one, as they are. -/
theorem TombstoneInv.recordFailure : TombstoneInv { w with row := w.row.map recordRetentionFailure } := by
  have hsame : ∀ row : Tombstone, row.state = .RETAINED → (recordRetentionFailure row).state = .RETAINED := by
    intro row hs
    unfold recordRetentionFailure
    rw [if_neg (by rw [hs]; exact nofun)]
    exact hs
  have hpurged : ∀ row : Tombstone, (recordRetentionFailure row).state = .PURGED ↔ row.state = .PURGED := by
    intro row
    unfold recordRetentionFailure
    split
    · next hs => rcases hs with hs | hs <;> simp [hs]
    · exact Iff.rfl
  refine h.setRow (fun row => ?_) (fun row => ?_) (fun _ _ _ => hsame)
    (fun he row hr hs => h.copy he row hr fun hp => hs ((hpurged row).mpr hp))
    fun row hr hd hs => h.record row hr hd (.inl ((hpurged row).mp hs))
  · unfold recordRetentionFailure
    split <;> rfl
  · unfold recordRetentionFailure
    split <;> rfl

/-- The upload batch goes. -/
theorem TombstoneInv.recordDeleted : TombstoneInv { w with recordPresent := false } :=
  ⟨h.held, h.fence, h.object, fun q => (h.phases q).mono id rfl (fun _ => rfl) (fun _ => rfl)
    fun he => ⟨he, fun _ _ _ => id⟩, h.copy, fun _ _ _ _ => rfl, h.untouched⟩

/-- **A transaction runs into its limit**: the fence is free, and its call relies on nothing in the
    storage any more. -/
theorem TombstoneInv.expires : TombstoneInv { w with holder := none, expired := true } :=
  ⟨nofun, nofun, h.object, fun q => (h.phases q).mono nofun rfl (fun _ => rfl) id nofun, nofun, h.record,
    h.untouched⟩

end

/-! ## 3. Steps -/

section Steps

variable [DecidableEq π]

/-- **A move**: the call has had the fence already, or does not need it. -/
theorem TombstoneInv.goto (h : TombstoneInv w) (hlock : phase.locked = true → (w.phase p).locked = true)
    (hobj : ∀ object, phase.object = some object → ∃ row, w.row = some row ∧ row.object = object)
    (hok : PhaseOk w (w.holder = some p) phase) : TombstoneInv (w.goto p phase) := by
  have hself : (w.goto p phase).phase p = phase := update_self ..
  have hne : ∀ {q}, q ≠ p → (w.goto p phase).phase q = w.phase q := fun hq => update_of_ne hq ..
  have hkept : ∀ {q}, (w.goto p phase).holder = some q → w.holder = some q := by
    intro q hq
    have hq : (if phase.locked = false ∧ w.holder = some p then none else w.holder) = some q := hq
    split at hq
    · cases hq
    · exact hq
  have hsame : ∀ {q ψ}, PhaseOk w (w.holder = some q) ψ →
      PhaseOk (w.goto p phase) ((w.goto p phase).holder = some q) ψ := fun hψ =>
    hψ.mono hkept rfl (fun _ => rfl) id fun he => ⟨he, fun _ _ _ => id⟩
  refine ⟨fun q hq => ?_, fun he q hl => ?_, fun q object ho => ?_, fun q => ?_, h.copy, h.record, h.untouched⟩
  · by_cases hqp : q = p
    · subst hqp
      rw [hself]
      cases hl : phase.locked with
      | true => rfl
      | false =>
        have hq' : (if phase.locked = false ∧ w.holder = some q then none else w.holder) = some q := hq
        rw [if_pos ⟨hl, hkept hq⟩] at hq'
        cases hq'
    · rw [hne hqp]
      exact h.held q (hkept hq)
  · show (if phase.locked = false ∧ w.holder = some p then none else w.holder) = some q
    by_cases hqp : q = p
    · subst hqp
      rw [hself] at hl
      rw [if_neg (by rw [hl]; exact nofun)]
      exact h.fence he q (hlock hl)
    · rw [hne hqp] at hl
      have hq := h.fence he q hl
      rw [if_neg fun hp => hqp (Option.some.inj (hq.symm.trans hp.2))]
      exact hq
  · by_cases hq : q = p
    · rw [hq, hself] at ho
      exact hobj object ho
    · rw [hne hq] at ho
      exact h.object q object ho
  · by_cases hq : q = p
    · rw [hq, hself]
      exact hsame hok
    · rw [hne hq]
      exact hsame (h.phases q)

/-- A call moves on with the object it has. -/
theorem TombstoneInv.carryOn (h : TombstoneInv w) (hl : phase.locked = true → (w.phase p).locked = true)
    (ho : ∀ object, phase.object = some object → (w.phase p).object = some object)
    (hok : PhaseOk w (w.holder = some p) phase) : TombstoneInv (w.goto p phase) :=
  h.goto hl (fun object hp => h.object p object (ho object hp)) hok

/-- The fence is taken when it is free. -/
theorem TombstoneInv.acquire (h : TombstoneInv w) {call : FencedCall} (hp : w.phase p = .locking call)
    (hf : w.holder = none) : TombstoneInv { w.goto p (.reading call) with holder := some p } := by
  have hself : (w.goto p (.reading call)).phase p = .reading call := update_self ..
  have hne : ∀ {q}, q ≠ p → (w.goto p (.reading call)).phase q = w.phase q := fun hq => update_of_ne hq ..
  refine ⟨fun q hq => ?_, fun he q hl => ?_, fun q object ho => ?_, fun q => ?_, h.copy, h.record, h.untouched⟩
  · cases hq
    exact congrArg TombstonePhase.locked hself
  · by_cases hq : q = p
    · rw [hq]
    · have hl : ((w.goto p (.reading call)).phase q).locked = true := hl
      rw [hne hq] at hl
      cases hf.symm.trans (h.fence he q hl)
  · by_cases hq : q = p
    · have ho : ((w.goto p (.reading call)).phase q).object = some object := ho
      rw [hq, hself] at ho
      refine h.object p object ?_
      rw [hp]
      cases call <;> exact ho
    · have ho : ((w.goto p (.reading call)).phase q).object = some object := ho
      rw [hne hq] at ho
      exact h.object q object ho
  · show PhaseOk _ _ ((w.goto p (.reading call)).phase q)
    by_cases hq : q = p
    · rw [hq, hself]
      exact ⟨nofun, nofun, nofun, nofun⟩
    · rw [hne hq]
      refine (h.phases q).mono (fun hh => absurd (Option.some.inj hh).symm hq) rfl (fun _ => rfl) id ?_
      exact fun he => ⟨he, fun _ _ _ => id⟩

theorem failure_unlocked (phase : TombstonePhase) : phase.failure.locked = false := by
  have hjob : ∀ (job : TombstoneJob) object, (job.failure object).locked = false := by
    intro job object
    cases job <;> rfl
  have hcall : ∀ call : FencedCall, call.failure.locked = false := by
    intro call
    cases call <;> rfl
  cases phase <;> first | rfl | exact hjob _ _ | exact hcall _

theorem failure_object (h : phase.failure.object = some object) : phase.object = some object := by
  have hjob : ∀ {job : TombstoneJob} {object' : StoredObject},
      (job.failure object').object = some object → some object' = some object := by
    intro job object' hj
    cases job <;> first | exact hj | cases hj
  have hcall : ∀ {call : FencedCall}, call.failure.object = some object →
      (TombstonePhase.locking call).object = some object ∧
        (TombstonePhase.reading call).object = some object := by
    intro call hc
    cases call <;> exact ⟨hc, hc⟩
  cases phase with
  | inspectingAgain object' =>
    have h' : (TombstoneJob.rollBack.failure object').object = some object := h
    exact hjob h'
  | _ => first | exact hjob h | exact (hcall h).1 | exact (hcall h).2 | cases h

omit [DecidableEq π] in
theorem phaseOk_failure (w : TombstoneWorld π) (held : Prop) (phase : TombstonePhase) :
    PhaseOk w held phase.failure := by
  have hjob : ∀ (job : TombstoneJob) object, PhaseOk w held (job.failure object) := by
    intro job object
    cases job <;> exact ⟨nofun, nofun, nofun, nofun⟩
  have hcall : ∀ call : FencedCall, PhaseOk w held call.failure := by
    intro call
    cases call <;> exact ⟨nofun, nofun, nofun, nofun⟩
  cases phase <;> first | exact hjob _ _ | exact hcall _ | exact ⟨nofun, nofun, nofun, nofun⟩

/-- A step that throws. -/
theorem TombstoneInv.fails (h : TombstoneInv w) (hp : phase = (w.phase p).failure) :
    TombstoneInv (w.goto p phase) := by
  rw [hp]
  refine h.carryOn (fun hl => ?_) (fun object ho => failure_object ho) (phaseOk_failure w _ _)
  rw [failure_unlocked] at hl
  cases hl

/-- A call ends. -/
theorem TombstoneInv.ends (h : TombstoneInv w) (p : π) : TombstoneInv (w.goto p .ended) :=
  h.carryOn nofun nofun ⟨nofun, nofun, nofun, nofun⟩

omit [DecidableEq π] in
theorem object_of_fence {row : Tombstone} (hr : w.row = some row) {expected : StoredObject}
    (he : row.object = expected) (ho : phase.object = some expected) :
    ∀ object, phase.object = some object → ∃ row, w.row = some row ∧ row.object = object := by
  intro object ho'
  cases ho.symm.trans ho'
  exact ⟨row, hr, he⟩

section

variable (h : TombstoneInv w)
include h

/-- The read of a transaction under the fence. -/
theorem TombstoneInv.read {call : FencedCall} (hp : w.phase p = .reading call) (retention : Nat) :
    TombstoneInv (w.goto p (match w.row with
      | none => missingPhase call
      | some row => readPhase w.now retention row call)) := by
  have hgo : ∀ {phase : TombstonePhase}, (∀ object, phase.object = some object →
      ∃ row, w.row = some row ∧ row.object = object) → PhaseOk w (w.holder = some p) phase →
      TombstoneInv (w.goto p phase) :=
    fun ho hok => h.goto (fun _ => by rw [hp]; rfl) ho hok
  have hcall : ∀ object, (TombstonePhase.reading call).object = some object →
      ∃ row, w.row = some row ∧ row.object = object := fun object ho => h.object p object (by rw [hp]; exact ho)
  cases hr : w.row with
  | none =>
    cases call with
    | retain expected | restore | purge force => exact h.ends p
    | reconcile expected => exact hgo hcall ⟨nofun, nofun, nofun, nofun⟩
  | some row =>
    cases call with
    | retain expected =>
      simp only [readPhase]
      split
      · exact h.ends p
      · cases row.state with
        | PURGED => exact h.ends p
        | PENDING | RETAINED | RESTORED | FAILED => exact hgo hcall ⟨nofun, nofun, nofun, nofun⟩
    | reconcile expected =>
      simp only [readPhase]
      split
      · exact hgo hcall ⟨nofun, nofun, nofun, nofun⟩
      · cases row.state with
        | PURGED | PENDING | RETAINED | RESTORED | FAILED =>
          exact hgo hcall ⟨nofun, nofun, nofun, nofun⟩
    | restore =>
      simp only [readPhase]
      split
      · exact h.ends p
      · exact hgo (object_of_fence hr rfl rfl) ⟨nofun, nofun, nofun, nofun⟩
    | purge force =>
      simp only [readPhase]
      split
      · exact h.ends p
      · rename_i hs
        have hst : row.state = .RETAINED := not_not.mp fun hne => hs (.inl hne)
        split
        · exact hgo (object_of_fence hr rfl rfl) ⟨nofun, nofun, fun _ _ _ => ⟨row, hr, hst⟩, nofun⟩
        · rename_i hd
          have ha : PurgeAllowed w (w.holder = some p) := ⟨row, hr, fun _ => hst, fun he => absurd he hd⟩
          exact hgo (object_of_fence hr rfl rfl) (phaseOk_of_purging rfl ha)

theorem TombstoneInv.create {source : StoredObject} (hp : w.phase p = .creating source)
    (hr : w.row = none) {new : Tombstone} (hnew : new.object = source) (hst : new.state = .PENDING)
    (hl : phase.locked = false) (ho : ∀ object, phase.object = some object → object = source)
    (hok : ∀ (w' : TombstoneWorld π) (held : Prop), PhaseOk w' held phase) :
    TombstoneInv { w.goto p phase with row := some new } := by
  have hnone : ∀ q object, (w.phase q).object ≠ some object := by
    intro q object hq
    obtain ⟨row, hrow, -⟩ := h.object q object hq
    rw [hr] at hrow
    cases hrow
  have horig : w.original = some source := (h.phases p).creating source hp hr
  have h' : TombstoneInv { w with row := some new } := by
    refine ⟨h.held, h.fence, fun q object hq => absurd hq (hnone q object), fun q => ?_, fun _ row hrow hs => ?_,
      fun row hrow _ hc => ?_, nofun⟩
    · -- nobody works with an object yet
      refine ⟨fun _ _ => nofun, (h.phases q).inspected, fun _ object hf => ?_, fun hpurge => ?_⟩
      · exact absurd (by rw [hf]; rfl) (hnone q object)
      · obtain ⟨row, hrow, -⟩ := (h.phases q).purging hpurge
        rw [hr] at hrow
        cases hrow
    · cases hrow
      have hkey : TombstoneWorld.object { w with row := some new } .original = some source := horig
      exact .inl (hnew ▸ hasCopy_of_object hkey)
    · cases hrow
      rcases hc with hc | hc
      · rw [hst] at hc
        cases hc
      · rw [h.untouched hr] at hc
        cases hc
  refine h'.goto (fun hlock => ?_) (fun object hobj => ⟨new, rfl, hnew.trans (ho object hobj).symm⟩) (hok _ _)
  rw [hl] at hlock
  cases hlock

omit [DecidableEq π] in
/-- The commit of a copy: the key it went to holds the object, whatever is written. -/
theorem TombstoneInv.commit (hp : w.phase p = .committing job object)
    (hf : w.holder = some p) : TombstoneInv { w with row := w.row.map fun row => job.write row } := by
  have hok := fun he => (h.phases p).inspected he job.target object (by rw [hp]; rfl)
  obtain ⟨row, hr, hobj⟩ := h.object p object (by rw [hp]; rfl)
  have hstate : ∀ row : Tombstone, (job.write row).state = .PURGED → row.state = .PURGED := by
    intro row hs
    cases job <;> first | exact hs | cases hs
  refine h.setRow (fun row => ?_) (fun row => ?_) (fun q hq hwork => ?_) (fun he row' hr' _ => ?_)
    fun row' hr' hd hs => h.record row' hr' hd (.inl (hstate row' hs))
  · cases job <;> rfl
  · cases job <;> rfl
  · -- whoever has the fence is this call, and it does not purge
    cases hf.symm.trans hq
    rw [hp] at hwork
    rcases hwork with ⟨object', hwork⟩ | hwork
    · cases hwork
    · cases hwork
  · cases hr.symm.trans hr'
    exact .inl (hobj ▸ hasCopy_of_object (hok he))

/-- The commit of a purge. -/
theorem TombstoneInv.purgeCommit (hp : w.phase p = .purgeCommitting object) (hf : w.holder = some p) :
    TombstoneInv { w.goto p .ended with row := w.row.map fun row => { row with state := .PURGED } } := by
  obtain ⟨row, hr, -, hmeta⟩ := (h.phases p).purging (by rw [hp]; rfl)
  have hfree : (w.goto p .ended).holder = none := if_pos ⟨rfl, hf⟩
  refine (h.ends p).setRow (fun _ => rfl) (fun _ => rfl) (fun q hq => ?_) (fun _ _ _ hs => absurd rfl hs)
    fun row' hr' hd _ => ?_
  · cases hfree.symm.trans hq
  · cases hr.symm.trans hr'
    exact hmeta hd

/-- A purge moves on. -/
theorem TombstoneInv.purgeOn (hp : (w.phase p).purging = true)
    (hn : phase.purging = true) (ho : phase.object = (w.phase p).object) : TombstoneInv (w.goto p phase) :=
  h.carryOn (fun _ => locked_of_purging hp) (fun _ ho' => ho ▸ ho')
    (phaseOk_of_purging hn ((h.phases p).purging hp))

end

variable {retention : Nat}

/-- **A step keeps the invariant.** -/
theorem TombstoneInv.step (h : TombstoneInv w) (hs : TombstoneStep retention w w') : TombstoneInv w' := by
  cases hs with
  | tick ms =>
    refine ⟨h.held, h.fence, h.object, fun q => ?_, h.copy, h.record, h.untouched⟩
    exact ⟨(h.phases q).creating, (h.phases q).inspected, (h.phases q).finding, (h.phases q).purging⟩
  | expires p hf => exact h.expires
  | recordDeleted => exact h.recordDeleted
  | call p phase hp hc =>
    rcases hc with ⟨hash, rfl⟩ | rfl | ⟨force, rfl⟩
    · exact h.carryOn nofun nofun ⟨nofun, nofun, nofun, nofun⟩
    · exact h.carryOn nofun nofun ⟨nofun, nofun, nofun, nofun⟩
    · exact h.carryOn nofun nofun ⟨nofun, nofun, nofun, nofun⟩
  | fails p => exact h.fails rfl
  | stops p => exact h.ends p
  | find p hash hp =>
    cases hr : w.row with
    | none => exact h.carryOn nofun nofun ⟨nofun, nofun, nofun, nofun⟩
    | some row =>
      simp only
      split
      · exact h.ends p
      · exact h.goto nofun (object_of_fence hr rfl rfl) ⟨nofun, nofun, nofun, nofun⟩
  | inspect p source hp ho =>
    refine h.carryOn nofun nofun ⟨fun source' hc _ => ?_, nofun, nofun, nofun⟩
    cases hc
    exact ho
  | create p source acknowledged hp hr =>
    cases acknowledged with
    | true =>
      refine h.create hp hr rfl rfl rfl (fun object ho => ?_) fun _ _ => ⟨nofun, nofun, nofun, nofun⟩
      exact (Option.some.inj ho).symm
    | false => exact h.create hp hr rfl rfl rfl nofun fun _ _ => ⟨nofun, nofun, nofun, nofun⟩
  | createTwice p source row hp hr =>
    split
    · exact h.ends p
    · rename_i he
      exact h.goto nofun (object_of_fence hr (not_not.mp he) rfl) ⟨nofun, nofun, nofun, nofun⟩
  | acquire p call hp hf => exact h.acquire hp hf
  | read p call hp hf => exact h.read hp retention
  | checkTarget p job object hp =>
    split
    · exact h.carryOn (by rw [hp]; exact id) (by rw [hp]; exact fun _ ho => ho) ⟨nofun, nofun, nofun, nofun⟩
    · exact h.carryOn (by rw [hp]; exact id) (by rw [hp]; exact fun _ ho => ho) ⟨nofun, nofun, nofun, nofun⟩
  | inspectTarget p job object hp hg =>
    have hok : PhaseOk w (w.holder = some p) (job.found object) := by
      cases job with
      | rollBack => exact phaseOk_of_inspected rfl fun _ => hg
      | _ => exact ⟨nofun, nofun, nofun, nofun⟩
    refine h.carryOn (fun hl => ?_) (fun object' ho => ?_) hok
    · rw [hp]
      cases job <;> first | rfl | cases hl
    · rw [hp]
      cases job <;> first | exact ho | cases ho
  | readSource p job object source hp hg hsize | putTwice p job object hp hg =>
    exact h.carryOn (by rw [hp]; exact id) (by rw [hp]; exact fun _ ho => ho) ⟨nofun, nofun, nofun, nofun⟩
  | put p job object published acknowledged hp hn hh =>
    have hrow := h.row_of_object (p := p) (by rw [hp]; rfl)
    have h' : TombstoneInv (w.store job.target (some published)) := h.publish hrow hn
    split
    · exact h'.carryOn (by rw [store_phase, hp]; exact id) (by rw [store_phase, hp]; exact fun _ ho => ho)
        ⟨nofun, nofun, nofun, nofun⟩
    · exact h'.fails (by rw [store_phase, hp]; rfl)
  | verify p job object hp hg =>
    have hok : PhaseOk w (w.holder = some p) (job.copied object) := by
      cases job with
      | fallback => exact ⟨nofun, nofun, nofun, nofun⟩
      | _ => exact phaseOk_of_inspected rfl fun _ => hg
    refine h.carryOn (fun hl => ?_) (fun object' ho => ?_) hok
    · rw [hp]
      cases job <;> first | rfl | cases hl
    · rw [hp]
      cases job <;> first | exact ho | cases ho
  | deleteSource p job object acknowledged hp =>
    have h' := h.clean hp
    have hok := fun he => (h'.phases p).inspected he job.target object (by rw [store_phase, hp]; rfl)
    split
    · refine h'.carryOn (fun _ => by rw [store_phase, hp]; rfl) (fun object' ho => ?_) ?_
      · rw [store_phase, hp]
        cases job <;> exact ho
      · exact phaseOk_cleaned hok
    · exact h'.fails (by rw [store_phase, hp]; rfl)
  | deleteNothing p job object hp hn =>
    have hok := fun he => (h.phases p).inspected he job.target object (by rw [hp]; rfl)
    refine h.carryOn (fun _ => by rw [hp]; rfl) (fun object' ho => ?_) ?_
    · rw [hp]
      cases job <;> exact ho
    · cases job <;> exact phaseOk_of_inspected rfl hok
  | checkSource p job object hp hn =>
    have hok := fun he => (h.phases p).inspected he job.target object (by rw [hp]; rfl)
    refine h.carryOn (fun _ => by rw [hp]; rfl) (fun object' ho => ?_) ?_
    · rw [hp]
      cases job <;> exact ho
    · exact phaseOk_cleaned hok
  | inspectAgain p object hp hg =>
    exact h.carryOn (fun _ => by rw [hp]; rfl) (by rw [hp]; exact fun _ ho => ho)
      (phaseOk_of_inspected rfl fun _ => hg)
  | commit p job object acknowledged hp hf =>
    have h' := h.commit hp hf
    split
    · refine h'.carryOn (fun hl => ?_) (fun object' ho => ?_) ?_
      · cases job <;> cases hl
      · cases job <;> cases ho
      · cases job <;> exact ⟨nofun, nofun, nofun, nofun⟩
    · exact h'.fails (by rw [hp]; rfl)
  | findRecord p object hp hf =>
    split
    · exact h.ends p
    · rename_i hrec
      obtain ⟨row, hr, hst⟩ := (h.phases p).finding hf object hp
      refine h.carryOn (fun _ => by rw [hp]; rfl) (by rw [hp]; exact fun _ ho => ho)
        (phaseOk_of_purging rfl ⟨row, hr, fun _ => hst, fun _ => by simpa using hrec⟩)
  | purgeFindOriginal p object hp | purgeFindTrash p object a hp
  | purgeInspectOriginal p object a t hp hg | purgeInspectTrash p object a t hp hg
  | purgeSkipOriginal p object t hp | purgeSkipTrash p object hp
  | purgeConfirmOriginal p object hp hn | purgeConfirmTrash p object hp hn =>
    exact h.purgeOn (by rw [hp]; rfl) rfl (by rw [hp]; rfl)
  | purgeDeleteOriginal p object t acknowledged hp =>
    have h' := h.purgeDelete .original (p := p) (by rw [hp]; rfl) (by rw [hp]; rfl)
    have hp' : (w.purgeDelete .original object).phase p = .purgeDeletingOriginal object true t := hp
    split
    · exact h'.purgeOn (by rw [hp']; rfl) rfl (by rw [hp']; rfl)
    · exact h'.ends p
  | purgeDeleteTrash p object acknowledged hp =>
    have h' := h.purgeDelete .trash (p := p) (by rw [hp]; rfl) (by rw [hp]; rfl)
    have hp' : (w.purgeDelete .trash object).phase p = .purgeDeletingTrash object true := hp
    split
    · exact h'.purgeOn (by rw [hp']; rfl) rfl (by rw [hp']; rfl)
    · exact h'.ends p
  | purgeCommit p object hp hf => exact h.purgeCommit hp hf
  | record p hp => exact h.recordFailure.ends p

theorem TombstoneReachable.inv (h : TombstoneReachable retention w) : TombstoneInv w := by
  induction h with
  | @init w hr hh hp ht he =>
    refine ⟨fun p hheld => ?_, fun _ p hl => ?_, fun p object ho => ?_, fun p => ?_, fun _ row hrow => ?_,
      fun row hrow => ?_, fun _ => ht⟩
    · cases hh.symm.trans hheld
    · rw [hp p] at hl
      cases hl
    · rw [hp p] at ho
      cases ho
    · rw [hp p]
      exact ⟨nofun, nofun, nofun, nofun⟩
    · rw [hr] at hrow
      cases hrow
    · rw [hr] at hrow
      cases hrow
  | step _ hs ih => exact ih.step hs

/-! ## 4. Runs -/

/-- PURGED is written on a retained row only. -/
theorem TombstoneStep.purged (h : TombstoneInv w) (hs : TombstoneStep retention w w') {row' : Tombstone}
    (hr : w'.row = some row') (hp : row'.state = .PURGED) :
    ∃ row, w.row = some row ∧ (row.state = .PURGED ∨ row.state = .RETAINED) := by
  cases hs with
  | create p source acknowledged hph hno =>
    cases hr
    cases hp
  | commit p job object acknowledged hph hf =>
    obtain ⟨row, hrow, rfl⟩ := Option.map_eq_some_iff.mp hr
    refine ⟨row, hrow, .inl ?_⟩
    cases job <;> first | exact hp | cases hp
  | purgeCommit p object hph hf =>
    obtain ⟨row, hrow, hst, -⟩ := (h.phases p).purging (by rw [hph]; rfl)
    exact ⟨row, hrow, .inr (hst hf)⟩
  | record p hph =>
    obtain ⟨row, hrow, rfl⟩ := Option.map_eq_some_iff.mp hr
    refine ⟨row, hrow, .inl ?_⟩
    unfold recordRetentionFailure at hp
    split at hp
    · cases hp
    · exact hp
  | put p job object published acknowledged hph hn hh =>
    have hr : (w.store job.target (some published)).row = some row' := hr
    rw [store_row] at hr
    exact ⟨row', hr, .inl hp⟩
  | deleteSource p job object acknowledged hph =>
    have hr : (w.store job.target.other none).row = some row' := hr
    rw [store_row] at hr
    exact ⟨row', hr, .inl hp⟩
  | _ => exact ⟨row', hr, .inl hp⟩

/-- Only a purge that has passed its checks takes the last copy. -/
theorem TombstoneStep.purgeTookLast (h : TombstoneInv w) (hs : TombstoneStep retention w w')
    (hb : w.purgeTookLast = false) (ha : w'.purgeTookLast = true) :
    PurgeAllowed w (w.expired = false) := by
  cases hs with
  | purgeDeleteOriginal p object t acknowledged hph | purgeDeleteTrash p object acknowledged hph =>
    obtain ⟨row, hr, hst, hmeta⟩ := (h.phases p).purging (by rw [hph]; rfl)
    exact ⟨row, hr, fun he => hst (h.fence he p (by rw [hph]; rfl)), hmeta⟩
  | put p job object published acknowledged hph hn hh =>
    have ha : (w.store job.target (some published)).purgeTookLast = true := ha
    rw [store_purgeTookLast, hb] at ha
    cases ha
  | deleteSource p job object acknowledged hph =>
    have ha : (w.store job.target.other none).purgeTookLast = true := ha
    rw [store_purgeTookLast, hb] at ha
    cases ha
  | _ => exact absurd (hb.symm.trans ha) nofun

/-- **Retained files are kept.** In every reachable world before a transaction has run into its limit
    one of the two keys holds the recorded object while the row is not purged, unless a purge has
    deleted the last copy, which it has found RETAINED. In every reachable world PURGED is written
    on a RETAINED row only, and nothing of an upload is purged while its batch exists. -/
theorem retained_files_kept {w : TombstoneWorld π} {retention : Nat}
    (hw : TombstoneReachable retention w) :
    (w.expired = false → ∀ row, w.row = some row → row.state ≠ .PURGED →
      w.original = some row.object ∨ w.trash = some row.object ∨ w.purgeTookLast = true) ∧
    (∀ row, w.row = some row → row.domain = .META_UPLOAD →
      row.state = .PURGED ∨ w.purgeTookLast = true → w.recordPresent = false) ∧
    ∀ w', TombstoneStep retention w w' →
      (∀ row', w'.row = some row' → row'.state = .PURGED →
        ∃ row, w.row = some row ∧ (row.state = .PURGED ∨ row.state = .RETAINED)) ∧
      (w.purgeTookLast = false → w'.purgeTookLast = true →
        ∃ row, w.row = some row ∧ (w.expired = false → row.state = .RETAINED) ∧
          (row.domain = .META_UPLOAD → w.recordPresent = false)) := by
  have h := hw.inv
  refine ⟨fun he row hr hs => ?_, h.record, fun w' hs => ⟨fun row' => hs.purged h, hs.purgeTookLast h⟩⟩
  rcases h.copy he row hr hs with hc | ht
  · simp only [TombstoneWorld.hasCopy, Bool.or_eq_true, decide_eq_true_eq] at hc
    rcases hc with hc | hc
    · exact .inl hc
    · exact .inr (.inl hc)
  · exact .inr (.inr ht)

end Steps

/-! ## 5. Two calls -/

/-- Two calls at work on a report. -/
def twoCalls (original trash : Option StoredObject) (state : Option StorageTombstoneState)
    (holder : Option (Fin 2)) (a b : TombstonePhase) : TombstoneWorld (Fin 2) where
  now := 0
  domain := .REPORT
  original := original
  trash := trash
  row := state.map fun state => ⟨.REPORT, "aa", 7, state, 30⟩
  recordPresent := true
  holder := holder
  phase
    | 0 => a
    | 1 => b
  purgeTookLast := false
  expired := false

theorem twoCalls_reachable {w : TombstoneWorld (Fin 2)} {original trash : Option StoredObject}
    {state : Option StorageTombstoneState} {holder : Option (Fin 2)} {a b : TombstonePhase}
    (h : TombstoneReachable 30 w) (ha : w.phase 0 = a) (hb : w.phase 1 = b)
    (hw : w = { twoCalls original trash state holder a b with phase := w.phase }) :
    TombstoneReachable 30 (twoCalls original trash state holder a b) := by
  have hphase : w.phase = (twoCalls original trash state holder a b).phase := by
    funext p
    match p with
    | 0 => exact ha
    | 1 => exact hb
  have hw : w = twoCalls original trash state holder a b := by
    rw [hw, hphase]
  rw [← hw]
  exact h

def reportFile : StoredObject := ⟨"aa", 7⟩

/-- A call has copied the object of a report to the trash key, and has yet to delete the original. -/
theorem copied_reachable :
    TombstoneReachable 30 (twoCalls (some reportFile) (some reportFile) (some .PENDING) (some 0)
      (.deletingSource (.retention none) reportFile) .idle) := by
  have h0 : TombstoneReachable 30 (twoCalls (some reportFile) none none none .idle .idle) :=
    .init rfl rfl (fun p => by match p with | 0 => rfl | 1 => rfl) rfl rfl
  have h1 := h0.step (.call 0 _ rfl (.inl ⟨"aa", rfl⟩))
  have h2 := h1.step (.find 0 "aa" rfl)
  have h3 := h2.step (.inspect 0 reportFile rfl rfl)
  have h4 := h3.step (.create 0 reportFile true rfl rfl)
  have h5 := h4.step (.acquire 0 _ rfl rfl)
  have h6 := h5.step (.read 0 _ rfl rfl)
  have h7 := h6.step (.checkTarget 0 _ _ rfl)
  have h8 := h7.step (.readSource 0 _ _ reportFile rfl rfl rfl)
  have h9 := h8.step (.put 0 _ _ reportFile true rfl rfl rfl)
  have h10 := h9.step (.verify 0 _ _ rfl rfl)
  exact twoCalls_reachable h10 rfl rfl rfl

/-- A report is retained: its object is under the trash key. -/
theorem retained_reachable :
    TombstoneReachable 30 (twoCalls none (some reportFile) (some .RETAINED) none .ended .idle) := by
  have h11 := copied_reachable.step (.deleteSource 0 _ _ true rfl)
  have h12 := h11.step (.commit 0 _ _ true rfl rfl)
  exact twoCalls_reachable h12 rfl rfl rfl

theorem retained_files_kept_report :
    TombstoneReachable 30 (twoCalls none (some reportFile) (some .RETAINED) none .ended .idle) ∧
      ((none : Option StoredObject) = some reportFile ∨ some reportFile = some reportFile ∨ false = true) :=
  ⟨retained_reachable, (retained_files_kept retained_reachable).1 rfl _ rfl nofun⟩

/-- **Both copies can be lost.** A purge deletes before it commits: its last delete takes effect, the
    transaction does not, and the row stays RETAINED. And a retention whose transaction has run
    into its limit deletes the original after another call has rolled its copy back. -/
theorem purge_or_expiry_loses_copies :
    (¬ ∀ (retention : Nat) (w : TombstoneWorld (Fin 2)), TombstoneReachable retention w → w.expired = false →
      ∀ row, w.row = some row → row.state ≠ .PURGED →
        w.original = some row.object ∨ w.trash = some row.object) ∧
    ¬ ∀ (retention : Nat) (w : TombstoneWorld (Fin 2)), TombstoneReachable retention w →
      w.purgeTookLast = false → ∀ row, w.row = some row → row.state ≠ .PURGED →
        w.original = some row.object ∨ w.trash = some row.object := by
  refine ⟨fun hall => ?_, fun hall => ?_⟩
  · have h1 := retained_reachable.step (.call 1 (.locking (.purge true)) rfl (.inr (.inr ⟨true, rfl⟩)))
    have h2 := h1.step (.acquire 1 _ rfl rfl)
    have h3 := h2.step (.read 1 _ rfl rfl)
    have h4 := h3.step (.purgeFindOriginal 1 _ rfl)
    have h5 := h4.step (.purgeFindTrash 1 _ _ rfl)
    have h6 := h5.step (.purgeInspectOriginal 1 _ _ _ rfl nofun)
    have h7 := h6.step (.purgeInspectTrash 1 _ _ _ rfl fun _ => rfl)
    have h8 := h7.step (.purgeSkipOriginal 1 _ _ rfl)
    have h9 := h8.step (.purgeDeleteTrash 1 _ true rfl)
    -- the call throws here: its transaction is rolled back, the objects are gone
    have h10 := h9.step (.fails 1)
    rcases hall 30 _ h10 rfl _ rfl nofun with h | h
    · cases h
    · cases h
  · have h1 := copied_reachable.step (.expires 0 rfl)
    have h2 := h1.step (.call 1 _ rfl (.inl ⟨"aa", rfl⟩))
    have h3 := h2.step (.find 1 "aa" rfl)
    -- the transaction of the second call fails before it has the fence, and it looks at the outcome
    have h4 := h3.step (.fails 1)
    have h5 := h4.step (.acquire 1 _ rfl rfl)
    have h6 := h5.step (.read 1 _ rfl rfl)
    have h7 := h6.step (.checkTarget 1 _ _ rfl)
    have h8 := h7.step (.inspectTarget 1 _ _ rfl rfl)
    have h9 := h8.step (.deleteSource 1 _ _ true rfl)
    have h10 := h9.step (.deleteSource 0 _ _ true rfl)
    rcases hall 30 _ h10 rfl _ rfl nofun with h | h
    · cases h
    · cases h

end AdsManagement.Storage
