/-
  File:      Meta/ReservationSafety.lean
  Subject:   AT MOST ONE META IMPORT PER FILE: the invariant of the reservation protocol over
             every interleaving of attempts.

  Every transaction that writes the batch either finds it open (validating, or failed before its
  file was stored) and without any work, and puts a new id on it, or finds its own id on it. An
  open batch has no work, and a closed one is never written again.

  * `OpenBatch` -- the batches a claim may still get;
  * `MetaInv`, `MetaReachable.inv` -- the invariant, on every reachable world;
  * `closed_unchanged` -- no step writes a closed batch;
  * `meta_reservation_safe` -- one commit at most, nothing from a replaced attempt, no claim of a
    batch with work.
-/
import AdsManagement.Meta.Reservation

namespace AdsManagement.Meta

open Common List Function

variable {β μ π : Type}

/-! ## 1. Batches and markers -/

/-- The marker of a schema, in a state and under an id. -/
def MarkedBy (schema : StorageSchema β) (state : StorageState) (attemptId : String) : Prop :=
  ∃ marker, schema.originalStorage = some marker ∧ marker.state = state ∧ marker.attemptId = attemptId

/-- A claim may still get the batch, once its lease has run out. -/
def OpenBatch (batch : ReservedBatch β) : Prop :=
  batch.status = .VALIDATING ∨ batch.status = .FAILED ∧ ∃ i, MarkedBy batch.columnSchema .PENDING i

variable {schema : StorageSchema β} {i : String} {s : StorageState}
variable {t : StorageState} {j : String}

theorem MarkedBy.state_eq (h : MarkedBy schema s i) (h' : MarkedBy schema t j) : s = t := by
  obtain ⟨m, hm, hs, -⟩ := h
  obtain ⟨n, hn, ht, -⟩ := h'
  rw [hm] at hn
  cases hn
  rw [← hs, ht]

variable {batch : ReservedBatch β}

theorem MarkedBy.attemptId (h : MarkedBy batch.columnSchema s i) : batch.attemptId = some i := by
  obtain ⟨m, hm, -, rfl⟩ := h
  unfold ReservedBatch.attemptId
  rw [hm]
  rfl

theorem markedBy_pending (schema : StorageSchema β) (domain : MetaOriginalStorageDomain) (now : Nat)
    (i : String) : MarkedBy (pendingMetaOriginalStorageSchema schema domain now i) .PENDING i :=
  ⟨_, rfl, rfl, rfl⟩

variable {domain : MetaOriginalStorageDomain}

/-- Storing the file keeps the id. -/
theorem markedBy_stored {stored : StorageSchema β}
    (h : storedMetaOriginalStorageSchema schema domain = some stored) :
    ∃ i, MarkedBy schema .PENDING i ∧ MarkedBy stored .STORED i := by
  unfold storedMetaOriginalStorageSchema at h
  split at h
  · cases h
  · rename_i current hm
    split at h
    · cases h
    · rename_i hc
      cases h
      refine ⟨current.attemptId, ⟨current, hm, ?_, rfl⟩, ⟨_, rfl, rfl, rfl⟩⟩
      exact not_not.mp fun hne => hc (.inr hne)

variable {now : Nat}

theorem openBatch_of_retryable
    (h : isRetryableMetaOriginalStoragePending batch.columnSchema domain batch.status now = true) :
    OpenBatch batch := by
  unfold isRetryableMetaOriginalStoragePending at h
  split at h
  · cases h
  · rename_i marker hm
    split at h
    · cases h
    · split at h
      · next hf => exact .inr ⟨hf, marker.attemptId, marker, hm, of_decide_eq_true h, rfl⟩
      · split at h
        · cases h
        · next hv => exact .inl (not_not.mp hv)

/-- A stored marker of a failed batch closes it. -/
theorem not_openBatch_of_stored (hv : batch.status ≠ .VALIDATING)
    (hm : MarkedBy batch.columnSchema .STORED i) : ¬ OpenBatch batch := by
  rintro (h | ⟨-, j, hj⟩)
  · exact hv h
  · exact absurd (hm.state_eq hj) (by decide)

/-- A batch without work, as the claim counts it. -/
structure Untouched (batch : ReservedBatch β) (rows : BatchTable → Nat) : Prop where
  rows : ∀ table, rows table = 0
  validRowCount : batch.validRowCount = 0
  warningCount : batch.warningCount = 0
  errorCount : batch.errorCount = 0
  importedAt : batch.importedAt = none

variable {rows : BatchTable → Nat}

theorem untouched_iff :
    Untouched batch rows ↔ hasPersistedWork batch rows = false := by
  unfold hasPersistedWork
  simp only [Bool.or_eq_false_iff, decide_eq_false_iff_not, Nat.not_lt, Nat.le_zero,
    Option.isSome_eq_false_iff, Option.isNone_iff_eq_none]
  constructor
  · intro h
    exact ⟨⟨⟨⟨⟨⟨⟨h.rows _, h.rows _⟩, h.rows _⟩, h.rows _⟩, h.validRowCount⟩, h.warningCount⟩,
      h.errorCount⟩, h.importedAt⟩
  · rintro ⟨⟨⟨⟨⟨⟨⟨h1, h2⟩, h3⟩, h4⟩, h5⟩, h6⟩, h7⟩, h8⟩
    refine ⟨fun table => ?_, h5, h6, h7, h8⟩
    cases table with
    | uploadRows => exact h1
    | rowErrors => exact h2
    | adMetrics => exact h3
    | adsetMetrics => exact h4

/-! ## 2. What the transactions do -/

variable {tables : ReservationTables μ β}
variable {batchId : String}

/-- **A claim**: the batch was open and without work, and carries the new id. -/
theorem claimStoragePendingBatch_eq_some {tables' : ReservationTables μ β}
    (h : claimStoragePendingBatch domain batchId i now tables = some (batch, tables')) :
    ∃ current, tables.batch = some current ∧ OpenBatch current ∧ Untouched current tables.rows ∧
      Untouched batch tables.rows ∧ batch.status = .VALIDATING ∧ MarkedBy batch.columnSchema .PENDING i ∧
      tables' = { tables with batch := some batch } := by
  unfold claimStoragePendingBatch at h
  split at h
  · cases h
  · rename_i current hb
    split at h
    · cases h
    · rename_i hcheck
      split at h
      · cases h
      · rename_i hwork
        cases h
        have hretry : isRetryableMetaOriginalStoragePending current.columnSchema domain
            current.status now = true := by
          by_contra hr
          exact hcheck (.inr (.inr (.inr (Bool.not_eq_true _ ▸ hr))))
        have hun : Untouched current tables.rows := untouched_iff.mpr (Bool.not_eq_true _ ▸ hwork)
        refine ⟨current, hb, openBatch_of_retryable hretry, hun, ?_, rfl, markedBy_pending _ _ _ _, rfl⟩
        exact ⟨hun.rows, hun.validRowCount, hun.warningCount, hun.errorCount, hun.importedAt⟩

section Transactions

variable [DecidableEq β]

/-- A transaction that is not lost has found its own batch, validating. -/
theorem owned_of_ownership {current : ReservedBatch β}
    (h : ¬ (current.id ≠ batch.id ∨ sameStorageOwnership current batch = false)) :
    current.status = .VALIDATING ∧ current.columnSchema = batch.columnSchema := by
  have hs : sameStorageOwnership current batch = true := by
    by_contra hne
    exact h (.inr (Bool.not_eq_true _ ▸ hne))
  unfold sameStorageOwnership at hs
  rw [Bool.and_eq_true, decide_eq_true_eq, decide_eq_true_eq] at hs
  exact hs

/-- What `prepareBatchWithFence` can do: nothing; or, on its own batch, fail it before the file
    is stored, close it with errors, or store the file. -/
theorem prepareBatchWithFence_cases (file : Preparation) (tables : ReservationTables μ β) :
    ((prepareBatchWithFence domain batch file tables).1.phase = .ended ∧
        (prepareBatchWithFence domain batch file tables).2 = tables) ∨
    ∃ current, tables.batch = some current ∧ current.status = .VALIDATING ∧
      current.columnSchema = batch.columnSchema ∧
      (((prepareBatchWithFence domain batch file tables).1.phase = .ended ∧
          (prepareBatchWithFence domain batch file tables).2 =
            { tables with batch := some { current with status := .FAILED } }) ∨
        ∃ i stored, MarkedBy current.columnSchema .PENDING i ∧ MarkedBy stored .STORED i ∧
          ((∃ errors, (prepareBatchWithFence domain batch file tables).1.phase = .ended ∧
            (prepareBatchWithFence domain batch file tables).2 =
              { tables with
                batch := some { current with columnSchema := stored, status := .FAILED, errorCount := errors }
                rows := addRows tables.rows (only .rowErrors errors) }) ∨
          ((prepareBatchWithFence domain batch file tables).1.phase =
              .prepared { current with columnSchema := stored } ∧
            (prepareBatchWithFence domain batch file tables).2 =
              { tables with batch := some { current with columnSchema := stored } }))) := by
  unfold prepareBatchWithFence
  cases hb : tables.batch with
  | none => exact .inl ⟨rfl, rfl⟩
  | some current =>
    simp only
    by_cases hown : current.id ≠ batch.id ∨ sameStorageOwnership current batch = false
    · rw [if_pos hown]
      exact .inl ⟨rfl, rfl⟩
    · rw [if_neg hown]
      obtain ⟨hv, hs⟩ := owned_of_ownership hown
      cases file with
      | storageFails => exact .inr ⟨current, rfl, hv, hs, .inl ⟨rfl, rfl⟩⟩
      | rejected errors =>
        cases hstored : storedMetaOriginalStorageSchema current.columnSchema domain with
        | none => exact .inl ⟨rfl, rfl⟩
        | some stored =>
          obtain ⟨i, hp, hi⟩ := markedBy_stored hstored
          exact .inr ⟨current, rfl, hv, hs, .inr ⟨i, stored, hp, hi, .inl ⟨errors, rfl, rfl⟩⟩⟩
      | accepted =>
        cases hstored : storedMetaOriginalStorageSchema current.columnSchema domain with
        | none => exact .inl ⟨rfl, rfl⟩
        | some stored =>
          obtain ⟨i, hp, hi⟩ := markedBy_stored hstored
          exact .inr ⟨current, rfl, hv, hs, .inr ⟨i, stored, hp, hi, .inr ⟨rfl, rfl⟩⟩⟩

/-- What the domain transaction can do: nothing; or, on its own batch, record the failure of the
    rates, or write everything. -/
theorem domainTransaction_cases (work : DomainWork μ) (now : Nat) (tables : ReservationTables μ β) :
    ((domainTransaction batch work now tables).1 = .lost ∧
        (domainTransaction batch work now tables).2 = tables) ∨
    ∃ current, tables.batch = some current ∧ current.status = .VALIDATING ∧
      current.columnSchema = batch.columnSchema ∧
      (((domainTransaction batch work now tables).1 = .error ∧
          (domainTransaction batch work now tables).2 =
            { tables with
              batch := some { current with status := .FAILED, errorCount := 1 }
              rows := addRows tables.rows (only .rowErrors 1) }) ∨
        ((domainTransaction batch work now tables).1 = .success ∧
          ∃ after, (domainTransaction batch work now tables).2.batch = some after ∧
            after.columnSchema = current.columnSchema ∧
            (after.status = .PARTIAL ∨ after.status = .FAILED ∨ after.status = .IMPORTED))) := by
  unfold domainTransaction
  cases hb : tables.batch with
  | none => exact .inl ⟨rfl, rfl⟩
  | some current =>
    simp only
    by_cases hown : current.id ≠ batch.id ∨ sameStorageOwnership current batch = false
    · rw [if_pos hown]
      exact .inl ⟨rfl, rfl⟩
    · rw [if_neg hown]
      obtain ⟨hv, hs⟩ := owned_of_ownership hown
      refine .inr ⟨current, rfl, hv, hs, ?_⟩
      cases work with
      | ratesFail => exact .inl ⟨rfl, rfl⟩
      | imports valid warnings errors imported rows metrics =>
        refine .inr ⟨rfl, _, rfl, rfl, ?_⟩
        unfold importStatus
        split
        · exact .inl rfl
        · split
          · exact .inr (.inl rfl)
          · exact .inr (.inr rfl)

end Transactions

/-! ## 3. The invariant -/

/-- What a process knows, with the id it got the batch under. -/
def AttemptOk (attempt : Option String) : AttemptPhase β → Prop
  | .reserved batch => ∃ i, attempt = some i ∧ MarkedBy batch.columnSchema .PENDING i
  | .prepared batch => ∃ i, attempt = some i ∧ MarkedBy batch.columnSchema .STORED i
  | .ended => True
  | _ => attempt = none

structure MetaInv (w : ReservationWorld π μ β) : Prop where
  nodup : w.owners.Nodup
  issued : ∀ i ∈ w.owners, i ∈ w.issued
  creating : ∀ p schema, w.phase p = .creating schema →
    ∃ i, MarkedBy schema .PENDING i ∧ i ∈ w.issued ∧ i ∉ w.owners
  distinct : ∀ p q s t i, w.phase p = .creating s → w.phase q = .creating t →
    MarkedBy s .PENDING i → MarkedBy t .PENDING i → p = q
  phases : ∀ p, AttemptOk (w.attempt p) (w.phase p)
  attempts : ∀ p i, w.attempt p = some i → i ∈ w.owners
  last : ∀ batch, w.tables.batch = some batch →
    ∃ s i, MarkedBy batch.columnSchema s i ∧ w.owners.head? = some i
  absent : w.tables.batch = none → w.commits = [] ∧ ∀ table, w.tables.rows table = 0
  opened : ∀ batch, w.tables.batch = some batch → OpenBatch batch →
    w.commits = [] ∧ Untouched batch w.tables.rows
  once : w.commits.length ≤ 1
  unwritten : w.commits = [] → ∀ table, table ≠ .rowErrors → w.tables.rows table = 0

theorem MetaInv.initial (now : Nat) (metrics : μ) :
    MetaInv (initialReservation now metrics : ReservationWorld π μ β) where
  nodup := nodup_nil
  issued _ hi := nomatch hi
  creating _ _ hp := nomatch hp
  distinct _ _ _ _ _ hp := nomatch hp
  phases _ := rfl
  attempts _ _ hi := nomatch hi
  last _ hb := nomatch hb
  absent _ := ⟨rfl, fun _ => rfl⟩
  opened _ hb := nomatch hb
  once := Nat.zero_le 1
  unwritten _ _ _ := rfl

section Steps

variable [DecidableEq π] {w : ReservationWorld π μ β} {p : π} {phase : AttemptPhase β}

@[simp] theorem goto_self (w : ReservationWorld π μ β) (p : π) (phase : AttemptPhase β) :
    (w.goto p phase).phase p = phase := update_self ..

theorem goto_of_ne (w : ReservationWorld π μ β) {p q : π} (phase : AttemptPhase β) (h : q ≠ p) :
    (w.goto p phase).phase q = w.phase q := update_of_ne h ..

/-- A process that is not about to create the batch: the others' schemas are as before. -/
theorem goto_creating (hn : ∀ s, phase ≠ .creating s) {q : π}
    (h : (w.goto p phase).phase q = .creating schema) : q ≠ p ∧ w.phase q = .creating schema := by
  by_cases hq : q = p
  · rw [hq, goto_self] at h
    exact absurd h (hn schema)
  · rw [goto_of_ne w phase hq] at h
    exact ⟨hq, h⟩

/-- **A step that only moves a process.** -/
theorem MetaInv.goto (h : MetaInv w) (hn : ∀ s, phase ≠ .creating s)
    (hp : AttemptOk (w.attempt p) phase) : MetaInv (w.goto p phase) where
  nodup := h.nodup
  issued := h.issued
  creating q s hq := h.creating q s (goto_creating hn hq).2
  distinct q r s t i hq hr := h.distinct q r s t i (goto_creating hn hq).2 (goto_creating hn hr).2
  phases q := by
    by_cases hq : q = p
    · rw [hq, goto_self]
      exact hp
    · rw [goto_of_ne w phase hq]
      exact h.phases q
  attempts := h.attempts
  last := h.last
  absent := h.absent
  opened := h.opened
  once := h.once
  unwritten := h.unwritten

/-- **A process makes a new marker.** -/
theorem MetaInv.newMarker (h : MetaInv w) (hp : w.attempt p = none) (hm : MarkedBy schema .PENDING i)
    (hfresh : i ∉ w.issued) :
    MetaInv { w.goto p (.creating schema) with issued := i :: w.issued } := by
  have hother : ∀ q s, q ≠ p → (w.goto p (.creating schema)).phase q = .creating s →
      w.phase q = .creating s := by
    intro q s hq hs
    rw [goto_of_ne w _ hq] at hs
    exact hs
  have hself : ∀ s, (w.goto p (.creating schema)).phase p = .creating s → s = schema := by
    intro s hs
    rw [goto_self] at hs
    cases hs
    rfl
  -- the new id is on no schema made before
  have hnew : ∀ q s, w.phase q = .creating s → ¬ MarkedBy s .PENDING i := by
    intro q s hs hi
    obtain ⟨j, hj, hjs, -⟩ := h.creating q s hs
    obtain ⟨m, hm1, -, rfl⟩ := hj
    obtain ⟨m', hm2, -, rfl⟩ := hi
    rw [hm1] at hm2
    cases hm2
    exact hfresh hjs
  refine { h with issued := ?_, creating := ?_, distinct := ?_, phases := ?_ }
  · exact fun j hj => mem_cons_of_mem _ (h.issued j hj)
  · intro q s hs
    by_cases hq : q = p
    · subst hq
      rw [hself s hs]
      exact ⟨i, hm, mem_cons_self, fun hi => hfresh (h.issued i hi)⟩
    · obtain ⟨j, hj, hji, hjo⟩ := h.creating q s (hother q s hq hs)
      exact ⟨j, hj, mem_cons_of_mem _ hji, hjo⟩
  · intro q r s t j hq hr hs ht
    by_cases hqp : q = p
    · by_cases hrp : r = p
      · rw [hqp, hrp]
      · subst hqp
        have e : j = i := by
          rw [hself s hq] at hs
          obtain ⟨m, hm1, -, rfl⟩ := hs
          obtain ⟨m', hm2, -, rfl⟩ := hm
          rw [hm1] at hm2
          cases hm2
          rfl
        exact absurd (e ▸ ht) (hnew r t (hother r t hrp hr))
    · by_cases hrp : r = p
      · subst hrp
        have e : j = i := by
          rw [hself t hr] at ht
          obtain ⟨m, hm1, -, rfl⟩ := ht
          obtain ⟨m', hm2, -, rfl⟩ := hm
          rw [hm1] at hm2
          cases hm2
          rfl
        exact absurd (e ▸ hs) (hnew q s (hother q s hqp hq))
      · exact h.distinct q r s t j (hother q s hqp hq) (hother r t hrp hr) hs ht
  · intro q
    by_cases hq : q = p
    · subst hq
      rw [goto_self]
      exact hp
    · rw [goto_of_ne w _ hq]
      exact h.phases q

/-- **A process gets the batch**, under an id nobody had it under. -/
theorem MetaInv.own (h : MetaInv w) {issued : List String} (hnew : i ∉ w.owners) (hi : i ∈ issued)
    (hsub : w.issued ⊆ issued) (hother : ∀ q s, q ≠ p → w.phase q = .creating s → ¬ MarkedBy s .PENDING i)
    (ht : tables = { w.tables with batch := some batch }) (hm : MarkedBy batch.columnSchema .PENDING i)
    (hc : w.commits = []) (hu : Untouched batch w.tables.rows) :
    MetaInv { w.own p i batch tables with issued } := by
  subst ht
  have hn : ∀ s : StorageSchema β, AttemptPhase.reserved batch ≠ .creating s := nofun
  refine ⟨nodup_cons.mpr ⟨hnew, h.nodup⟩, ?_, ?_, ?_, ?_, ?_, ?_, ?_, ?_, h.once, h.unwritten⟩
  · intro j hj
    rcases mem_cons.mp hj with rfl | hj
    · exact hi
    · exact hsub (h.issued j hj)
  · intro q s hs
    obtain ⟨hq, hs'⟩ := goto_creating hn hs
    obtain ⟨j, hj, hji, hjo⟩ := h.creating q s hs'
    refine ⟨j, hj, hsub hji, fun hmem => ?_⟩
    rcases mem_cons.mp hmem with rfl | hmem
    · exact hother q s hq hs' hj
    · exact hjo hmem
  · intro q r s t j hq hr
    exact h.distinct q r s t j (goto_creating hn hq).2 (goto_creating hn hr).2
  · intro q
    by_cases hq : q = p
    · subst hq
      show AttemptOk (update w.attempt q (some i) q) ((w.goto q (.reserved batch)).phase q)
      rw [goto_self, update_self]
      exact ⟨i, rfl, hm⟩
    · show AttemptOk (update w.attempt p (some i) q) ((w.goto p (.reserved batch)).phase q)
      rw [goto_of_ne w _ hq, update_of_ne hq]
      exact h.phases q
  · intro q j hj
    by_cases hq : q = p
    · subst hq
      have hj' : update w.attempt q (some i) q = some j := hj
      rw [update_self] at hj'
      cases hj'
      exact mem_cons_self
    · have hj' : update w.attempt p (some i) q = some j := hj
      rw [update_of_ne hq] at hj'
      exact mem_cons_of_mem _ (h.attempts q j hj')
  · rintro b ⟨⟩
    exact ⟨.PENDING, i, hm, rfl⟩
  · exact nofun
  · rintro b ⟨⟩ _
    exact ⟨hc, hu⟩

variable {current : ReservedBatch β}

omit [DecidableEq π] in
/-- **A transaction rewrites the batch it owns.** -/
theorem MetaInv.rewrite (h : MetaInv w) {after : ReservedBatch β} {commits : List π}
    (hb : w.tables.batch = some current) (ht : tables.batch = some after)
    (hid : ∀ s i, MarkedBy current.columnSchema s i → ∃ t, MarkedBy after.columnSchema t i)
    (hopen : OpenBatch after → commits = [] ∧ Untouched after tables.rows) (honce : commits.length ≤ 1)
    (hun : commits = [] → ∀ table, table ≠ .rowErrors → tables.rows table = 0) :
    MetaInv { w with tables, commits } where
  nodup := h.nodup
  issued := h.issued
  creating := h.creating
  distinct := h.distinct
  phases := h.phases
  attempts := h.attempts
  last b hb' := by
    rw [show b = after from Option.some.inj (hb'.symm.trans ht)]
    obtain ⟨s, i, hm, hhead⟩ := h.last current hb
    obtain ⟨t, hm'⟩ := hid s i hm
    exact ⟨t, i, hm', hhead⟩
  absent hn := by
    rw [show tables.batch = none from hn] at ht
    cases ht
  opened b hb' ho := by
    rw [show b = after from Option.some.inj (hb'.symm.trans ht)] at ho ⊢
    exact hopen ho
  once := honce
  unwritten := hun

omit [DecidableEq π] in
/-- Only its own schema makes a process the owner. -/
theorem markedBy_unique (h : MarkedBy schema s i) (h' : MarkedBy schema t j) :
    i = j := by
  obtain ⟨m, hm, -, rfl⟩ := h
  obtain ⟨n, hn, -, rfl⟩ := h'
  rw [hm] at hn
  cases hn
  rfl

theorem MetaInv.create (h : MetaInv w) {id path : String} (hp : w.phase p = .creating schema)
    (hc : createReservedBatch id path domain schema w.tables = some (batch, tables))
    (hi : batch.attemptId = some i) : MetaInv (w.own p i batch tables) := by
  obtain ⟨j, hj, hissued, hnew⟩ := h.creating p schema hp
  unfold createReservedBatch at hc
  split at hc
  · cases hc
  · rename_i hb
    cases hc
    have hji : j = i := Option.some.inj ((MarkedBy.attemptId hj).symm.trans hi)
    subst hji
    obtain ⟨hcommits, hrows⟩ := h.absent hb
    refine h.own hnew hissued (Subset.refl _) (fun q s hq hs hm => ?_) rfl hj hcommits
      ⟨hrows, rfl, rfl, rfl, rfl⟩
    exact hq (h.distinct q p s schema j hs hp hm hj)

theorem MetaInv.claim (h : MetaInv w) (hfresh : i ∉ w.issued)
    (hc : claimStoragePendingBatch domain batchId i w.now w.tables = some (batch, tables)) :
    MetaInv { w.own p i batch tables with issued := i :: w.issued } := by
  obtain ⟨current, hb, hopen, -, hun, -, hm, ht⟩ := claimStoragePendingBatch_eq_some hc
  refine h.own (fun hi => hfresh (h.issued i hi)) mem_cons_self (subset_cons_self _ _)
    (fun q s _ hs hi => ?_) ht hm (h.opened current hb hopen).1 hun
  obtain ⟨j, hj, hissued, -⟩ := h.creating q s hs
  exact hfresh (markedBy_unique hj hi ▸ hissued)

variable [DecidableEq β]

theorem addRows_only_of_ne {n : Nat} {table : BatchTable} (h : table ≠ .rowErrors) :
    addRows rows (only .rowErrors n) table = rows table := by
  unfold addRows only
  rw [if_neg h, Nat.add_zero]

/-- **The file is stored, or not.** -/
theorem MetaInv.prepare (h : MetaInv w) (file : Preparation) (hp : w.phase p = .reserved batch) :
    MetaInv { w.goto p (prepareBatchWithFence domain batch file w.tables).1.phase with
      tables := (prepareBatchWithFence domain batch file w.tables).2 } := by
  have hok := h.phases p
  rw [hp] at hok
  obtain ⟨j, hattempt, hj⟩ := hok
  rcases prepareBatchWithFence_cases file w.tables with ⟨hphase, htables⟩ | ⟨current, hb, hv, hs, hcase⟩
  · rw [hphase, htables]
    exact h.goto (nofun) trivial
  obtain ⟨hcommits, hun⟩ := h.opened current hb (.inl hv)
  rw [← hs] at hj
  rcases hcase with ⟨hphase, htables⟩ | ⟨i, stored, hpend, hstored, hcase⟩
  · -- failed before its file was stored: the batch stays open, as untouched as it was
    have hw : MetaInv { w with
        tables := { w.tables with batch := some { current with status := .FAILED } } } :=
      h.rewrite hb rfl (fun s i hm => ⟨s, hm⟩) (fun _ => ⟨hcommits, hun.rows, hun.validRowCount,
        hun.warningCount, hun.errorCount, hun.importedAt⟩) h.once h.unwritten
    rw [hphase, htables]
    exact hw.goto (nofun) trivial
  have hid : ∀ s k, MarkedBy current.columnSchema s k → ∃ t, MarkedBy stored t k := by
    intro s k hk
    rw [markedBy_unique hk hpend]
    exact ⟨.STORED, hstored⟩
  rcases hcase with ⟨errors, hphase, htables⟩ | ⟨hphase, htables⟩
  · have hw : MetaInv { w with
        tables := { w.tables with
          batch := some { current with columnSchema := stored, status := .FAILED, errorCount := errors }
          rows := addRows w.tables.rows (only .rowErrors errors) } } :=
      h.rewrite hb rfl hid
        (fun ho => absurd ho (not_openBatch_of_stored (nofun) hstored)) h.once
        (fun hc table ht => (addRows_only_of_ne ht).trans (h.unwritten hc table ht))
    rw [hphase, htables]
    exact hw.goto (nofun) trivial
  · have hw : MetaInv { w with
        tables := { w.tables with batch := some { current with columnSchema := stored } } } :=
      h.rewrite hb rfl hid (fun _ => ⟨hcommits, hun.rows, hun.validRowCount, hun.warningCount,
        hun.errorCount, hun.importedAt⟩) h.once h.unwritten
    rw [hphase, htables]
    refine hw.goto (nofun) ⟨i, ?_, hstored⟩
    rw [show w.attempt p = some j from hattempt, markedBy_unique hj hpend]

/-- **The rows are committed**, once. -/
theorem MetaInv.transact (h : MetaInv w) (work : DomainWork μ) (hp : w.phase p = .prepared batch) :
    MetaInv { w.goto p .ended with
      tables := (domainTransaction batch work w.now w.tables).2
      commits := if (domainTransaction batch work w.now w.tables).1 = .success then p :: w.commits
        else w.commits } := by
  have hok := h.phases p
  rw [hp] at hok
  obtain ⟨j, -, hj⟩ := hok
  rcases domainTransaction_cases work w.now w.tables with ⟨hresult, htables⟩ | ⟨current, hb, hv, hs, hcase⟩
  · rw [hresult, htables]
    exact h.goto (nofun) trivial
  obtain ⟨hcommits, -⟩ := h.opened current hb (.inl hv)
  rw [← hs] at hj
  rcases hcase with ⟨hresult, htables⟩ | ⟨hresult, after, hafter, hschema, hstatus⟩
  · have hw : MetaInv { w with
        tables := { w.tables with
          batch := some { current with status := .FAILED, errorCount := 1 }
          rows := addRows w.tables.rows (only .rowErrors 1) } } :=
      h.rewrite hb rfl (fun s i hm => ⟨s, hm⟩)
        (fun ho => absurd ho (not_openBatch_of_stored (nofun) hj)) h.once
        (fun hc table ht => (addRows_only_of_ne ht).trans (h.unwritten hc table ht))
    rw [hresult, htables]
    exact hw.goto (nofun) trivial
  · have hclosed : ¬ OpenBatch after := by
      refine not_openBatch_of_stored (fun e => ?_) (hschema ▸ hj)
      rw [e] at hstatus
      rcases hstatus with e | e | e
      · cases e
      · cases e
      · cases e
    have hw : MetaInv { w with
        tables := (domainTransaction batch work w.now w.tables).2, commits := p :: w.commits } :=
      h.rewrite hb hafter (fun s i hm => ⟨s, hschema ▸ hm⟩) (fun ho => absurd ho hclosed)
        (by rw [hcommits]; exact le_refl 1) (nofun)
    rw [hresult]
    exact hw.goto (nofun) trivial

variable {domain : π → MetaOriginalStorageDomain} {w' : ReservationWorld π μ β} {actor : Option π}

/-- **Every step keeps the invariant.** -/
theorem MetaInv.step (h : MetaInv w) (hs : MetaStep domain w actor w') : MetaInv w' := by
  have hearly : ∀ p phase, w.phase p = phase → AttemptOk (w.attempt p) phase := by
    rintro p phase rfl
    exact h.phases p
  cases hs with
  | tick ms | otherImport metrics => exact { h with }
  | crash p | racedNothing p hp hn | refuse p batchId i hp hc => exact h.goto (nofun) trivial
  | findNothing p hp hn => exact h.goto (nofun) (hearly p .start hp)
  | findDuplicate p batch hp hb =>
    refine h.goto (nofun) ?_
    rcases hp with hp | hp
    · exact hearly p .start hp
    · exact hearly p .raced hp
  | newMarker p fields i hp hfresh =>
    exact h.newMarker (hearly p .absent hp) (markedBy_pending _ _ _ _) hfresh
  | create p id path i schema batch tables hp hc hi => exact h.create hp hc hi
  | createConflict p schema batch hp hb =>
    exact h.goto (nofun) (hearly p (.creating schema) hp)
  | claim p batchId i batch tables hp hfresh hc => exact h.claim hfresh hc
  | prepare p batch file hp => exact h.prepare file hp
  | transact p batch work hp => exact h.transact work hp

theorem MetaReachable.inv (h : MetaReachable domain w) : MetaInv w := by
  induction h with
  | init now metrics => exact .initial now metrics
  | step _ hs ih => exact ih.step hs

variable {later : ReservationWorld π μ β}

theorem MetaReachable.run (h : MetaReachable domain w) (hrun : MetaRun domain w later) :
    MetaReachable domain later := by
  induction hrun with
  | refl => exact h
  | tail _ hs ih =>
    obtain ⟨actor, hs⟩ := hs
    exact ih.step hs

/-! ## 4. Safety -/

/-- The id of the process has been replaced: another one has been written after it. -/
def Replaced (w : ReservationWorld π μ β) (p : π) : Prop :=
  ∃ i, w.attempt p = some i ∧ i ∈ w.owners.tail

/-- Ids are only added, and a process keeps its own. -/
theorem Replaced.step (h : Replaced w p) (hinv : MetaInv w) (hs : MetaStep domain w actor w') :
    Replaced w' p := by
  obtain ⟨i, hi, hm⟩ := h
  have hown : ∀ (q : π) (j : String) (batch : ReservedBatch β) (tables : ReservationTables μ β)
      (issued : List String), w.attempt q = none →
      Replaced { w.own q j batch tables with issued } p := by
    intro q j batch tables issued hq
    refine ⟨i, ?_, mem_of_mem_tail hm⟩
    show update w.attempt q (some j) p = some i
    rw [update_of_ne, hi]
    rintro rfl
    rw [hq] at hi
    cases hi
  cases hs with
  | create q id path j schema batch tables hq hc hj =>
    refine hown q j batch tables w.issued ?_
    have hok := hinv.phases q
    rw [hq] at hok
    exact hok
  | claim q batchId j batch tables hq hfresh hc =>
    refine hown q j batch tables _ ?_
    have hok := hinv.phases q
    rw [hq] at hok
    exact hok
  | tick ms | otherImport metrics | crash q | findNothing q hq hn | findDuplicate q batch hq hb
  | newMarker q fields j hq hfresh | createConflict q schema batch hq hb | racedNothing q hq hn
  | refuse q batchId j hq hc | prepare q batch file hq | transact q batch work hq =>
    exact ⟨i, hi, hm⟩

theorem Replaced.run (h : Replaced w p) (hw : MetaReachable domain w) (hrun : MetaRun domain w later) :
    Replaced later p := by
  induction hrun with
  | refl => exact h
  | tail hr hs ih =>
    obtain ⟨actor, hs⟩ := hs
    exact ih.step (hw.run hr).inv hs

omit [DecidableEq π] [DecidableEq β] in
/-- A process whose schema is still the stored one has not been replaced. -/
theorem MetaInv.not_replaced (h : MetaInv w) (hb : w.tables.batch = some current)
    (hm : MarkedBy current.columnSchema s i) (hi : w.attempt p = some i) : ¬ Replaced w p := by
  rintro ⟨j, hj, htail⟩
  obtain rfl : i = j := Option.some.inj (hi.symm.trans hj)
  obtain ⟨t, k, hk, hhead⟩ := h.last current hb
  obtain rfl := markedBy_unique hm hk
  have hnodup := h.nodup
  cases e : w.owners with
  | nil =>
    rw [e] at htail
    cases htail
  | cons j owners =>
    rw [e] at hhead hnodup htail
    cases hhead
    exact (nodup_cons.mp hnodup).1 htail

/-- **A replaced attempt changes nothing.** -/
theorem MetaInv.replaced_unchanged (h : MetaInv w) (hr : Replaced w p) (hs : MetaStep domain w (some p) w') :
    w'.tables = w.tables := by
  have hattempt : w.attempt p ≠ none := by
    obtain ⟨i, hi, -⟩ := hr
    rw [hi]
    exact nofun
  cases hs with
  | create _ id path j schema batch tables hp hc hj
  | claim _ batchId j batch tables hp hfresh hc =>
    have hok := h.phases p
    rw [hp] at hok
    exact absurd hok hattempt
  | prepare _ batch file hp =>
    have hok := h.phases p
    rw [hp] at hok
    obtain ⟨i, hi, hm⟩ := hok
    rcases prepareBatchWithFence_cases file w.tables with ⟨-, htables⟩ | ⟨current, hb, -, hschema, -⟩
    · exact htables
    · exact absurd hr (h.not_replaced hb (hschema ▸ hm) hi)
  | transact _ batch work hp =>
    have hok := h.phases p
    rw [hp] at hok
    obtain ⟨i, hi, hm⟩ := hok
    rcases domainTransaction_cases work w.now w.tables with ⟨-, htables⟩ | ⟨current, hb, -, hschema, -⟩
    · exact htables
    · exact absurd hr (h.not_replaced hb (hschema ▸ hm) hi)
  | crash _ | findNothing _ hp hn | findDuplicate _ batch hp hb | newMarker _ fields j hp hfresh
  | createConflict _ schema batch hp hb | racedNothing _ hp hn | refuse _ batchId j hp hc => rfl

/-- The batch has a row, an error, a metric or a counter. -/
def HasWork (w : ReservationWorld π μ β) : Prop :=
  ∃ batch, w.tables.batch = some batch ∧ hasPersistedWork batch w.tables.rows = true

/-- The batch can be claimed no more. -/
def Closed (w : ReservationWorld π μ β) : Prop :=
  ∃ batch, w.tables.batch = some batch ∧ ¬ OpenBatch batch

omit [DecidableEq π] [DecidableEq β] in
theorem MetaInv.closed_of_hasWork (h : MetaInv w) (hw : HasWork w) : Closed w := by
  obtain ⟨batch, hb, hwork⟩ := hw
  refine ⟨batch, hb, fun ho => ?_⟩
  rw [untouched_iff.mp (h.opened batch hb ho).2] at hwork
  cases hwork

/-- **A closed batch is written no more**, and keeps its owner. -/
theorem closed_unchanged (h : Closed w) (hs : MetaStep domain w actor w') :
    w'.tables.batch = w.tables.batch ∧ w'.owners = w.owners := by
  obtain ⟨batch, hb, hclosed⟩ := h
  have hvalidating : ∀ current, w.tables.batch = some current → current.status ≠ .VALIDATING := by
    intro current hc hv
    obtain rfl : batch = current := Option.some.inj (hb.symm.trans hc)
    exact hclosed (.inl hv)
  cases hs with
  | create p id path j schema batch' tables hp hc hj =>
    unfold createReservedBatch at hc
    rw [hb] at hc
    cases hc
  | claim p batchId j batch' tables hp hfresh hc =>
    obtain ⟨current, hb', hopen, -⟩ := claimStoragePendingBatch_eq_some hc
    obtain rfl : batch = current := Option.some.inj (hb.symm.trans hb')
    exact absurd hopen hclosed
  | prepare p batch' file hp =>
    rcases prepareBatchWithFence_cases file w.tables with ⟨-, htables⟩ | ⟨current, hb', hv, -⟩
    · exact ⟨congrArg (·.batch) htables, rfl⟩
    · exact absurd hv (hvalidating current hb')
  | transact p batch' work hp =>
    rcases domainTransaction_cases work w.now w.tables with ⟨-, htables⟩ | ⟨current, hb', hv, -⟩
    · exact ⟨congrArg (·.batch) htables, rfl⟩
    · exact absurd hv (hvalidating current hb')
  | tick ms | otherImport metrics | crash p | findNothing p hp hn | findDuplicate p batch hp hb
  | newMarker p fields j hp hfresh | createConflict p schema batch hp hb | racedNothing p hp hn
  | refuse p batchId j hp hc => exact ⟨rfl, rfl⟩

theorem closed_run (h : Closed w) (hrun : MetaRun domain w later) :
    later.tables.batch = w.tables.batch ∧ later.owners = w.owners := by
  induction hrun with
  | refl => exact ⟨rfl, rfl⟩
  | tail _ hs ih =>
    obtain ⟨actor, hs⟩ := hs
    obtain ⟨batch, hb, hclosed⟩ := h
    obtain ⟨hb', ho⟩ := closed_unchanged ⟨batch, by rw [ih.1]; exact hb, hclosed⟩ hs
    exact ⟨hb'.trans ih.1, ho.trans ih.2⟩

/-- **The reservation protocol of the Meta imports is safe.** In every world the attempts can
    reach: at most one process has committed rows and metrics, and without it there are none; a
    process whose id has been replaced changes neither the batch nor any metric, however the run
    goes on; and a batch with a row, an error, a metric or a counter never gets another owner. -/
theorem meta_reservation_safe {domain : π → MetaOriginalStorageDomain} (h : MetaReachable domain w) :
    (w.commits.length ≤ 1 ∧
      (w.commits = [] → ∀ table, table ≠ .rowErrors → w.tables.rows table = 0)) ∧
    (∀ p, Replaced w p → ∀ later next, MetaRun domain w later → MetaStep domain later (some p) next →
      next.tables = later.tables) ∧
    (HasWork w → ∀ later, MetaRun domain w later → later.owners = w.owners) := by
  refine ⟨⟨h.inv.once, h.inv.unwritten⟩, fun p hr later next hrun hs => ?_, fun hw later hrun => ?_⟩
  · exact (h.run hrun).inv.replaced_unchanged (hr.run h hrun) hs
  · exact (closed_run (h.inv.closed_of_hasWork hw) hrun).2

end Steps

/-- The batch of the first attempt, reserved at time 0. -/
def firstReservation : ReservedBatch Unit where
  id := "u"
  level := .AD
  storedFilePath := "file"
  status := .VALIDATING
  validRowCount := 0
  warningCount := 0
  errorCount := 0
  importedAt := none
  columnSchema := pendingMetaOriginalStorageSchema { fields := (), originalStorage := none }
    .META_AD_DAILY 0 "a"

/-- The same batch claimed by the second attempt, one lease later. -/
def secondReservation : ReservedBatch Unit :=
  { firstReservation with
    columnSchema := pendingMetaOriginalStorageSchema firstReservation.columnSchema .META_AD_DAILY
      metaOriginalStorageLeaseMs "b" }

/-- The first process creates the batch and stops, its lease runs out, the second claims the
    batch, stores the file and commits two rows. -/
theorem exists_replaced_with_work : ∃ w : ReservationWorld Bool Unit Unit,
    MetaReachable (fun _ => .META_AD_DAILY) w ∧ Replaced w true ∧ HasWork w ∧ w.commits = [false] := by
  have h1 : MetaReachable (fun _ => .META_AD_DAILY)
      (initialReservation 0 () : ReservationWorld Bool Unit Unit) := .init 0 ()
  have h2 := h1.step (.findNothing true rfl rfl)
  have h3 := h2.step (.newMarker true () "a" rfl (by decide))
  have h4 := h3.step (.create true "u" "file" "a" firstReservation.columnSchema firstReservation _ rfl rfl rfl)
  have h5 := h4.step (.tick metaOriginalStorageLeaseMs)
  have h6 := h5.step (.findDuplicate false firstReservation (.inl rfl) rfl)
  have h7 := h6.step (.claim false "u" "b" secondReservation _ rfl (by decide) rfl)
  have h8 := h7.step (.prepare false secondReservation .accepted rfl)
  have h9 := h8.step (.transact false _ (.imports 2 0 0 2 (only .uploadRows 2) ()) rfl)
  exact ⟨_, h9, ⟨"a", rfl, by decide⟩, ⟨_, rfl, rfl⟩, rfl⟩

theorem meta_reservation_safe_replaced : ∃ w : ReservationWorld Bool Unit Unit,
    MetaReachable (fun _ => .META_AD_DAILY) w ∧ Replaced w true ∧ HasWork w ∧ w.commits.length ≤ 1 ∧
      ∀ next, MetaStep (fun _ => .META_AD_DAILY) w (some true) next → next.tables = w.tables := by
  obtain ⟨w, hw, hr, hwork, -⟩ := exists_replaced_with_work
  obtain ⟨⟨honce, -⟩, hunchanged, -⟩ := meta_reservation_safe hw
  exact ⟨w, hw, hr, hwork, honce, fun next hs => hunchanged true hr w next .refl hs⟩

end AdsManagement.Meta
