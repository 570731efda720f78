/-
  File:      Coupang/ReservationSafety.lean
  Subject:   AT MOST ONE IMPORT PER FILE: the invariant of the reservation protocol over every
             interleaving of attempts.

  Every write of an attempt compares the column schema it has read with the stored one, and the
  schema carries an attempt id that is never used twice. So the invariant is about ids: the
  stored marker carries the last id written, an attempt that holds the batch carries one of the
  ids written, and an id not written yet belongs to one attempt only.

  * `BatchForm` -- what is true of the batch whenever it is stored, and so of every copy of it;
  * `ReservationInv` -- the invariant; `ReservationInv.goto` for steps that only move an attempt,
    `.create`, `.claim`, `.finalize`, `.fail` for the writes;
  * `ReservationReachable.inv` -- every reachable world has it.
-/
import AdsManagement.Coupang.Reservation

namespace AdsManagement.Coupang

open Common List

variable {β π : Type}

/-! ## 1. The invariant -/

/-- A reservation: the marker of an attempt at work. -/
def ReservedBy (schema : ColumnSchema β) (attemptId : String) : Prop :=
  ∃ marker, coupangRetryMarker schema = some marker ∧ marker.state = .RESERVED ∧
    marker.attemptId = attemptId

def TransientFailed (schema : ColumnSchema β) : Prop :=
  ∃ marker, coupangRetryMarker schema = some marker ∧ marker.state = .TRANSIENT_FAILED

/-- A batch that is failed is marked so by its attempt or has errors; one that is validating is
    reserved. -/
structure BatchForm (batch : UploadBatch β) : Prop where
  failed : batch.status = .FAILED → TransientFailed batch.columnSchema ∨ 0 < batch.errorCount
  validating : batch.status = .VALIDATING → ∃ i, ReservedBy batch.columnSchema i
  transient : TransientFailed batch.columnSchema → batch.status = .FAILED

/-- A batch that no attempt has committed. -/
def Uncommitted (batch : UploadBatch β) : Prop :=
  batch.status = .VALIDATING ∨ TransientFailed batch.columnSchema

/-- What an attempt knows. -/
def PhaseOk (owners : List String) : Phase β → Prop
  | .creating schema => ∃ i, ReservedBy schema i
  | .counting batch _ => BatchForm batch
  | .claiming batch schema => Uncommitted batch ∧ ∃ i, ReservedBy schema i
  | .holding batch => ∃ i, ReservedBy batch.columnSchema i ∧ i ∈ owners
  | .committed batch => ∃ i, ReservedBy batch.columnSchema i ∧ i ∈ owners
  | _ => True

structure ReservationInv (w : ImportWorld π β) : Prop where
  nodup : w.owners.Nodup
  issued : ∀ i ∈ w.owners, i ∈ w.issued
  pending : ∀ p i, (w.phase p).pendingId = some i → i ∈ w.issued ∧ i ∉ w.owners
  distinct : ∀ p q i, (w.phase p).pendingId = some i → (w.phase q).pendingId = some i → p = q
  phases : ∀ p, PhaseOk w.owners (w.phase p)
  form : ∀ batch, w.tables.batch = some batch → BatchForm batch
  last : ∀ batch i, w.tables.batch = some batch → batch.columnSchema.attemptId = some i →
    w.owners.head? = some i
  uncommitted : ∀ batch, w.tables.batch = some batch → Uncommitted batch → w.commits = []
  absent : w.tables.batch = none → w.owners = [] ∧ w.commits = []
  once : w.commits.length ≤ 1
  rows : w.commits = [] → ∀ table, w.tables.rows table = 0

variable {schema : ColumnSchema β} {i : String}

theorem ReservedBy.attemptId (h : ReservedBy schema i) : schema.attemptId = some i := by
  obtain ⟨marker, hm, -, rfl⟩ := h
  unfold ColumnSchema.attemptId
  rw [hm]
  rfl

theorem reservedBy_withMarker (schema : ColumnSchema β) (source : CoupangRetrySource) (i : String)
    (now : Nat) :
    ReservedBy (withCoupangRetryMarker schema (newCoupangRetryMarker source .RESERVED i now)) i :=
  ⟨_, rfl, rfl, rfl⟩

theorem ReservedBy.not_transientFailed (h : ReservedBy schema i) : ¬ TransientFailed schema := by
  rintro ⟨m, hm, hs⟩
  obtain ⟨marker, hmarker, hstate, -⟩ := h
  rw [hm] at hmarker
  cases hmarker
  rw [hs] at hstate
  cases hstate

variable {owners : List String}

theorem PhaseOk.mono {owners' : List String} {phase : Phase β} (h : PhaseOk owners phase)
    (hs : owners ⊆ owners') : PhaseOk owners' phase := by
  cases phase with
  | holding batch | committed batch =>
    obtain ⟨i, hi, hm⟩ := h
    exact ⟨i, hi, hs hm⟩
  | start | notDuplicate | absent | raced | ended => trivial
  | creating schema | counting batch seen | claiming batch schema => exact h

/-! ## 2. Steps of one attempt -/

section Steps

variable [DecidableEq π] {w : ImportWorld π β} {p : π} {phase : Phase β}

@[simp] theorem goto_phase_self (w : ImportWorld π β) (p : π) (phase : Phase β) :
    (w.goto p phase).phase p = phase := Function.update_self ..

theorem goto_phase_of_ne (w : ImportWorld π β) {p q : π} (phase : Phase β) (h : q ≠ p) :
    (w.goto p phase).phase q = w.phase q := Function.update_of_ne h ..

theorem goto_phases (h : ∀ q, PhaseOk owners (w.phase q)) (hp : PhaseOk owners phase) (q : π) :
    PhaseOk owners ((w.goto p phase).phase q) := by
  by_cases hq : q = p
  · rw [hq, goto_phase_self]
    exact hp
  · rw [goto_phase_of_ne w phase hq]
    exact h q

/-- An attempt that keeps no id moves. -/
theorem goto_pending (hn : phase.pendingId = none) {q : π}
    (h : ((w.goto p phase).phase q).pendingId = some i) : q ≠ p ∧ (w.phase q).pendingId = some i := by
  by_cases hq : q = p
  · rw [hq, goto_phase_self, hn] at h
    cases h
  · rw [goto_phase_of_ne w phase hq] at h
    exact ⟨hq, h⟩

/-- **A step that only moves an attempt.** -/
theorem ReservationInv.goto (h : ReservationInv w) (hn : phase.pendingId = none)
    (hp : PhaseOk w.owners phase) : ReservationInv (w.goto p phase) where
  nodup := h.nodup
  issued := h.issued
  pending q i hi := h.pending q i (goto_pending hn hi).2
  distinct q r i hq hr := h.distinct q r i (goto_pending hn hq).2 (goto_pending hn hr).2
  phases := goto_phases h.phases hp
  form := h.form
  last := h.last
  uncommitted := h.uncommitted
  absent := h.absent
  once := h.once
  rows := h.rows

/-- **An attempt is given a new id.** -/
theorem ReservationInv.issue (h : ReservationInv w) (hi : phase.pendingId = some i) (hfresh : i ∉ w.issued)
    (hp : PhaseOk w.owners phase) :
    ReservationInv { w.goto p phase with issued := i :: w.issued } := by
  have hother : ∀ q j, q ≠ p → ((w.goto p phase).phase q).pendingId = some j → j ∈ w.issued ∧
      j ∉ w.owners := by
    intro q j hq hj
    rw [goto_phase_of_ne w phase hq] at hj
    exact h.pending q j hj
  have hself : ∀ j, ((w.goto p phase).phase p).pendingId = some j → j = i := by
    intro j hj
    rw [goto_phase_self, hi] at hj
    exact (Option.some.inj hj).symm
  refine { h with issued := ?_, pending := ?_, distinct := ?_, phases := goto_phases h.phases hp }
  · exact fun j hj => mem_cons_of_mem _ (h.issued j hj)
  · intro q j hj
    by_cases hq : q = p
    · rw [hself j (hq ▸ hj)]
      exact ⟨mem_cons_self, fun hm => hfresh (h.issued i hm)⟩
    · obtain ⟨hm, hn⟩ := hother q j hq hj
      exact ⟨mem_cons_of_mem _ hm, hn⟩
  · intro q r j hq hr
    by_cases hqp : q = p
    · by_cases hrp : r = p
      · rw [hqp, hrp]
      · have e := hself j (hqp ▸ hq)
        exact absurd (hother r j hrp hr).1 (e ▸ hfresh)
    · by_cases hrp : r = p
      · have e := hself j (hrp ▸ hr)
        exact absurd (hother q j hqp hq).1 (e ▸ hfresh)
      · rw [show ({ w.goto p phase with issued := i :: w.issued } : ImportWorld π β).phase q =
          w.phase q from goto_phase_of_ne w phase hqp] at hq
        rw [show ({ w.goto p phase with issued := i :: w.issued } : ImportWorld π β).phase r =
          w.phase r from goto_phase_of_ne w phase hrp] at hr
        exact h.distinct q r j hq hr

variable {batch : UploadBatch β} {tables : UploadTables β}
variable {stored : UploadBatch β}

/-- **An attempt becomes the owner of the batch**, by creating or by claiming it. -/
theorem ReservationInv.own (h : ReservationInv w) (hi : (w.phase p).pendingId = some i)
    (ht : tables.batch = some stored) (hrows : tables.rows = w.tables.rows)
    (hs : stored.status = .VALIDATING) (hr : ReservedBy stored.columnSchema i)
    (hb : ReservedBy batch.columnSchema i) (hc : w.commits = []) :
    ReservationInv { w.goto p (.holding batch) with tables, owners := i :: w.owners } := by
  obtain ⟨hissued, hnew⟩ := h.pending p i hi
  have hstored : ∀ b, tables.batch = some b → b = stored := fun b hb => by
    rw [ht] at hb
    exact (Option.some.inj hb).symm
  refine ⟨nodup_cons.mpr ⟨hnew, h.nodup⟩, ?_, ?_, ?_, ?_, ?_, ?_, ?_, ?_, h.once, ?_⟩
  · intro j hj
    rcases mem_cons.mp hj with rfl | hj
    · exact hissued
    · exact h.issued j hj
  · intro q j hj
    obtain ⟨hq, hj⟩ := goto_pending (p := p) (w := w) (q := q) (i := j) rfl hj
    obtain ⟨hm, hn⟩ := h.pending q j hj
    refine ⟨hm, fun hmem => (mem_cons.mp hmem).elim (fun e => ?_) hn⟩
    exact hq (h.distinct q p i (e ▸ hj) hi)
  · intro q r j hq hr
    exact h.distinct q r j (goto_pending (p := p) (w := w) rfl hq).2
      (goto_pending (p := p) (w := w) rfl hr).2
  · refine goto_phases (fun q => (h.phases q).mono (subset_cons_self ..)) ?_
    exact ⟨i, hb, mem_cons_self⟩
  · intro b hb
    rw [hstored b hb]
    refine ⟨fun e => ?_, fun _ => ⟨i, hr⟩, fun ht => absurd ht hr.not_transientFailed⟩
    rw [hs] at e
    cases e
  · intro b j hb hj
    rw [hstored b hb, hr.attemptId] at hj
    cases hj
    rfl
  · exact fun _ _ _ => hc
  · intro hn
    rw [ht] at hn
    cases hn
  · intro hcommits
    rw [hrows]
    exact h.rows hcommits

variable {source : CoupangRetrySource} {id : String}

theorem ReservationInv.create (h : ReservationInv w) (hp : w.phase p = .creating schema)
    (hc : createBatch id source schema w.tables = some (batch, tables)) :
    ReservationInv { w.goto p (.holding batch) with
      tables, owners := schema.attemptId.toList ++ w.owners } := by
  have hok := h.phases p
  rw [hp] at hok
  obtain ⟨i, hr⟩ := hok
  have hi : (w.phase p).pendingId = some i := by
    rw [hp]
    exact hr.attemptId
  unfold createBatch at hc
  split at hc
  · cases hc
  · rename_i hb
    cases hc
    rw [hr.attemptId]
    exact h.own hi rfl rfl rfl hr hr (h.absent hb).2

variable [DecidableEq β]

theorem updateWhere_eq_some {status : UploadStatus} {data : UploadBatch β → UploadBatch β}
    {tables' : UploadTables β} (h : updateWhere id status schema data tables = some tables') :
    ∃ stored, tables.batch = some stored ∧ stored.status = status ∧ stored.columnSchema = schema ∧
      tables' = { tables with batch := some (data stored) } := by
  unfold updateWhere at h
  split at h
  · cases h
  · rename_i stored hb
    split at h
    · rename_i hw
      cases h
      exact ⟨stored, hb, hw.2.1, hw.2.2, rfl⟩
    · cases h

theorem ReservationInv.claim (h : ReservationInv w) (hp : w.phase p = .claiming batch schema)
    (hc : claimUpdate batch schema w.tables = some tables) :
    ReservationInv { w.goto p (.holding { batch with status := .VALIDATING, columnSchema := schema }) with
      tables, owners := schema.attemptId.toList ++ w.owners } := by
  have hok := h.phases p
  rw [hp] at hok
  obtain ⟨hun, i, hr⟩ := hok
  have hi : (w.phase p).pendingId = some i := by
    rw [hp]
    exact hr.attemptId
  obtain ⟨stored, hb, hstatus, hschema, rfl⟩ := updateWhere_eq_some hc
  -- the stored batch is the one read: it was not committed then, so it is not now
  have hun' : Uncommitted stored := by
    unfold Uncommitted
    rw [hstatus, hschema]
    exact hun
  rw [hr.attemptId]
  exact h.own hi rfl rfl rfl hr hr (h.uncommitted stored hb hun')

theorem statusFor_ne_validating (valid errors : Nat) : statusFor valid errors ≠ .VALIDATING := by
  unfold statusFor
  split
  · exact nofun
  · split
    · exact nofun
    · exact nofun

theorem errors_of_statusFor_failed {valid errors : Nat} (h : statusFor valid errors = .FAILED) :
    0 < errors := by
  unfold statusFor at h
  split at h
  · cases h
  · split at h
    · next he => exact he
    · cases h

omit [DecidableEq β] in
/-- The column keeps its marker, or is written anew without one. -/
theorem marker_of_written {schema : ColumnSchema β} {written : Option β} {m : CoupangRetryMarker}
    (h : coupangRetryMarker (match written with
      | none => schema
      | some fields => { fields, securityRetry := none }) = some m) :
    coupangRetryMarker schema = some m := by
  split at h
  · exact h
  · cases h

/-- **A domain transaction commits**: no other had, and the batch is open to none after it. -/
theorem ReservationInv.finalize (h : ReservationInv w) {outcome : ImportOutcome β}
    (hp : w.phase p = .holding batch)
    (hf : finalizeCoupangReservation batch outcome w.now w.tables = some tables) :
    ReservationInv { w.goto p (.committed batch) with tables, commits := p :: w.commits } := by
  have hok := h.phases p
  rw [hp] at hok
  obtain ⟨t, ht, rfl⟩ := Option.map_eq_some_iff.mp hf
  obtain ⟨stored, hb, hstatus, hschema, rfl⟩ := updateWhere_eq_some ht
  have hnone : w.commits = [] := h.uncommitted stored hb (.inl hstatus)
  obtain ⟨i, hr⟩ := (h.form stored hb).validating hstatus
  refine { h with pending := ?_, distinct := ?_, phases := goto_phases h.phases hok, form := ?_, last := ?_,
                  uncommitted := ?_, absent := nofun, once := ?_,
                  rows := nofun }
  · exact fun q j hj => h.pending q j (goto_pending (p := p) (w := w) rfl hj).2
  · exact fun q r j hq hr => h.distinct q r j (goto_pending (p := p) (w := w) rfl hq).2
      (goto_pending (p := p) (w := w) rfl hr).2
  · rintro b ⟨⟩
    refine ⟨fun e => .inr (errors_of_statusFor_failed e),
      fun e => absurd e (statusFor_ne_validating _ _), fun ⟨m, hm, hs⟩ => ?_⟩
    exact absurd ⟨m, marker_of_written hm, hs⟩ hr.not_transientFailed
  · rintro b j ⟨⟩ hj
    obtain ⟨m, hm, rfl⟩ := Option.map_eq_some_iff.mp hj
    refine h.last stored m.attemptId hb ?_
    unfold ColumnSchema.attemptId
    rw [marker_of_written hm]
    rfl
  · rintro b ⟨⟩ (e | ⟨m, hm, hs⟩)
    · exact absurd e (statusFor_ne_validating _ _)
    · exact absurd ⟨m, marker_of_written hm, hs⟩ hr.not_transientFailed
  · rw [hnone]
    exact le_refl 1

/-- **An attempt marks its batch as failed.** -/
theorem ReservationInv.fail (h : ReservationInv w) (hf : failUpdate batch w.now w.tables = some tables) :
    ReservationInv { w.goto p .ended with tables } := by
  unfold failUpdate at hf
  split at hf
  · cases hf
  · rename_i marker hmarker
    obtain ⟨stored, hb, hstatus, hschema, rfl⟩ := updateWhere_eq_some hf
    have hnone : w.commits = [] := h.uncommitted stored hb (.inl hstatus)
    have hmoved : ReservationInv (w.goto p .ended) := h.goto rfl trivial
    refine { hmoved with
      form := ?_, last := ?_, uncommitted := fun _ _ _ => hnone, absent := nofun }
    · rintro b ⟨⟩
      exact ⟨fun _ => .inl ⟨_, rfl, rfl⟩, nofun, fun _ => rfl⟩
    · rintro b j ⟨⟩ hj
      cases hj
      refine h.last stored marker.attemptId hb ?_
      unfold ColumnSchema.attemptId
      rw [hschema, hmarker]
      rfl

omit [DecidableEq β] in
/-- The checks of a claim leave only batches that nobody has committed. -/
theorem uncommitted_of_claimRetryCheck {counts : RowTable → Nat} {now : Nat} (hf : BatchForm batch)
    (h : claimRetryCheck source batch counts now = .ok ()) : Uncommitted batch := by
  unfold claimRetryCheck at h
  split at h
  · cases h
  · rename_i hwork
    split at h
    · cases h
    · split at h
      · cases h
      · rename_i hretry
        by_cases hv : batch.status = .VALIDATING
        · exact .inl hv
        · have hfailed : batch.status = .FAILED := by
            by_contra hne
            exact hretry (.inr ⟨hv, hne⟩)
          rcases hf.failed hfailed with ht | he
          · exact .inr ht
          · exact absurd (by tauto) hwork

variable {source : π → CoupangRetrySource}
variable {w' : ImportWorld π β}

/-- **Every step keeps the invariant.** -/
theorem ReservationInv.step (h : ReservationInv w) (hs : ReservationStep source w w') :
    ReservationInv w' := by
  cases hs with
  | tick ms => exact { h with }
  | crash p | duplicate p batch hp hb hd | noDuplicate p hp hd | findNothing p hp hn
  | createConflict p id schema hp hc | racedNothing p hp hn | findOther p batch hp hb hs
  | refuse p batch seen counts error hp hcounts hr | claimLost p batch schema hp hc
  | finalizeLost p batch outcome hp hf | failLost p batch hp hf => exact h.goto rfl trivial
  | newMarker p fields i hp hfresh =>
    have hr := reservedBy_withMarker ({ fields, securityRetry := none } : ColumnSchema β)
      (source p) i w.now
    exact h.issue hr.attemptId hfresh ⟨i, hr⟩
  | create p id schema batch tables hp hc => exact h.create hp hc
  | find p batch hp hb hs => exact h.goto rfl (h.form batch hb)
  | count p batch seen table hp =>
    have hok := h.phases p
    rw [hp] at hok
    exact h.goto rfl hok
  | accept p batch seen counts i hp hcounts ha hfresh =>
    have hok := h.phases p
    rw [hp] at hok
    have hr := reservedBy_withMarker batch.columnSchema (source p) i w.now
    exact h.issue hr.attemptId hfresh ⟨uncommitted_of_claimRetryCheck hok ha, i, hr⟩
  | claim p batch schema tables hp hc => exact h.claim hp hc
  | finalize p batch outcome tables hp hf => exact h.finalize hp hf
  | fail p batch tables hp hf => exact h.fail hf

omit [DecidableEq π] [DecidableEq β] in
theorem ReservationInv.initial (now : Nat) : ReservationInv (initialWorld now : ImportWorld π β) where
  nodup := nodup_nil
  issued _ hi := nomatch hi
  pending _ _ hi := nomatch hi
  distinct _ _ _ hi := nomatch hi
  phases _ := trivial
  form _ hb := nomatch hb
  last _ _ hb := nomatch hb
  uncommitted _ hb := nomatch hb
  absent _ := ⟨rfl, rfl⟩
  once := Nat.zero_le 1
  rows _ _ := rfl

/-- **Every reachable world has the invariant.** -/
theorem ReservationReachable.inv (h : ReservationReachable source w) : ReservationInv w := by
  induction h with
  | init now => exact .initial now
  | step _ hs ih => exact ih.step hs

/-! ## 3. Safety -/

/-- The attempt of a batch has been replaced: another id has been written after its own. -/
def Replaced (w : ImportWorld π β) (batch : UploadBatch β) : Prop :=
  ∃ i, batch.columnSchema.attemptId = some i ∧ i ∈ w.owners.tail

/-- Ids are only added. -/
theorem Replaced.step (h : Replaced w batch) (hs : ReservationStep source w w') :
    Replaced w' batch := by
  obtain ⟨i, hi, hm⟩ := h
  have hgrow : ∀ new : Option String, i ∈ (new.toList ++ w.owners).tail := by
    intro new
    cases new with
    | none => exact hm
    | some j => exact mem_of_mem_tail hm
  refine ⟨i, hi, ?_⟩
  cases hs with
  | create p id schema batch tables hp hc | claim p batch schema tables hp hc => exact hgrow _
  | tick ms | crash p | duplicate p batch hp hb hd | noDuplicate p hp hd | findNothing p hp hn
  | newMarker p fields i hp hfresh | createConflict p id schema hp hc | racedNothing p hp hn
  | find p batch hp hb hs | findOther p batch hp hb hs | count p batch seen table hp
  | refuse p batch seen counts error hp hcounts hr
  | accept p batch seen counts i hp hcounts ha hfresh | claimLost p batch schema hp hc
  | finalize p batch outcome tables hp hf | finalizeLost p batch outcome hp hf
  | fail p batch tables hp hf | failLost p batch hp hf => exact hm

variable {later : ImportWorld π β}

theorem Replaced.run (h : Replaced w batch) (hrun : Relation.ReflTransGen (ReservationStep source) w later) :
    Replaced later batch := by
  induction hrun with
  | refl => exact h
  | tail _ hs ih => exact ih.step hs

theorem ReservationReachable.run (h : ReservationReachable source w)
    (hrun : Relation.ReflTransGen (ReservationStep source) w later) :
    ReservationReachable source later := by
  induction hrun with
  | refl => exact h
  | tail _ hs ih => exact ih.step hs

omit [DecidableEq π] [DecidableEq β] in
/-- Where the schema of a batch still matches, its id is the last one written. -/
theorem ReservationInv.not_replaced (h : ReservationInv w) (hb : w.tables.batch = some stored)
    (hs : stored.columnSchema = batch.columnSchema) :
    ¬ Replaced w batch := by
  rintro ⟨i, hi, hm⟩
  have hlast := h.last stored i hb (by rw [hs]; exact hi)
  have hnodup := h.nodup
  cases e : w.owners with
  | nil =>
    rw [e] at hm
    cases hm
  | cons j owners =>
    rw [e] at hlast hnodup hm
    cases hlast
    exact (nodup_cons.mp hnodup).1 hm

omit [DecidableEq π] in
theorem ReservationInv.finalize_eq_none (h : ReservationInv w) (hr : Replaced w batch)
    (outcome : ImportOutcome β) :
    finalizeCoupangReservation batch outcome w.now w.tables = none := by
  cases e : finalizeCoupangReservation batch outcome w.now w.tables with
  | none => rfl
  | some tables =>
    obtain ⟨t, ht, -⟩ := Option.map_eq_some_iff.mp e
    obtain ⟨stored, hb, -, hs, -⟩ := updateWhere_eq_some ht
    exact absurd hr (h.not_replaced hb hs)

omit [DecidableEq π] in
theorem ReservationInv.fail_eq_none (h : ReservationInv w) (hr : Replaced w batch) :
    failUpdate batch w.now w.tables = none := by
  cases e : failUpdate batch w.now w.tables with
  | none => rfl
  | some tables =>
    unfold failUpdate at e
    split at e
    · cases e
    · obtain ⟨stored, hb, -, hs, -⟩ := updateWhere_eq_some e
      exact absurd hr (h.not_replaced hb hs)

/-- **The reservation protocol is safe.** In every world the attempts can reach: at most one has
    committed, and without it there are no rows; a domain transaction that an attempt gets
    through is that of the attempt whose id is stored at that moment; and an attempt that has
    been replaced neither finalizes nor marks the batch as failed, however the run goes on. -/
theorem reservation_protocol_safe {source : π → CoupangRetrySource}
    (h : ReservationReachable source w) :
    (w.commits.length ≤ 1 ∧ (w.commits = [] → ∀ table, w.tables.rows table = 0)) ∧
    (∀ p batch outcome tables, w.phase p = .holding batch →
      finalizeCoupangReservation batch outcome w.now w.tables = some tables →
      ∃ stored i, w.tables.batch = some stored ∧ batch.columnSchema.attemptId = some i ∧
        stored.columnSchema.attemptId = some i) ∧
    (∀ p batch later, w.phase p = .holding batch ∨ w.phase p = .committed batch →
      Replaced w batch → Relation.ReflTransGen (ReservationStep source) w later →
      (∀ outcome, finalizeCoupangReservation batch outcome later.now later.tables = none) ∧
        failUpdate batch later.now later.tables = none) := by
  have hinv := h.inv
  refine ⟨⟨hinv.once, hinv.rows⟩, fun p batch outcome tables hp hf => ?_,
    fun p batch later _ hr hrun => ?_⟩
  · have hok := hinv.phases p
    rw [hp] at hok
    obtain ⟨i, hi, -⟩ := hok
    obtain ⟨t, ht, -⟩ := Option.map_eq_some_iff.mp hf
    obtain ⟨stored, hb, -, hs, -⟩ := updateWhere_eq_some ht
    exact ⟨stored, i, hb, hi.attemptId, by rw [hs]; exact hi.attemptId⟩
  · have hlater := (h.run hrun).inv
    exact ⟨hlater.finalize_eq_none (hr.run hrun), hlater.fail_eq_none (hr.run hrun)⟩

end Steps

/-- The sales batch of attempt `a`, reserved at time 0. -/
def batchOfA : UploadBatch Unit where
  id := "u"
  sourceType := .SALES
  status := .VALIDATING
  validRowCount := 0
  warningCount := 0
  errorCount := 0
  importedAt := none
  columnSchema := withCoupangRetryMarker { fields := (), securityRetry := none }
    (newCoupangRetryMarker .SALES .RESERVED "a" 0)

/-- Attempt `true` creates the batch, two hours pass, attempt `false` claims it. -/
theorem exists_replaced : ∃ w : ImportWorld Bool Unit,
    ReservationReachable (fun _ => .SALES) w ∧ w.owners = ["b", "a"] ∧ w.phase true = .holding batchOfA := by
  have h1 : ReservationReachable (fun _ => .SALES) (initialWorld 0 : ImportWorld Bool Unit) := .init 0
  have h2 := h1.step (.noDuplicate true rfl nofun)
  have h3 := h2.step (.findNothing true rfl rfl)
  have h4 := h3.step (.newMarker true () "a" rfl (by decide))
  have h5 := h4.step (.create true "u" batchOfA.columnSchema batchOfA _ rfl rfl)
  have h6 := h5.step (.tick (2 * coupangRetryLeaseMs))
  have h7 := h6.step (.noDuplicate false rfl fun b hb => by cases hb; rfl)
  have h8 := h7.step (.find false batchOfA (.inl rfl) rfl rfl)
  have h9 := h8.step (.count false batchOfA _ .saleLines rfl)
  have h10 := h9.step (.count false batchOfA _ .adMetrics rfl)
  have h11 := h10.step (.count false batchOfA _ .promotionPrices rfl)
  have h12 := h11.step (.count false batchOfA _ .rowErrors rfl)
  have h13 := h12.step (.accept false batchOfA _ (fun _ => 0) "b" rfl
    (fun table => by cases table <;> rfl) (by decide) (by decide))
  have h14 := h13.step (.claim false batchOfA _ _ rfl rfl)
  exact ⟨_, h14, rfl, rfl⟩

theorem reservation_protocol_safe_replaced : ∃ w : ImportWorld Bool Unit,
    ReservationReachable (fun _ => .SALES) w ∧ Replaced w batchOfA ∧
      failUpdate batchOfA w.now w.tables = none := by
  obtain ⟨w, hw, howners, hphase⟩ := exists_replaced
  have hr : Replaced w batchOfA := ⟨"a", rfl, by rw [howners]; decide⟩
  exact ⟨w, hw, hr, ((reservation_protocol_safe hw).2.2 true batchOfA w (.inl hphase) hr .refl).2⟩

end AdsManagement.Coupang
